import ClassLang.Check.Class
import ClassLang.Proofs.BlindExpr

namespace ClassLang

open Scoped

variable {rev : Revision}

namespace Stmt

theorem blind_checkInLoop (keyword : String) (span : Span) (scopes : ScopeStack) :
    Check.Blind rev (checkInLoop keyword span scopes)
      (checkInLoop keyword (rev.place span) (scopes.revised rev)) := by
  unfold checkInLoop
  rw [scopes.hasKind_revised]
  exact Check.blind_failIf _ _ span

theorem blind_inCode (kind : ScopeKind) {c d : Scoped Bool} (h : Scoped.Blind rev c d) :
    Scoped.Blind rev (Scoped.within kind .code c) (Scoped.within kind .code d) :=
  blind_within kind .code h

end Stmt

namespace Member

variable (m : Member) (c : ClassDef) (r : Routine)

theorem blind_checkMethodHeader :
    Check.Blind rev (m.checkMethodHeader c r)
      ((m.revised rev).checkMethodHeader (c.revised rev) (r.revised rev)) := by
  unfold checkMethodHeader
  have hbody : (r.revised rev).body = r.body.map (Block.revised rev) := rfl
  rw [hbody, Option.isSome_map, Option.isNone_map]
  apply Check.blind_bind (Check.blind_failIf _ _ r.name.span)
  intro staticFailed
  apply Check.blind_bind (Check.blind_failIf _ _ r.name.span)
  intro placeFailed
  apply Check.blind_bind (Check.blind_failIf _ _ r.name.span)
  intro surplusFailed
  apply Check.blind_bind (Check.blind_failIf _ _ r.name.span)
  intro missingFailed
  apply Check.blind_classes_bind
  intro table
  rw [table.hasOverridable_revised]
  apply Check.blind_bind (Check.blind_failIf _ _ r.name.span)
  intro overrideFailed
  exact Check.blind_pure _

end Member

namespace ClassDef

variable (c : ClassDef)

theorem blind_checkUnique : Check.Blind rev c.checkUnique (c.revised rev).checkUnique := by
  unfold checkUnique
  rw [c.memberKeys_revised, firstDuplicate?_revised]
  cases firstDuplicate? [] c.memberKeys with
  | none => exact Check.blind_pure false
  | some name => exact Check.blind_fail _ name.span

theorem blind_checkBaseModifier (base : Ident) (parent : ClassDef) :
    Check.Blind rev (c.checkBaseModifier base parent)
      ((c.revised rev).checkBaseModifier (base.revised rev) (parent.revised rev)) := by
  unfold checkBaseModifier
  have hlabel : (c.revised rev).label = c.label := rfl
  rw [hlabel]
  split
  · exact Check.blind_fail _ base.span
  · exact Check.blind_failIf _ _ base.span

/-- What the class is said to lack or to mark wrongly depends on the first method of the required
signature. -/
theorem checkImplements_eq (required : Member) :
    c.checkImplements required =
      (c.methods.find? (fun m => m.1.sameSignature required)).elim
        (Check.fail (.abstractMethodNotImplemented required.name) c.ident.span)
        (fun found => Check.failIf (found.1.modifier != .override)
          (.implementationMustBeOverride found.2.name.text) found.2.name.span) := by
  unfold checkImplements
  split
  · next hnone =>
    have hfind : c.methods.find? (fun m => m.1.sameSignature required) = none := hnone
    rw [hfind, Option.elim_none]
  · next m routine hsome =>
    have hfind : c.methods.find? (fun m => m.1.sameSignature required) = some (m, routine) := hsome
    rw [hfind, Option.elim_some]

theorem blind_checkImplements (required : Member) :
    Check.Blind rev (c.checkImplements required)
      ((c.revised rev).checkImplements (required.revised rev)) := by
  have hsame : (fun m : Member × Routine => m.1.sameSignature (required.revised rev)) ∘
      Prod.map (Member.revised rev) (Routine.revised rev) = fun m => m.1.sameSignature required :=
    funext fun m => m.1.sameSignature_revised required
  rw [checkImplements_eq, checkImplements_eq, c.methods_revised, List.find?_map, hsame,
    required.name_revised]
  cases c.methods.find? (fun m => m.1.sameSignature required) with
  | none => exact Check.blind_fail _ c.ident.span
  | some found => exact Check.blind_failIf _ _ found.2.name.span

theorem blind_checkContract : Check.Blind rev c.checkContract (c.revised rev).checkContract := by
  unfold checkContract
  have hbase : (c.revised rev).base = c.base.map (Ident.revised rev) := rfl
  rw [hbase, Option.isSome_map]
  refine Check.blind_ite ?_ (Check.blind_pure false)
  apply Check.blind_classes_bind
  intro table
  have hmethods : ((table.revised rev).ancestors (c.revised rev)).flatMap abstractMethods =
      ((table.ancestors c).flatMap abstractMethods).map (Member.revised rev) := by
    rw [table.ancestors_revised, List.flatMap_map, List.map_flatMap]
    exact congrArg (List.flatMap · (table.ancestors c)) (funext abstractMethods_revised)
  rw [hmethods]
  exact Check.blind_anyFails fun required _ => c.blind_checkImplements required

end ClassDef

variable [Alphabet]

section Statements

theorem Declarator.blind_check (ty : Ty) (d : Declarator) :
    Scoped.Blind rev (d.check ty) ((d.revised rev).check ty) := by
  have hlast (valueFailed : Bool) : Scoped.Blind rev
      (do
        let nameFailed ← Scoped.declare ⟨d.name.text, ty, true⟩ d.name.span
        return valueFailed || nameFailed)
      (do
        let nameFailed ← Scoped.declare ⟨d.name.text, ty, true⟩ (d.revised rev).name.span
        return valueFailed || nameFailed) := by
    apply blind_bind (blind_declare _ d.name.span)
    intro nameFailed
    exact blind_pure _
  obtain ⟨name, value, span⟩ := d
  cases value with
  | none => exact hlast false
  | some value =>
    exact blind_bind (blind_reading fun scopes => value.blind_checkInitializer scopes ty) hlast

theorem Declaration.blind_check (d : Declaration) :
    Scoped.Blind rev d.check (d.revised rev).check := by
  apply blind_bind (blind_lift (Check.blind_expectValueType d.typeName))
  intro ty
  cases ty with
  | none => exact blind_pure true
  | some ty => exact blind_anyFails fun declarator _ => declarator.blind_check ty

theorem ForInit.blind_check (init : ForInit) :
    Scoped.Blind rev init.check (init.revised rev).check := by
  cases init with
  | declaration d => exact d.blind_check
  | expression e => exact blind_reading fun scopes => e.blind_checkDenotes scopes

namespace Stmt

theorem blind_checkReturn (value : Option Expr) (span : Span) (scopes : ScopeStack) :
    Check.Blind rev (checkReturn value span scopes)
      (checkReturn (value.map (Expr.revised rev)) (rev.place span) (scopes.revised rev)) := by
  unfold checkReturn
  rw [scopes.currentMember?_revised]
  cases scopes.currentMember? with
  | none => exact Check.blind_fail _ span
  | some m =>
    apply Check.blind_bind (Check.blind_resolve m.declaredType.text)
    intro expected
    cases expected with
    | none => exact Check.blind_pure true
    | some expected =>
      cases value with
      | none => exact Check.blind_failIf _ _ span
      | some e =>
        apply Check.blind_bind (e.blind_denote scopes)
        intro found
        cases found with
        | none => exact Check.blind_pure true
        | some found =>
          apply Check.blind_classes_bind
          intro table
          simp only [table.isAssignable_revised, e.span_revised]
          exact Check.blind_failIf _ _ e.span

theorem checkAll_singleton (s : Stmt) : checkAll [s] = s.check := by
  have hrest : (fun failed => do
      let restFailed ← (pure false : Scoped Bool)
      return failed || restFailed) = pure := by
    funext failed
    rw [pure_bind, Bool.or_false]
  rw [checkAll]
  cases s.alwaysReturns with
  | true => exact bind_pure s.check
  | false => exact (congrArg (s.check >>= ·) hrest).trans (bind_pure s.check)

theorem checkAll_of_not_returns {s : Stmt} (h : s.alwaysReturns = false) (rest : List Stmt) :
    checkAll (s :: rest) = (do
      let failed ← s.check
      let restFailed ← checkAll rest
      return failed || restFailed) := by
  rw [checkAll, h]
  rfl

theorem checkAll_of_returns {s : Stmt} (h : s.alwaysReturns = true) (next : Stmt)
    (rest : List Stmt) :
    checkAll (s :: next :: rest) = (do
      let _ ← s.check
      Check.fail .unreachableCode next.span) := by
  rw [checkAll, h]
  rfl

theorem blind_condition (e : Expr) :
    Scoped.Blind rev (Scoped.reading e.checkCondition)
      (Scoped.reading (e.revised rev).checkCondition) :=
  blind_reading fun scopes => e.blind_checkCondition scopes

theorem blind_denotes (e : Expr) :
    Scoped.Blind rev (Scoped.reading e.checkDenotes)
      (Scoped.reading (e.revised rev).checkDenotes) :=
  blind_reading fun scopes => e.blind_checkDenotes scopes

mutual

theorem blind_check (s : Stmt) : Scoped.Blind rev s.check (s.revised rev).check := by
  cases s with
  | block statements span => exact blind_inCode .block (blind_checkAll statements)
  | continueLoop span => exact blind_reading fun scopes => blind_checkInLoop _ span scopes
  | breakLoop span => exact blind_reading fun scopes => blind_checkInLoop _ span scopes
  | ret value span => exact blind_reading fun scopes => blind_checkReturn value span scopes
  | declaration d => exact d.blind_check
  | whileLoop condition body span =>
    exact blind_both (blind_condition condition) (blind_inCode .loop body.blind_check)
  | doLoop body condition span =>
    exact blind_both (blind_inCode .loop body.blind_check) (blind_condition condition)
  | ifThen condition thenBranch span =>
    exact blind_both (blind_condition condition) (blind_inCode .block thenBranch.blind_check)
  | ifElse condition thenBranch elseBranch span =>
    apply blind_bind (blind_condition condition)
    intro conditionFailed
    apply blind_bind (blind_inCode .block thenBranch.blind_check)
    intro thenFailed
    apply blind_bind (blind_inCode .block elseBranch.blind_check)
    intro elseFailed
    exact blind_pure _
  | forLoop init condition step body span =>
    apply blind_inCode .loop
    apply blind_bind (blind_checkOptional ForInit.blind_check init)
    intro initFailed
    refine blind_bind (blind_checkOptional (by exact blind_condition) condition)
      fun conditionFailed => ?_
    refine blind_bind (blind_checkOptional (by exact blind_denotes) step) fun stepFailed => ?_
    apply blind_bind body.blind_check
    intro bodyFailed
    exact blind_pure _
  | expression e span => exact blind_denotes e

theorem blind_checkAll (statements : List Stmt) :
    Scoped.Blind rev (checkAll statements) (checkAll (revisedAll rev statements)) := by
  cases statements with
  | nil => exact blind_pure false
  | cons s rest =>
    cases hs : s.alwaysReturns with
    | false =>
      have hrevised : (s.revised rev).alwaysReturns = false := s.alwaysReturns_revised.trans hs
      rw [revisedAll_of_not_returns hs, checkAll_of_not_returns hs,
        checkAll_of_not_returns hrevised]
      exact blind_both s.blind_check (blind_checkAll rest)
    | true =>
      have hrevised : (s.revised rev).alwaysReturns = true := s.alwaysReturns_revised.trans hs
      cases rest with
      | nil =>
        rw [revisedAll_singleton, checkAll_singleton, checkAll_singleton]
        exact s.blind_check
      | cons next rest =>
        obtain ⟨first, others, hall, hplace⟩ := exists_revisedAll rev s next rest
        rw [hall, checkAll_of_returns hs, checkAll_of_returns hrevised, hplace]
        apply blind_bind s.blind_check
        intro failed
        exact blind_lift (Check.blind_fail _ next.span)

end

end Stmt

theorem Block.blind_check (b : Block) : Scoped.Blind rev b.check (b.revised rev).check :=
  b.toStmt.blind_check

end Statements

section Members

theorem Parameter.blind_check (p : Parameter) : Scoped.Blind rev p.check (p.revised rev).check := by
  apply blind_bind (blind_lift (Check.blind_expectValueType p.typeName))
  intro ty
  cases ty with
  | none => exact blind_pure true
  | some ty => exact blind_declare _ p.name.span

theorem Block.blind_checkReturning (m : Member) (returnType : Ty) (b : Block) :
    Scoped.Blind rev (b.checkReturning m returnType)
      ((b.revised rev).checkReturning (m.revised rev) returnType) := by
  unfold checkReturning
  rw [b.alwaysReturns_revised, m.name_revised]
  exact blind_both b.blind_check (blind_lift (Check.blind_failIf _ _ m.span))

theorem Routine.blind_check (m : Member) (returnType : Ty) (r : Routine) :
    Scoped.Blind rev (r.check m returnType) ((r.revised rev).check (m.revised rev) returnType) := by
  apply blind_within .function (.member m)
  apply blind_bind (blind_failsAt fun p _ => p.blind_check)
  intro failed
  cases failed with
  | true => exact blind_pure true
  | false => exact blind_checkOptional (Block.blind_checkReturning m returnType) r.body

namespace Member

variable (m : Member) (c : ClassDef) (r : Routine)

theorem blind_checkField (declarators : List Declarator) :
    Scoped.Blind rev (m.checkField declarators)
      ((m.revised rev).checkField (declarators.map (Declarator.revised rev))) := by
  have hvalues : (declarators.map (Declarator.revised rev)).filterMap Declarator.value =
      (declarators.filterMap Declarator.value).map (Expr.revised rev) := by
    rw [List.filterMap_map, List.map_filterMap]
    rfl
  apply blind_reading
  intro scopes
  refine Check.blind_ite (Check.blind_fail _ m.span) ?_
  apply Check.blind_bind (Check.blind_expectValueType m.declaredType)
  intro ty
  cases ty with
  | none => exact Check.blind_pure true
  | some ty =>
    dsimp only
    rw [hvalues]
    exact Check.blind_anyFails fun e _ => e.blind_checkInitializer scopes ty

theorem blind_checkMethod :
    Scoped.Blind rev (m.checkMethod c r)
      ((m.revised rev).checkMethod (c.revised rev) (r.revised rev)) := by
  apply blind_bind (blind_lift (Check.blind_expectType m.declaredType))
  intro returnType
  cases returnType with
  | none => exact blind_pure true
  | some returnType =>
    apply blind_bind (blind_lift (m.blind_checkMethodHeader c r))
    intro headerFailed
    apply blind_bind (r.blind_check m returnType)
    intro routineFailed
    exact blind_pure _

theorem blind_checkOperator :
    Scoped.Blind rev (m.checkOperator c r)
      ((m.revised rev).checkOperator (c.revised rev) (r.revised rev)) := by
  unfold checkOperator
  have hparameters : (r.revised rev).parameters = r.parameters.map (Parameter.revised rev) := rfl
  have hbody : (r.revised rev).body = r.body.map (Block.revised rev) := rfl
  rw [hparameters, hbody, List.length_map, Option.isNone_map]
  apply blind_bind (blind_lift (Check.blind_failIf _ _ r.name.span))
  intro modifierFailed
  apply blind_bind (blind_lift (Check.blind_failIf _ _ r.name.span))
  intro countFailed
  apply blind_bind (blind_lift (Check.blind_expectType m.declaredType))
  intro returnType
  cases returnType with
  | none => exact blind_pure true
  | some returnType =>
    apply blind_bind (blind_lift (Check.blind_failIf _ _ r.name.span))
    intro missingFailed
    apply blind_bind (r.blind_check m returnType)
    intro routineFailed
    exact blind_pure _

theorem blind_check : Scoped.Blind rev (m.check c) ((m.revised rev).check (c.revised rev)) := by
  obtain ⟨visibility, modifier, isStatic, declaredType, owner, span, kind⟩ := m
  cases kind with
  | field declarators => exact blind_checkField _ declarators
  | method routine => exact blind_checkMethod _ c routine
  | operator routine => exact blind_checkOperator _ c routine

end Member

end Members

namespace ClassDef

variable (c : ClassDef)

theorem blind_checkBase : Check.Blind rev c.checkBase (c.revised rev).checkBase := by
  unfold checkBase
  have hbase : (c.revised rev).base = c.base.map (Ident.revised rev) := rfl
  rw [hbase]
  cases c.base with
  | none => exact Check.blind_pure _
  | some base =>
    apply Check.blind_bind (Check.blind_resolve base.text)
    intro _
    apply Check.blind_classes_bind
    intro table
    rw [base.text_revised, table.get?_revised, table.isCyclic_revised]
    cases table.get? base.text with
    | none => exact Check.blind_refuse _ base.span
    | some parent =>
      refine Check.blind_ite (Check.blind_refuse _ c.ident.span) ?_
      apply Check.blind_bind (c.blind_checkBaseModifier base parent)
      intro failed
      exact Check.blind_pure _

theorem blind_declareInherited (field : Member × List Declarator) :
    Scoped.Blind rev (declareInherited field)
      (declareInherited (field.map (Member.revised rev) (List.map (Declarator.revised rev)))) := by
  apply blind_bind (blind_lift (Check.blind_resolve field.1.declaredType.text))
  intro ty
  cases ty with
  | none => exact blind_pure false
  | some ty => exact blind_anyFails fun d _ => blind_declare _ d.name.span

theorem blind_declareInheritedFields :
    Scoped.Blind rev c.declareInheritedFields (c.revised rev).declareInheritedFields := by
  apply blind_classes_bind
  intro table
  rw [table.ancestors_revised, ← List.map_reverse]
  refine blind_anyFails fun ancestor _ => ?_
  rw [ancestor.fields_revised]
  exact blind_anyFails fun field _ => blind_declareInherited field

theorem blind_declareOwn (field : Member × List Declarator) :
    Scoped.Blind rev (declareOwn field)
      (declareOwn (field.map (Member.revised rev) (List.map (Declarator.revised rev)))) := by
  apply blind_bind (blind_lift (Check.blind_expectValueType field.1.declaredType))
  intro ty
  cases ty with
  | none => exact blind_pure true
  | some ty => exact blind_failsAt fun d _ => blind_declare _ d.name.span

theorem blind_declareOwnFields :
    Scoped.Blind rev c.declareOwnFields (c.revised rev).declareOwnFields := by
  unfold declareOwnFields
  rw [c.fields_revised]
  exact blind_failsAt fun field _ => blind_declareOwn field

theorem blind_declareNames : Scoped.Blind rev c.declareNames (c.revised rev).declareNames := by
  apply blind_bind c.blind_declareInheritedFields
  intro inheritedFailed
  apply blind_bind (blind_declare _ c.ident.span)
  intro thisFailed
  cases thisFailed with
  | true => exact blind_pure none
  | false =>
    apply blind_bind c.blind_declareOwnFields
    intro ownFailed
    cases ownFailed <;> exact blind_pure _

theorem blind_checkBody : Scoped.Blind rev c.checkBody (c.revised rev).checkBody := by
  apply blind_bind c.blind_declareNames
  intro names
  cases names with
  | none => exact blind_pure true
  | some inheritedFailed =>
    apply blind_bind (blind_lift c.blind_checkUnique)
    intro duplicate
    cases duplicate with
    | true => exact blind_pure true
    | false =>
      refine blind_bind (blind_anyFails fun m _ => m.blind_check c) fun membersFailed => ?_
      apply blind_bind (blind_lift c.blind_checkContract)
      intro contractFailed
      exact blind_pure _

theorem blind_check : Scoped.Blind rev c.check (c.revised rev).check := by
  apply blind_bind (blind_lift (Check.blind_failIf _ _ c.ident.span))
  intro backendFailed
  apply blind_bind (blind_lift c.blind_checkBase)
  intro base
  cases base with
  | none => exact blind_pure true
  | some baseFailed =>
    apply blind_bind (blind_lift (Check.blind_failIf _ _ c.ident.span))
    intro labelFailed
    apply blind_bind (blind_within .classBody (.classDef c) c.blind_checkBody)
    intro bodyFailed
    exact blind_pure _

end ClassDef

theorem Program.blind_check (p : Program) : Check.Blind rev p.check (p.revised rev).check := by
  apply Check.blind_bind (Check.blind_registerAll p.classes)
  intro _
  refine Check.blind_anyFails fun c _ => ?_
  exact Check.blind_map_bind (c.blind_check []) fun r => Check.blind_pure r.1

end ClassLang
