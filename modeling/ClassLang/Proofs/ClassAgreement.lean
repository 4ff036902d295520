import ClassLang.Check.Class
import ClassLang.Proofs.ExprAgreement

namespace ClassLang

variable [Alphabet]

open ClassTable Mentions Scoped

variable {kin : Kinship} {known : Set Query}

section Statements

theorem Declarator.agree_check {ty : Ty} (hty : mentioned ty ⊆ known) {d : Declarator}
    (hd : Query.resolveAll d.names ⊆ known) : Scoped.Agree kin known (d.check ty) := by
  have hlast (valueFailed : Bool) : Scoped.Agree kin known (do
      let nameFailed ← Scoped.declare ⟨d.name.text, ty, true⟩ d.name.span
      return valueFailed || nameFailed) := by
    apply agree_seq (agree_declare d.name.span hty)
    intro nameFailed
    exact agree_pure (by simp)
  unfold Declarator.check
  split
  · next value hv =>
    have hvalue := Query.resolveAll_subset_of_mem hd hv
    refine agree_seq (agree_reading fun _ _ hk hs => ?_) hlast
    exact Expr.agree_checkInitializer hs (hvalue.trans hk) ty
  · exact agree_seq (agree_pure (by simp)) hlast

theorem Declaration.agree_check {d : Declaration} (hd : Query.resolveAll d.names ⊆ known) :
    Scoped.Agree kin known d.check := by
  obtain ⟨htype, hvalues⟩ := Query.resolveAll_cons_subset.mp hd
  rw [Query.resolveAll_flatMap_subset] at hvalues
  apply agree_bind (agree_lift (Check.agree_expectValueType d.typeName htype))
  intro ty more hm hty
  cases ty with
  | none => exact agree_pure (by simp)
  | some ty =>
    rw [mentioned_some] at hty
    exact agree_anyFails fun declarator hd =>
      Declarator.agree_check hty ((hvalues declarator hd).trans hm)

theorem ForInit.agree_check {init : ForInit} (hi : Query.resolveAll init.names ⊆ known) :
    Scoped.Agree kin known init.check := by
  cases init with
  | declaration d => exact Declaration.agree_check hi
  | expression e => exact agree_reading fun _ _ hk hs => Expr.agree_checkDenotes hs (hi.trans hk)

namespace Stmt

theorem agree_checkReturn {value : Option Expr}
    (hv : Query.resolveAll (value.elim [] Expr.names) ⊆ known) (span : Span)
    {scopes : ScopeStack} (hs : mentioned scopes ⊆ known) :
    Check.Agree kin known (checkReturn value span scopes) := by
  unfold checkReturn
  cases hm : scopes.currentMember? with
  | none => exact Check.agree_fail _ span
  | some m =>
    have hdeclared := hs (ScopeStack.mentioned_currentMember? hm)
    apply Check.agree_bind (Check.agree_resolve hdeclared)
    intro expected more hmore _
    cases expected with
    | none => exact Check.agree_pure (by simp)
    | some expected =>
      cases value with
      | none => exact Check.agree_failIf _ _ span
      | some e =>
        apply Check.agree_bind (e.agree_denote (hs.trans hmore) (hv.trans hmore))
        intro found wider _ hf
        cases found with
        | none => exact Check.agree_pure (by simp)
        | some found =>
          rw [mentioned_some] at hf
          apply Check.agree_classes_bind
          intro table other ht hk
          have he : found.valueType?.any (fun ty => other.isAssignable ty expected) =
              found.valueType?.any (fun ty => table.isAssignable ty expected) := by
            cases hv : found.valueType? with
            | none => rfl
            | some ty =>
              have hty := ((mentioned_valueType? hv).trans hf).trans hk
              simp only [Option.any_some, Kinship.isAssignable ht hty]
          rw [he]
          exact Check.agree_failIf _ _ e.span ht hk

theorem agree_condition {e : Expr} (he : Query.resolveAll e.names ⊆ known) :
    Scoped.Agree kin known (Scoped.reading e.checkCondition) :=
  agree_reading fun _ _ hk hs => Expr.agree_checkCondition hs (he.trans hk)

theorem agree_denotes {e : Expr} (he : Query.resolveAll e.names ⊆ known) :
    Scoped.Agree kin known (Scoped.reading e.checkDenotes) :=
  agree_reading fun _ _ hk hs => Expr.agree_checkDenotes hs (he.trans hk)

theorem agree_inCode {kind : ScopeKind} {c : Scoped Bool} (h : Scoped.Agree kin known c) :
    Scoped.Agree kin known (Scoped.within kind .code c) := agree_within (Set.empty_subset _) h

mutual

theorem agree_check (s : Stmt) (h : Query.resolveAll s.names ⊆ known) :
    Scoped.Agree kin known s.check := by
  cases s with
  | block statements span => exact agree_inCode (agree_checkAll statements h)
  | continueLoop span => exact agree_reading fun _ _ _ _ => Check.agree_failIf _ _ span
  | breakLoop span => exact agree_reading fun _ _ _ _ => Check.agree_failIf _ _ span
  | ret value span =>
    exact agree_reading fun _ _ hk hs => agree_checkReturn (h.trans hk) span hs
  | declaration d => exact Declaration.agree_check h
  | whileLoop condition body span =>
    obtain ⟨hcondition, hbody⟩ := Query.resolveAll_append_subset.mp h
    exact agree_both (agree_condition hcondition) (agree_inCode (body.agree_check hbody))
  | doLoop body condition span =>
    obtain ⟨hcondition, hbody⟩ := Query.resolveAll_append_subset.mp h
    exact agree_both (agree_inCode (body.agree_check hbody)) (agree_condition hcondition)
  | ifThen condition thenBranch span =>
    obtain ⟨hcondition, hthen⟩ := Query.resolveAll_append_subset.mp h
    exact agree_both (agree_condition hcondition) (agree_inCode (thenBranch.agree_check hthen))
  | ifElse condition thenBranch elseBranch span =>
    obtain ⟨hcondition, hbranches⟩ := Query.resolveAll_append_subset.mp h
    obtain ⟨hthen, helse⟩ := Query.resolveAll_append_subset.mp hbranches
    apply agree_seq (agree_condition hcondition)
    intro conditionFailed
    apply agree_seq (agree_inCode (thenBranch.agree_check hthen))
    intro thenFailed
    apply agree_seq (agree_inCode (elseBranch.agree_check helse))
    intro elseFailed
    exact agree_pure (by simp)
  | forLoop init condition step body span =>
    obtain ⟨hinit, hrest⟩ := Query.resolveAll_append_subset.mp h
    obtain ⟨hcondition, hrest⟩ := Query.resolveAll_append_subset.mp hrest
    obtain ⟨hstep, hbody⟩ := Query.resolveAll_append_subset.mp hrest
    apply agree_inCode
    apply agree_seq (agree_checkOptional fun i hi =>
      ForInit.agree_check (Query.resolveAll_subset_of_mem hinit hi))
    intro initFailed
    apply agree_seq (agree_checkOptional fun e he =>
      agree_condition (Query.resolveAll_subset_of_mem hcondition he))
    intro conditionFailed
    apply agree_seq (agree_checkOptional fun e he =>
      agree_denotes (Query.resolveAll_subset_of_mem hstep he))
    intro stepFailed
    apply agree_seq (body.agree_check hbody)
    intro bodyFailed
    exact agree_pure (by simp)
  | expression e span => exact agree_denotes h

theorem agree_checkAll (statements : List Stmt)
    (h : Query.resolveAll (allNames statements) ⊆ known) :
    Scoped.Agree kin known (checkAll statements) := by
  cases statements with
  | nil => exact agree_pure (by simp)
  | cons s rest =>
    obtain ⟨hfirst, hrest⟩ := Query.resolveAll_append_subset.mp h
    apply agree_seq (s.agree_check hfirst)
    intro failed
    split
    · cases rest with
      | nil => exact agree_pure (by simp)
      | cons next rest => exact agree_lift (Check.agree_fail _ next.span)
    · apply agree_seq (agree_checkAll rest hrest)
      intro restFailed
      exact agree_pure (by simp)

end

end Stmt

end Statements

section Members

theorem Parameter.agree_check {p : Parameter} (hp : .resolve p.typeName.text ∈ known) :
    Scoped.Agree kin known p.check := by
  apply agree_bind (agree_lift (Check.agree_expectValueType p.typeName hp))
  intro ty more _ hty
  cases ty with
  | none => exact agree_pure (by simp)
  | some ty =>
    rw [mentioned_some] at hty
    exact agree_declare p.name.span hty

theorem Block.agree_checkReturning (m : Member) (returnType : Ty) {b : Block}
    (hb : Query.resolveAll b.names ⊆ known) :
    Scoped.Agree kin known (b.checkReturning m returnType) :=
  agree_both (b.toStmt.agree_check hb) (agree_lift (Check.agree_failIf _ _ m.span))

theorem Routine.agree_check {m : Member} {r : Routine} (hr : m.routine? = some r)
    (hm : Query.resolveAll m.signature ⊆ known)
    (hb : Query.resolveAll (r.body.elim [] Block.names) ⊆ known) (returnType : Ty) :
    Scoped.Agree kin known (r.check m returnType) := by
  obtain ⟨hdeclared, hparameters⟩ := Query.resolveAll_cons_subset.mp hm
  have htypes : ∀ p ∈ r.parameters, .resolve p.typeName.text ∈ known := by
    simpa [Member.parameterTypes, Member.parameters, hr] using hparameters
  apply agree_within (Set.singleton_subset_iff.mpr hdeclared)
  apply agree_seq (agree_failsAt fun p hp => Parameter.agree_check (htypes p hp))
  intro failed
  cases failed with
  | true => exact agree_pure (by simp)
  | false =>
    exact agree_checkOptional fun b hmem =>
      Block.agree_checkReturning m returnType (Query.resolveAll_subset_of_mem hb hmem)

namespace Member

variable {m : Member}

theorem agree_checkField {declarators : List Declarator}
    (hm : .resolve m.declaredType.text ∈ known)
    (hd : Query.resolveAll (declarators.flatMap Declarator.names) ⊆ known) :
    Scoped.Agree kin known (m.checkField declarators) := by
  rw [Query.resolveAll_flatMap_subset] at hd
  apply agree_reading
  intro more scopes hk hs
  split
  · exact Check.agree_fail _ m.span
  · apply Check.agree_bind (Check.agree_expectValueType m.declaredType (hk hm))
    intro ty wider hw _
    cases ty with
    | none => exact Check.agree_pure (by simp)
    | some ty =>
      refine Check.agree_anyFails fun e he => ?_
      obtain ⟨d, hmem, hv⟩ := List.mem_filterMap.mp he
      have hvalue := Query.resolveAll_subset_of_mem (hd d hmem) hv
      exact Expr.agree_checkInitializer (hs.trans hw) ((hvalue.trans hk).trans hw) ty

variable {c : ClassDef} {r : Routine}

theorem agree_checkMethodHeader (hb : ∀ base ∈ c.baseName?, .find base ∈ known) (m : Member)
    (r : Routine) : Check.Agree kin known (m.checkMethodHeader c r) := by
  apply Check.agree_seq (Check.agree_failIf _ _ r.name.span)
  intro staticFailed
  apply Check.agree_seq (Check.agree_failIf _ _ r.name.span)
  intro placeFailed
  apply Check.agree_seq (Check.agree_failIf _ _ r.name.span)
  intro surplusFailed
  apply Check.agree_seq (Check.agree_failIf _ _ r.name.span)
  intro missingFailed
  apply Check.agree_classes_bind
  intro table other ht hk
  rw [(Kinship.sameOn ht).hasOverridable fun base hbase => hk (hb base hbase)]
  refine (?_ : Check.Agree kin known _) ht hk
  apply Check.agree_seq (Check.agree_failIf _ _ r.name.span)
  intro overrideFailed
  exact Check.agree_pure (by simp)

theorem agree_checkMethod (hb : ∀ base ∈ c.baseName?, .find base ∈ known)
    (hr : m.routine? = some r) (hm : Query.resolveAll m.signature ⊆ known)
    (hbody : Query.resolveAll (r.body.elim [] Block.names) ⊆ known) :
    Scoped.Agree kin known (m.checkMethod c r) := by
  have hdeclared := (Query.resolveAll_cons_subset.mp hm).1
  apply agree_seq (agree_lift (Check.agree_expectType m.declaredType hdeclared))
  intro returnType
  cases returnType with
  | none => exact agree_pure (by simp)
  | some returnType =>
    apply agree_seq (agree_lift (agree_checkMethodHeader hb m r))
    intro headerFailed
    apply agree_seq (Routine.agree_check hr hm hbody returnType)
    intro routineFailed
    exact agree_pure (by simp)

theorem agree_checkOperator (c : ClassDef) (hr : m.routine? = some r)
    (hm : Query.resolveAll m.signature ⊆ known)
    (hbody : Query.resolveAll (r.body.elim [] Block.names) ⊆ known) :
    Scoped.Agree kin known (m.checkOperator c r) := by
  have hdeclared := (Query.resolveAll_cons_subset.mp hm).1
  apply agree_seq (agree_lift (Check.agree_failIf _ _ r.name.span))
  intro modifierFailed
  apply agree_seq (agree_lift (Check.agree_failIf _ _ r.name.span))
  intro countFailed
  apply agree_seq (agree_lift (Check.agree_expectType m.declaredType hdeclared))
  intro returnType
  cases returnType with
  | none => exact agree_pure (by simp)
  | some returnType =>
    apply agree_seq (agree_lift (Check.agree_failIf _ _ r.name.span))
    intro missingFailed
    apply agree_seq (Routine.agree_check hr hm hbody returnType)
    intro routineFailed
    exact agree_pure (by simp)

theorem agree_check (hb : ∀ base ∈ c.baseName?, .find base ∈ known)
    (hm : Query.resolveAll m.names ⊆ known) : Scoped.Agree kin known (m.check c) := by
  obtain ⟨hsignature, hrest⟩ := Query.resolveAll_append_subset.mp hm
  unfold Member.check
  split
  · next declarators hk =>
    rw [hk] at hrest
    exact agree_checkField (Query.resolveAll_cons_subset.mp hsignature).1 hrest
  · next routine hk =>
    rw [hk] at hrest
    exact agree_checkMethod hb (by rw [routine?, hk]) hsignature hrest
  · next routine hk =>
    rw [hk] at hrest
    exact agree_checkOperator c (by rw [routine?, hk]) hsignature hrest

end Member

end Members

namespace ClassDef

variable {c : ClassDef}

theorem agree_checkUnique (c : ClassDef) : Check.Agree kin known c.checkUnique := by
  unfold checkUnique
  split
  · exact Check.agree_fail _ _
  · exact Check.agree_pure (by simp)

theorem agree_checkBaseModifier (c : ClassDef) (base : Ident) (parent : ClassDef) :
    Check.Agree kin known (c.checkBaseModifier base parent) := by
  unfold checkBaseModifier
  split
  · exact Check.agree_fail _ base.span
  · exact Check.agree_failIf _ _ base.span

theorem agree_checkBase (hq : c.queries ⊆ known) : Check.Agree kin known c.checkBase := by
  have hb := find_base_of_queries hq
  unfold checkBase
  split
  · exact Check.agree_pure (by simp)
  · next base hbase =>
    have hn : base.text ∈ c.baseName? := by rw [baseName?, hbase]; rfl
    apply Check.agree_seq (Check.agree_resolve (resolve_base_of_queries hq base.text hn))
    intro _
    apply Check.agree_classes_bind
    intro table other ht hk
    rw [kin.get?_eq ht (hk (hb base.text hn)),
      (Kinship.sameOn ht).isCyclic fun base hbase => hk (hb base hbase)]
    refine (?_ : Check.Agree kin known _) ht hk
    split
    · exact Check.agree_refuse _ base.span
    · split
      · exact Check.agree_refuse _ c.ident.span
      · apply Check.agree_seq (c.agree_checkBaseModifier base _)
        intro failed
        exact Check.agree_pure (by simp)

theorem agree_declareInherited {field : Member × List Declarator}
    (hf : .resolve field.1.declaredType.text ∈ known) :
    Scoped.Agree kin known (declareInherited field) := by
  apply agree_bind (agree_lift (Check.agree_resolve hf))
  intro ty more _ hty
  cases ty with
  | none => exact agree_pure (by simp)
  | some ty =>
    rw [mentioned_some] at hty
    exact agree_anyFails fun d _ => agree_declare d.name.span hty

theorem agree_declareInheritedFields (hb : ∀ base ∈ c.baseName?, .find base ∈ known) :
    Scoped.Agree kin known c.declareInheritedFields := by
  apply agree_classes_bind
  intro table other ht hk
  have hbase (base : String) (h : base ∈ c.baseName?) := hk (hb base h)
  rw [(Kinship.sameOn ht).ancestors hbase]
  refine ⟨rfl, agree_anyFails fun ancestor ha => agree_anyFails fun field hf => ?_⟩
  have hexposed := Kinship.exposed_of_mem_ancestors ht hbase (List.mem_reverse.mp ha)
  have hsignature := signature_exposed (mem_fields.mp hf).1
  exact agree_declareInherited (hexposed (hsignature ⟨_, List.mem_cons_self, rfl⟩))

theorem agree_declareOwn {field : Member × List Declarator}
    (hf : .resolve field.1.declaredType.text ∈ known) :
    Scoped.Agree kin known (declareOwn field) := by
  apply agree_bind (agree_lift (Check.agree_expectValueType field.1.declaredType hf))
  intro ty more _ hty
  cases ty with
  | none => exact agree_pure (by simp)
  | some ty =>
    rw [mentioned_some] at hty
    exact agree_failsAt fun d _ => agree_declare d.name.span hty

theorem agree_declareNames (hq : c.queries ⊆ known) : Scoped.Agree kin known c.declareNames := by
  apply agree_seq (agree_declareInheritedFields (find_base_of_queries hq))
  intro inheritedFailed
  have hthis := Set.singleton_subset_iff.mpr (find_name_of_queries hq)
  apply agree_seq (agree_declare c.ident.span hthis)
  intro thisFailed
  cases thisFailed with
  | true => exact agree_pure (by simp)
  | false =>
    apply agree_seq (agree_failsAt fun field hf =>
      agree_declareOwn (declaredType_of_queries hq (mem_fields.mp hf).1))
    intro ownFailed
    cases ownFailed <;> exact agree_pure (by simp)

theorem agree_checkImplements (c : ClassDef) (required : Member) :
    Check.Agree kin known (c.checkImplements required) := by
  unfold checkImplements
  split
  · exact Check.agree_fail _ c.ident.span
  · exact Check.agree_failIf _ _ _

theorem agree_checkContract (hb : ∀ base ∈ c.baseName?, .find base ∈ known) :
    Check.Agree kin known c.checkContract := by
  unfold checkContract
  split
  · apply Check.agree_classes_bind
    intro table other ht hk
    rw [(Kinship.sameOn ht).ancestors fun base hbase => hk (hb base hbase)]
    exact Check.agree_anyFails (fun required _ => c.agree_checkImplements required) ht hk
  · exact Check.agree_pure (by simp)

theorem agree_checkBody (hq : c.queries ⊆ known) : Scoped.Agree kin known c.checkBody := by
  have hb := find_base_of_queries hq
  apply agree_seq (agree_declareNames hq)
  intro names
  cases names with
  | none => exact agree_pure (by simp)
  | some inheritedFailed =>
    apply agree_seq (agree_lift c.agree_checkUnique)
    intro duplicate
    cases duplicate with
    | true => exact agree_pure (by simp)
    | false =>
      apply agree_seq (agree_anyFails fun m hm =>
        Member.agree_check hb (member_names_of_queries hq hm))
      intro membersFailed
      apply agree_seq (agree_lift (agree_checkContract hb))
      intro contractFailed
      exact agree_pure (by simp)

theorem agree_check (hq : c.queries ⊆ known) : Scoped.Agree kin known c.check := by
  apply agree_seq (agree_lift (Check.agree_failIf _ _ c.ident.span))
  intro backendFailed
  apply agree_seq (agree_lift (agree_checkBase hq))
  intro base
  cases base with
  | none => exact agree_pure (by simp)
  | some baseFailed =>
    apply agree_seq (agree_lift (Check.agree_failIf _ _ c.ident.span))
    intro labelFailed
    have howner := Set.singleton_subset_iff.mpr (find_name_of_queries hq)
    apply agree_seq (agree_within howner (agree_checkBody hq))
    intro bodyFailed
    exact agree_pure (by simp)

end ClassDef

end ClassLang
