import ClassLang.Proofs.Factoring

namespace ClassLang

variable {α β : Type}

theorem Check.toRun_registerAll (classes : List ClassDef) :
    (registerAll classes).toRun = forIn classes () fun c _ => do
      Run.register c
      return .yield () := by
  induction classes with
  | nil =>
    funext ctx
    simp [toRun, registerAll, Context.run, ClassTable.registerAll]
    rfl
  | cons c classes ih =>
    simp only [List.forIn_cons, bind_assoc, pure_bind]
    rw [← ih]
    rfl

namespace Scoped

def toRun (c : Scoped α) : ScopedRun α := fun scopes => (c scopes).toRun

theorem toRun_pure (a : α) : toRun (pure a) = pure a := by
  funext scopes
  exact Check.toRun_pure (a, scopes)

theorem toRun_bind (c : Scoped α) (f : α → Scoped β) :
    toRun (c >>= f) = toRun c >>= fun a => toRun (f a) := by
  funext scopes
  exact Check.toRun_bind (c scopes) fun result => f result.1 result.2

theorem toRun_lift (c : Check α) : toRun (liftM c) = liftM c.toRun := by
  funext scopes
  have hbind := Check.toRun_bind c fun a => pure (a, scopes)
  simp only [Check.toRun_pure] at hbind
  exact hbind

theorem toRun_reading (c : ScopeStack → Check α) :
    toRun (reading c) = get >>= fun scopes => liftM (c scopes).toRun := by
  funext scopes
  have hbind := Check.toRun_bind (c scopes) fun a => pure (a, scopes)
  simp only [Check.toRun_pure] at hbind
  exact hbind

theorem toRun_declare (v : Variable) (span : Span) :
    toRun (declare v span) = ScopedRun.declare v span := by
  funext scopes
  change _ = (ScopedRun.declare v span).run scopes
  rw [toRun, declare, ScopedRun.declare, StateT.run_bind, StateT.run_get, pure_bind]
  cases scopes.declare v with
  | ok inner => exact Check.toRun_pure _
  | error problem =>
    simp only [Check.toRun_bind, Check.toRun_fail, Check.toRun_pure]
    rfl

theorem toRun_within (kind : ScopeKind) (owner : ScopeOwner) (c : Scoped α) :
    toRun (within kind owner c) = ScopedRun.within kind owner (toRun c) := by
  funext scopes
  unfold toRun within ScopedRun.within
  simp only [Check.toRun_bind, Check.toRun_pure]
  rfl

theorem run_reading (c : ScopeStack → Check α) (scopes : ScopeStack) :
    (reading c).run scopes = do return (← c scopes, scopes) := rfl

theorem reading_bind (c : Check α) (f : ScopeStack → α → Check β) :
    reading (fun scopes => c >>= f scopes) =
      (liftM c >>= fun a => reading fun scopes => f scopes a) := by
  funext scopes
  change StateT.run (reading _) scopes = StateT.run _ scopes
  simp only [run_reading, StateT.run_bind, StateT.run_monadLift, monadLift_self, bind_assoc,
    pure_bind]

/-- To look at the scopes once is as good as to look at them before each item. -/
theorem reading_anyFails (f : ScopeStack → α → Check Bool) (items : List α) :
    reading (fun scopes => anyFails (f scopes) items) =
      anyFails (fun a => reading fun scopes => f scopes a) items := by
  induction items with
  | nil => rfl
  | cons a items ih =>
    rw [anyFails, ← ih]
    funext scopes
    change StateT.run (reading _) scopes = StateT.run _ scopes
    simp only [StateT.run_bind, StateT.run_pure, run_reading, anyFails, bind_assoc, pure_bind]

theorem toRun_anyFails (f : α → Scoped Bool) (items : List α) :
    toRun (anyFails f items) = anyFails (fun a => toRun (f a)) items := by
  induction items with
  | nil => exact toRun_pure false
  | cons a items ih => simp only [anyFails, toRun_bind, toRun_pure, ih]

theorem toRun_failsAt (f : α → Scoped Bool) (items : List α) :
    toRun (failsAt f items) = failsAt (fun a => toRun (f a)) items := by
  induction items with
  | nil => exact toRun_pure false
  | cons a items ih =>
    rw [failsAt, failsAt, toRun_bind]
    refine bind_congr fun failed => ?_
    cases failed with
    | true => exact toRun_pure true
    | false => exact ih

end Scoped

theorem Stmt.toRun_checkInLoop (keyword : String) (span : Span) (scopes : ScopeStack) :
    (checkInLoop keyword span scopes).toRun = examineInLoop keyword span scopes :=
  Check.toRun_failIf _ _ span

namespace ClassDef

theorem toRun_checkContract (c : ClassDef) (h : (c.base.isSome && c.modifier != .abstract) = true) :
    c.checkContract.toRun = c.examineContract := by
  rw [checkContract, if_pos h, examineContract, Check.toRun_bind, Check.toRun_classes]
  refine bind_congr fun table => ?_
  rw [Check.toRun_anyFails, anyFails_flatMap, forIn_eq_anyFails fun ancestor =>
    anyFails (fun required => (c.checkImplements required).toRun) ancestor.abstractMethods]
  · simp
  intro ancestor failed
  dsimp only
  rw [forIn_eq_anyFails fun required => (c.checkImplements required).toRun]
  · simp
  intro required failed
  unfold checkImplements
  generalize c.methods.find? _ = found
  cases found with
  | none => simp [Check.toRun_fail]
  | some found =>
    obtain ⟨m, routine⟩ := found
    simp only [Check.toRun_failIf]
    cases m.modifier != .override with
    | true => simp [Run.failIf]
    | false => simp [Run.failIf]

theorem toRun_firstDuplicate (keys : List (MemberKey × Ident)) (seen : List MemberKey) :
    Check.toRun (match firstDuplicate? seen keys with
      | some name => Check.fail (.itemAlreadyDefined name.text) name.span
      | none => return false) = (do
      let mut seen := seen
      for (key, name) in keys do
        if key ∈ seen then
          Run.report (.itemAlreadyDefined name.text) name.span
          return true
        seen := key :: seen
      return false) := by
  induction keys generalizing seen with
  | nil => simp [firstDuplicate?, Check.toRun_pure]
  | cons entry keys ih =>
    obtain ⟨key, name⟩ := entry
    by_cases h : key ∈ seen
    · simp only [firstDuplicate?, List.forIn_cons, h, if_true, Check.toRun_fail, bind_assoc,
        pure_bind]
    · simp only [firstDuplicate?, List.forIn_cons, h, if_false, pure_bind]
      exact ih (key :: seen)

theorem toRun_checkUnique (c : ClassDef) : c.checkUnique.toRun = c.examineUnique :=
  toRun_firstDuplicate c.memberKeys []

end ClassDef

variable [Alphabet]

namespace Expr

open Check

theorem toRun_checkInitializer (scopes : ScopeStack) (declared : Ty) (e : Expr) :
    (e.checkInitializer scopes declared).toRun = e.examineInitializer scopes declared := by
  rw [checkInitializer, examineInitializer, toRun_bind, toRun_denote]
  refine bind_congr fun meaning => ?_
  match meaning with
  | none => exact toRun_pure true
  | some (.typeName _) | some (.method ..) => exact toRun_fail _ _
  | some (.value ty _) =>
    simp only [toRun_bind, toRun_classes, toRun_failIf]
    refine bind_congr fun table => ?_
    cases table.isAssignable ty declared with
    | true => rfl
    | false => rfl

theorem toRun_checkCondition (scopes : ScopeStack) (e : Expr) :
    (e.checkCondition scopes).toRun = e.examineCondition scopes := by
  rw [checkCondition, examineCondition, toRun_bind, toRun_denote]
  refine bind_congr fun meaning => ?_
  cases meaning with
  | none => exact toRun_pure true
  | some found =>
    simp only [toRun_failIf, bne]
    cases found.valueType? == some .bool with
    | true => rfl
    | false => rfl

theorem toRun_checkDenotes (scopes : ScopeStack) (e : Expr) :
    (e.checkDenotes scopes).toRun = do return (← e.examine scopes).isNone := by
  simp only [checkDenotes, toRun_bind, toRun_pure, toRun_denote]

end Expr

open Scoped

theorem Declaration.toRun_check (d : Declaration) : d.check.toRun = d.examine := by
  rw [check, examine, toRun_bind, toRun_lift, Check.toRun_expectValueType]
  refine bind_congr fun ty => ?_
  cases ty with
  | none => exact toRun_pure true
  | some ty =>
    dsimp only
    rw [toRun_anyFails, forIn_eq_anyFails fun declarator => toRun (declarator.check ty)]
    · simp
    intro declarator failed
    rw [Declarator.check]
    cases declarator.value with
    | none =>
      simp only [toRun_bind, toRun_pure, toRun_declare, bind_assoc, pure_bind, Bool.false_or]
    | some value =>
      simp only [toRun_bind, toRun_pure, toRun_declare, toRun_reading,
        Expr.toRun_checkInitializer, bind_assoc, pure_bind, Bool.or_assoc]

theorem ForInit.toRun_check (init : ForInit) : init.check.toRun = init.examine := by
  cases init with
  | declaration d => exact d.toRun_check
  | expression e =>
    simp only [check, examine, toRun_reading, Expr.toRun_checkDenotes]
    simp

namespace Stmt

theorem toRun_checkReturn (value : Option Expr) (span : Span) (scopes : ScopeStack) :
    (checkReturn value span scopes).toRun = examineReturn value span scopes := by
  unfold checkReturn examineReturn
  cases scopes.currentMember? with
  | none => exact Check.toRun_fail _ _
  | some m =>
    simp only [Check.toRun_bind, Check.toRun_resolve]
    refine bind_congr fun expected => ?_
    cases expected with
    | none => exact Check.toRun_pure true
    | some expected =>
      cases value with
      | none => exact Check.toRun_failIf _ _ span
      | some value =>
        simp only [Check.toRun_bind, Expr.toRun_denote]
        refine bind_congr fun found => ?_
        cases found with
        | none => exact Check.toRun_pure true
        | some found =>
          simp only [Check.toRun_bind, Check.toRun_classes, Check.toRun_failIf]
          cases found.valueType? with
          | none => simp; rfl
          | some ty =>
            refine bind_congr fun table => ?_
            rw [Option.any_some]
            cases !expected.isVoid && table.isAssignable ty expected with
            | true => rfl
            | false => rfl

mutual

theorem toRun_check (s : Stmt) : s.check.toRun = s.examine := by
  cases s with
  | block statements span =>
    rw [check, examine, toRun_within, examineAll_eq statements false]
    simp
  | continueLoop span =>
    rw [check, examine, toRun_reading]
    simp only [toRun_checkInLoop]
  | breakLoop span =>
    rw [check, examine, toRun_reading]
    simp only [toRun_checkInLoop]
  | ret value span =>
    rw [check, examine, toRun_reading]
    simp only [toRun_checkReturn]
  | declaration d => exact d.toRun_check
  | whileLoop condition body span =>
    simp only [check, examine, toRun_bind, toRun_pure, toRun_reading, toRun_within,
      Expr.toRun_checkCondition, toRun_check body, bind_assoc]
  | doLoop body condition span =>
    simp only [check, examine, toRun_bind, toRun_pure, toRun_reading, toRun_within,
      Expr.toRun_checkCondition, toRun_check body, bind_assoc]
  | ifThen condition thenBranch span =>
    simp only [check, examine, toRun_bind, toRun_pure, toRun_reading, toRun_within,
      Expr.toRun_checkCondition, toRun_check thenBranch, bind_assoc]
  | ifElse condition thenBranch elseBranch span =>
    simp only [check, examine, toRun_bind, toRun_pure, toRun_reading, toRun_within,
      Expr.toRun_checkCondition, toRun_check thenBranch, toRun_check elseBranch, bind_assoc]
  | forLoop init condition step body span =>
    rw [check, examine, toRun_within]
    congr 1
    cases init <;> cases condition <;> cases step <;>
      simp only [checkOptional, toRun_bind, toRun_pure, toRun_reading, ForInit.toRun_check,
        Expr.toRun_checkCondition, Expr.toRun_checkDenotes, toRun_check body, bind_assoc, pure_bind,
        Bool.false_or, Bool.or_false, monadLift_bind, monadLift_pure]
  | expression e span =>
    rw [check, examine, toRun_reading]
    simp only [Expr.toRun_checkDenotes]
    simp

/-- The loop over the statements of a block, as long as it can go on. -/
theorem examineAll_eq (statements : List Stmt) (failed : Bool) :
    examineAll failed false statements = do return failed || (← (checkAll statements).toRun) := by
  cases statements with
  | nil => simp [examineAll, checkAll, toRun_pure]
  | cons s rest =>
    simp only [examineAll, checkAll, toRun_bind, toRun_check s, bind_assoc]
    refine bind_congr fun statementFailed => ?_
    cases s.alwaysReturns with
    | false => simp only [examineAll_eq rest, Bool.false_eq_true, if_false, toRun_bind, toRun_pure,
        bind_assoc, pure_bind, Bool.or_assoc]
    | true =>
      cases rest with
      | nil => simp [examineAll, toRun_pure]
      | cons next rest => simp [examineAll, toRun_lift, Check.toRun_fail]

end

end Stmt

theorem Block.toRun_check (b : Block) : b.check.toRun = b.examine := b.toStmt.toRun_check

theorem Routine.toRun_check (m : Member) (returnType : Ty) (r : Routine) :
    (r.check m returnType).toRun = r.examine m returnType := by
  rw [check, examine, toRun_within]
  congr 1
  rw [toRun_bind, toRun_failsAt,
    forIn_eq_failsAt fun parameter => toRun (Parameter.check parameter)]
  · simp only [bind_assoc]
    refine bind_congr fun failed => ?_
    cases failed with
    | true => simp [toRun_pure]
    | false =>
      cases r.body with
      | none => simp [checkOptional, toRun_pure]
      | some body => simp only [checkOptional, Block.checkReturning, toRun_bind, Block.toRun_check,
          toRun_lift, Check.toRun_failIf, toRun_pure, Bool.false_eq_true, if_false, pure_bind]
  · intro parameter state
    rw [Parameter.check, toRun_bind, toRun_lift, Check.toRun_expectValueType, bind_assoc]
    refine bind_congr fun ty => ?_
    cases ty with
    | none => simp [toRun_pure]
    | some ty => simp [toRun_declare]

namespace Member

theorem toRun_checkField (m : Member) (declarators : List Declarator) :
    (m.checkField declarators).toRun = m.examineField declarators := by
  have hloop (ty : Ty) :
      reading (fun scopes =>
        anyFails (Expr.checkInitializer scopes ty) (declarators.filterMap Declarator.value)) =
      anyFails (fun d => (d.value.elim (pure false) fun value =>
        reading fun scopes => value.checkInitializer scopes ty)) declarators := by
    rw [reading_anyFails, anyFails_filterMap]
  unfold checkField examineField
  cases m.modifier != .normal with
  | true =>
    simp only [if_true, toRun_reading, Check.toRun_fail]
    rfl
  | false =>
    simp only [Bool.false_eq_true, if_false]
    rw [reading_bind, toRun_bind, toRun_lift, Check.toRun_expectValueType]
    refine bind_congr fun ty => ?_
    cases ty with
    | none => exact toRun_pure true
    | some ty =>
      simp only [hloop]
      rw [toRun_anyFails, forIn_eq_anyFails fun d => toRun (d.value.elim (pure false) fun value =>
        reading fun scopes => value.checkInitializer scopes ty)]
      · simp
      intro d failed
      cases d.value with
      | none => simp [toRun_pure]
      | some value => simp [toRun_reading, Expr.toRun_checkInitializer]

theorem toRun_checkMethod (c : ClassDef) (m : Member) (r : Routine) :
    (m.checkMethod c r).toRun = m.examineMethod c r := by
  rw [checkMethod, examineMethod, toRun_bind, toRun_lift, Check.toRun_expectType]
  refine bind_congr fun returnType => ?_
  cases returnType with
  | none => exact toRun_pure true
  | some returnType =>
    simp only [checkMethodHeader, toRun_bind, toRun_lift, Check.toRun_failIf,
      Check.toRun_classes, Routine.toRun_check, toRun_pure, bind_assoc, pure_bind,
      monadLift_bind, monadLift_pure, Bool.or_assoc]

theorem toRun_checkOperator (c : ClassDef) (m : Member) (r : Routine) :
    (m.checkOperator c r).toRun = m.examineOperator c r := by
  simp only [checkOperator, examineOperator, toRun_bind, toRun_lift, Check.toRun_failIf,
    Check.toRun_expectType]
  refine bind_congr fun modifierFailed => bind_congr fun countFailed =>
    bind_congr fun returnType => ?_
  cases returnType with
  | none => exact toRun_pure true
  | some returnType => simp only [toRun_bind, toRun_lift, Check.toRun_failIf, Routine.toRun_check,
      toRun_pure]

theorem toRun_check (c : ClassDef) (m : Member) : (m.check c).toRun = m.examine c := by
  unfold check examine
  cases m.kind with
  | field declarators => exact m.toRun_checkField declarators
  | method routine => exact m.toRun_checkMethod c routine
  | operator routine => exact m.toRun_checkOperator c routine

end Member

namespace ClassDef

theorem toRun_declareInheritedFields (c : ClassDef) :
    c.declareInheritedFields.toRun = c.examineInheritedFields := by
  rw [declareInheritedFields, examineInheritedFields, toRun_bind, toRun_lift, Check.toRun_classes]
  refine bind_congr fun table => ?_
  rw [toRun_anyFails, forIn_eq_anyFails fun ancestor =>
    toRun (anyFails declareInherited ancestor.fields)]
  · simp
  intro ancestor failed
  dsimp only
  rw [toRun_anyFails, forIn_eq_anyFails fun field => toRun (declareInherited field)]
  · simp
  intro field failed
  rw [declareInherited, toRun_bind, toRun_lift, Check.toRun_resolve, bind_assoc]
  refine bind_congr fun ty => ?_
  cases ty with
  | none => simp [toRun_pure]
  | some ty =>
    dsimp only
    rw [toRun_anyFails, forIn_eq_anyFails fun d : Declarator =>
      toRun (declare ⟨d.name.text, ty, true⟩ d.name.span)]
    · simp
    intro d failed
    rw [toRun_declare]

theorem toRun_declareOwnFields (c : ClassDef) :
    c.declareOwnFields.toRun = c.examineOwnFields := by
  rw [declareOwnFields, examineOwnFields, toRun_failsAt,
    forIn_eq_failsAt fun field => toRun (declareOwn field), bind_assoc, ← bind_pure (failsAt _ _)]
  · refine bind_congr fun failed => ?_
    cases failed with
    | true => simp
    | false => simp
  intro field state
  rw [declareOwn, toRun_bind, toRun_lift, Check.toRun_expectValueType, bind_assoc]
  refine bind_congr fun ty => ?_
  cases ty with
  | none => simp [toRun_pure]
  | some ty =>
    dsimp only
    rw [toRun_failsAt, forIn_eq_failsAt fun d : Declarator =>
      toRun (declare ⟨d.name.text, ty, true⟩ d.name.span), bind_assoc]
    · refine bind_congr fun failed => ?_
      cases failed with
      | true => simp
      | false => simp
    intro d failed
    rw [toRun_declare]

theorem toRun_members_bind (c : ClassDef) (failed inheritedFailed : Bool) : (do
      let mut failed := failed || inheritedFailed
      for m in c.members do
        failed := failed || (← m.examine c)
      if c.base.isSome && c.modifier != .abstract then
        failed := failed || (← c.examineContract)
      return failed) = (do
      return failed || (← toRun (do
        let membersFailed ← anyFails (Member.check c) c.members
        let contractFailed ← c.checkContract
        return inheritedFailed || membersFailed || contractFailed))) := by
  simp only [toRun_bind, toRun_anyFails, toRun_lift, toRun_pure, bind_assoc, pure_bind]
  rw [forIn_eq_anyFails fun m => toRun (m.check c)]
  · simp only [bind_assoc, pure_bind]
    refine bind_congr fun membersFailed => ?_
    by_cases h : (c.base.isSome && c.modifier != .abstract) = true
    · rw [if_pos h, c.toRun_checkContract h]
      simp only [Bool.or_assoc]
    · rw [if_neg h, checkContract, if_neg h, Check.toRun_pure]
      simp [Bool.or_assoc]
  · intro m failed
    rw [m.toRun_check]

/-- Each of the declarations may end the check of a class, and so may a name that is not unique. -/
theorem examineBody_eq (c : ClassDef) (failed : Bool) :
    c.examineBody failed = do return failed || (← c.checkBody.toRun) := by
  simp only [examineBody, checkBody, declareNames, declareThis, toRun_bind,
    toRun_declareInheritedFields, toRun_declare, bind_assoc]
  refine bind_congr fun inheritedFailed => bind_congr fun thisFailed => ?_
  cases thisFailed with
  | true => simp [toRun_pure]
  | false =>
    simp only [Bool.false_eq_true, if_false, toRun_bind, toRun_declareOwnFields, bind_assoc]
    refine bind_congr fun ownFailed => ?_
    cases ownFailed with
    | true => simp [toRun_pure]
    | false =>
      simp only [Bool.false_eq_true, if_false, toRun_bind, toRun_pure, toRun_lift,
        toRun_checkUnique, bind_assoc, pure_bind]
      refine bind_congr fun uniqueFailed => ?_
      cases uniqueFailed with
      | true => simp [toRun_pure]
      | false => exact c.toRun_members_bind failed inheritedFailed

theorem toRun_checkLabel_bind (c : ClassDef) (failed : Bool) : toRun (do
      let labelFailed ← c.checkLabel
      let bodyFailed ← within .classBody (.classDef c) c.checkBody
      return failed || labelFailed || bodyFailed) = (do
      let labelFailed ← Run.failIf (c.label == .screen && c.modifier != .normal)
        (.screenModifierNotNormal c.name) c.ident.span
      ScopedRun.within .classBody (.classDef c) (c.examineBody (failed || labelFailed))) := by
  simp only [toRun_bind, toRun_lift, toRun_pure, toRun_within, checkLabel, Check.toRun_failIf,
    examineBody_eq, ScopedRun.within, bind_assoc, pure_bind]

theorem toRun_check (c : ClassDef) : c.check.toRun = c.examine := by
  simp only [check, examine, checkBackend, toRun_bind, toRun_lift, Check.toRun_failIf]
  refine bind_congr fun backendFailed => ?_
  unfold checkBase
  cases c.base with
  | none =>
    simp only [Check.toRun_pure, monadLift_pure, pure_bind, Bool.or_false]
    exact c.toRun_checkLabel_bind backendFailed
  | some base =>
    simp only [Check.toRun_bind, Check.toRun_resolve, Check.toRun_classes, monadLift_bind,
      bind_assoc]
    refine bind_congr fun ty => bind_congr fun table => ?_
    cases table.get? base.text with
    | none => simp only [Check.toRun_refuse, monadLift_bind, monadLift_pure, bind_assoc, pure_bind,
        toRun_pure]
    | some parent =>
      dsimp only
      cases table.isCyclic c with
      | true => simp only [Check.toRun_refuse, monadLift_bind, monadLift_pure, bind_assoc,
          pure_bind, toRun_pure, if_true]
      | false =>
        have hlabel (failed : Bool) := c.toRun_checkLabel_bind failed
        simp only [Bool.false_eq_true, if_false, checkBaseModifier]
        by_cases h : c.label = .screen
        · simp only [h, if_true, Check.toRun_bind, Check.toRun_fail, Check.toRun_pure,
            monadLift_bind, monadLift_pure, bind_assoc, pure_bind, Bool.or_true] at hlabel ⊢
          exact bind_congr fun _ => hlabel true
        · simp only [h, if_false, Check.toRun_bind, Check.toRun_failIf, Check.toRun_pure,
            monadLift_bind, monadLift_pure, bind_assoc, pure_bind]
          exact bind_congr fun baseFailed => hlabel (backendFailed || baseFailed)

end ClassDef

namespace Program

theorem toRun_check (p : Program) : p.check.toRun = p.examine := by
  rw [check, examine, Check.toRun_bind, Check.toRun_registerAll]
  refine bind_congr fun _ => ?_
  dsimp only
  rw [Check.toRun_anyFails, forIn_eq_anyFails fun c : ClassDef =>
    Check.toRun (do return (← c.check []).1)]
  · simp
  intro c failed
  rw [Check.toRun_bind, ← c.toRun_check]
  simp only [Check.toRun_pure, bind_assoc, pure_bind]
  rfl

theorem analyze_eq (p : Program) (file : String) :
    p.analyze file =
      ⟨p, (p.check .empty).table, (p.check .empty).findings.map fun f => f.inFile file⟩ := by
  rw [analyze, ← p.toRun_check]
  rfl

end Program

end ClassLang
