import ClassLang.Check.Class
import ClassLang.Proofs.StmtHonesty

namespace ClassLang

variable [Alphabet]

open Scoped

variable {excuse : Option Member → Excuse}

theorem Check.findings_expectType_ne_nil {table : ClassTable} {name : Ident}
    (h : table.typeOf? name.text = none) : (Check.expectType name table).findings ≠ [] := by
  have hr : (Check.resolve name.text table).result = none := h
  rw [expectType, findings_bind, hr]
  intro hn
  exact List.cons_ne_nil _ _ (List.append_eq_nil_iff.mp hn).2

theorem Parameter.honest_check (p : Parameter) :
    Scoped.Honest excuse False (· = true) p.check := by
  apply honest_bind (honest_lift fun _ => Check.honest_expectValueType p.typeName)
  intro ty
  cases ty with
  | none => exact honest_pure (by simp)
  | some ty => exact (honest_declare _ p.name.span).first (by simp)

theorem Block.honest_checkReturning (m : Member) (returnType : Ty) (b : Block) :
    Scoped.Honest .faulty False (· = true) (b.checkReturning m returnType) :=
  honest_both b.toStmt.honest_check (honest_lift fun _ => Check.honest_failIf _ _ m.span)

/-- Inside a member that member is the current one, whatever was current outside. -/
theorem Routine.honest_check (m : Member) (returnType : Ty) (r : Routine) :
    Scoped.Honest (fun _ => .faulty (some m)) False (· = true) (r.check m returnType) := by
  refine honest_within .faulty ?_ fun _ => rfl
  apply honest_bind (honest_failsAt Parameter.honest_check r.parameters)
  intro failed
  cases failed with
  | true => exact honest_pure (by simp)
  | false =>
    exact (honest_checkOptional (Block.honest_checkReturning m returnType) r.body).first (by simp)

namespace Member

/-- What is excused by the declared type of a member needs no excuse where that is reported. -/
theorem honest_of_reported (m : Member) {c : Scoped Bool}
    (h : Scoped.Honest (fun _ => .faulty (some m)) False (· = true) c)
    (hr : ∀ scopes table, table.Dangling m → (c scopes table).findings ≠ []) :
    Scoped.Honest .faulty False (· = true) c := by
  refine ⟨fun scopes table => ?_, h.scopes⟩
  -- either the check has reported the type itself, or it is some other member that is at fault
  by_cases hd : table.Dangling m
  · have hk := h.check scopes table
    exact ⟨hk.grows, hk.told, fun _ => .inl (hr scopes table hd)⟩
  · apply (h.check scopes table).excused
    rintro ⟨other, ho, hm | hc⟩
    · obtain rfl : m = other := Option.some.inj hm
      exact absurd ho hd
    · exact ⟨other, ho, .inr hc⟩

theorem honest_checkField (m : Member) (declarators : List Declarator) :
    Scoped.Honest .faulty False (· = true) (m.checkField declarators) := by
  apply honest_reading
  intro scopes
  split
  · exact Check.honest_fail _ m.span
  · apply Check.honest_bind (Check.honest_expectValueType m.declaredType)
    intro ty
    cases ty with
    | none => exact Check.honest_pure (by simp)
    | some ty =>
      exact (Check.honest_anyFails fun e _ => e.honest_checkInitializer scopes ty).first (by simp)

theorem honest_checkMethodHeader {excuse : Excuse} (c : ClassDef) (m : Member) (r : Routine) :
    Check.Honest excuse False (· = true) (m.checkMethodHeader c r) := by
  apply Check.honest_bind (Check.honest_failIf _ _ r.name.span)
  intro staticFailed
  apply Check.honest_bind ((Check.honest_failIf _ _ r.name.span).after _)
  intro placeFailed
  apply Check.honest_bind ((Check.honest_failIf _ _ r.name.span).after _)
  intro surplusFailed
  apply Check.honest_bind ((Check.honest_failIf _ _ r.name.span).after _)
  intro missingFailed
  apply Check.honest_bind (Check.honest_quiet Check.quiet_classes)
  intro table
  apply Check.honest_bind ((Check.honest_failIf _ _ r.name.span).after _)
  intro overrideFailed
  exact Check.honest_pure (by simp)

theorem reports_expectType_bind {m : Member} {f : Option Ty → Scoped Bool} {scopes : ScopeStack}
    {table : ClassTable} (hd : table.Dangling m) :
    (((liftM (Check.expectType m.declaredType) : Scoped (Option Ty)) >>= f) scopes
      table).findings ≠ [] := by
  intro hn
  rw [findings_bind, List.append_eq_nil_iff, findings_lift] at hn
  exact Check.findings_expectType_ne_nil hd hn.1

omit [Alphabet] in
theorem reports_failIf_bind {condition : Bool} {problem : Problem} {span : Span}
    {f : Bool → Scoped Bool} {scopes : ScopeStack} {table : ClassTable}
    (h : ∀ failed, (f failed scopes table).findings ≠ []) :
    (((liftM (Check.failIf condition problem span) : Scoped Bool) >>= f) scopes
      table).findings ≠ [] := by
  intro hn
  rw [findings_bind, List.append_eq_nil_iff, result_lift, table_lift, Check.table_failIf] at hn
  exact h _ hn.2

theorem honest_checkMethod (c : ClassDef) (m : Member) (r : Routine) :
    Scoped.Honest .faulty False (· = true) (m.checkMethod c r) := by
  refine honest_of_reported m ?_ fun scopes table hd => reports_expectType_bind hd
  apply honest_bind (honest_lift fun _ => Check.honest_expectType m.declaredType)
  intro returnType
  cases returnType with
  | none => exact honest_pure (by simp)
  | some returnType =>
    apply honest_bind ((honest_lift fun _ => honest_checkMethodHeader c m r).first (by simp))
    intro headerFailed
    apply honest_bind ((r.honest_check m returnType).after _)
    intro routineFailed
    exact honest_pure (by simp)

theorem honest_checkOperator (c : ClassDef) (m : Member) (r : Routine) :
    Scoped.Honest .faulty False (· = true) (m.checkOperator c r) := by
  refine honest_of_reported m ?_ fun scopes table hd => ?_
  · apply honest_bind (honest_lift fun _ => Check.honest_failIf _ _ r.name.span)
    intro modifierFailed
    apply honest_bind ((honest_lift fun _ => Check.honest_failIf _ _ r.name.span).after _)
    intro countFailed
    apply honest_bind ((honest_lift fun _ => Check.honest_expectType m.declaredType).after _)
    intro returnType
    cases returnType with
    | none => exact honest_pure (by simp)
    | some returnType =>
      apply honest_bind ((honest_lift fun _ => Check.honest_failIf _ _ r.name.span).after _)
      intro missingFailed
      apply honest_bind ((r.honest_check m returnType).after _)
      intro routineFailed
      exact honest_pure (by simp)
  · apply reports_failIf_bind
    intro modifierFailed
    apply reports_failIf_bind
    intro countFailed
    exact reports_expectType_bind hd

theorem honest_check (c : ClassDef) (m : Member) :
    Scoped.Honest .faulty False (· = true) (m.check c) := by
  unfold Member.check
  split
  · exact m.honest_checkField _
  · exact m.honest_checkMethod c _
  · exact m.honest_checkOperator c _

end Member

namespace ClassDef

theorem honest_checkUnique {excuse : Excuse} (c : ClassDef) :
    Check.Honest excuse False (· = true) c.checkUnique := by
  unfold checkUnique
  split
  · exact Check.honest_fail _ _
  · exact Check.honest_pure (by simp)

theorem honest_checkBase {excuse : Excuse} (c : ClassDef) :
    Check.Honest excuse False (· ≠ some false) c.checkBase := by
  unfold checkBase
  split
  · exact Check.honest_pure (by simp)
  · next base hb =>
    apply Check.honest_bind (Check.honest_quiet (Check.quiet_resolve base.text))
    intro _
    apply Check.honest_bind (Check.honest_quiet Check.quiet_classes)
    intro table
    split
    · apply Check.honest_bind (Check.honest_report _ _)
      intro _
      exact Check.honest_pure (by simp)
    · split
      · apply Check.honest_bind (Check.honest_report _ _)
        intro _
        exact Check.honest_pure (by simp)
      · next parent hp hc =>
        have hm : Check.Honest excuse False (· = true) (c.checkBaseModifier base parent) := by
          unfold checkBaseModifier
          split
          · exact Check.honest_fail _ base.span
          · exact Check.honest_failIf _ _ base.span
        apply Check.honest_bind hm
        intro failed
        exact Check.honest_pure (by simp)

theorem honest_declareInherited (field : Member × List Declarator) :
    Scoped.Honest excuse False (· = true) (declareInherited field) := by
  apply honest_bind (honest_lift fun _ => Check.honest_quiet (Check.quiet_resolve _))
  intro ty
  cases ty with
  | none => exact honest_pure (by simp)
  | some ty => exact honest_anyFails fun d _ => honest_declare _ d.name.span

theorem honest_declareInheritedFields (c : ClassDef) :
    Scoped.Honest excuse False (· = true) c.declareInheritedFields := by
  apply honest_bind (honest_lift fun _ => Check.honest_quiet Check.quiet_classes)
  intro table
  apply honest_anyFails
  intro ancestor _
  exact honest_anyFails fun field _ => honest_declareInherited field

theorem honest_declareOwn (field : Member × List Declarator) :
    Scoped.Honest excuse False (· = true) (declareOwn field) := by
  apply honest_bind (honest_lift fun _ => Check.honest_expectValueType field.1.declaredType)
  intro ty
  cases ty with
  | none => exact honest_pure (by simp)
  | some ty =>
    refine (honest_failsAt (fun d => ?_) field.2).first (by simp)
    exact honest_declare ⟨d.name.text, ty, true⟩ d.name.span

theorem honest_declareNames (c : ClassDef) :
    Scoped.Honest excuse False (· ≠ some false) c.declareNames := by
  apply honest_bind c.honest_declareInheritedFields
  intro inheritedFailed
  apply honest_bind ((honest_declare _ c.ident.span).after _)
  intro thisFailed
  cases thisFailed with
  | true => exact honest_pure (by simp)
  | false =>
    apply honest_bind ((honest_failsAt honest_declareOwn c.fields).after _)
    intro ownFailed
    cases ownFailed <;> exact honest_pure (by simp)

theorem honest_checkImplements {excuse : Excuse} (c : ClassDef) (required : Member) :
    Check.Honest excuse False (· = true) (c.checkImplements required) := by
  unfold checkImplements
  split
  · exact Check.honest_fail _ c.ident.span
  · exact Check.honest_failIf _ _ _

theorem honest_checkContract {excuse : Excuse} (c : ClassDef) :
    Check.Honest excuse False (· = true) c.checkContract := by
  unfold checkContract
  split
  · apply Check.honest_bind (Check.honest_quiet Check.quiet_classes)
    intro table
    exact Check.honest_anyFails fun required _ => c.honest_checkImplements required
  · exact Check.honest_pure (by simp)

theorem honest_checkBody (c : ClassDef) : Scoped.Honest .faulty False (· = true) c.checkBody := by
  apply honest_bind c.honest_declareNames
  intro names
  cases names with
  | none => exact honest_pure (by simp)
  | some inheritedFailed =>
    apply honest_bind ((honest_lift fun _ => c.honest_checkUnique).after _)
    intro duplicate
    cases duplicate with
    | true => exact honest_pure (by simp)
    | false =>
      apply honest_bind ((honest_anyFails fun m _ => m.honest_check c).after _)
      intro membersFailed
      apply honest_bind ((honest_lift fun _ => c.honest_checkContract).after _)
      intro contractFailed
      exact honest_pure (by simp)

/-- A class fails exactly if something in it is reported, unless the declared type of some method of
a registered class stands for nothing. -/
theorem honest_check (c : ClassDef) : Scoped.Honest .faulty False (· = true) c.check := by
  apply honest_bind (honest_lift fun _ => Check.honest_failIf _ _ c.ident.span)
  intro backendFailed
  apply honest_bind ((honest_lift fun _ => c.honest_checkBase).after _)
  intro base
  cases base with
  | none => exact honest_pure (by simp)
  | some baseFailed =>
    apply honest_bind ((honest_lift fun _ => Check.honest_failIf _ _ c.ident.span).after _)
    intro labelFailed
    apply honest_bind ((honest_within .faulty c.honest_checkBody fun _ => rfl).after _)
    intro bodyFailed
    exact honest_pure (by simp)

end ClassDef

end ClassLang
