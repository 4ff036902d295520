import ClassLang.Check.Stmt
import ClassLang.Proofs.ExprHonesty

namespace ClassLang

variable [Alphabet]

/-- The check is honest inside any scopes, and only adds variables to the innermost one. What may
excuse it depends on the current member. -/
structure Scoped.Honest {α : Type} (excuse : Option Member → Excuse) (before : Prop)
    (fails : α → Prop) (c : Scoped α) : Prop where
  check : ∀ scopes,
    Check.Honest (excuse scopes.currentMember?) before (fun r => fails r.1) (c scopes)
  scopes : ∀ scopes table, ∃ added, (c scopes table).result.2 = scopes.extend added

namespace Scoped

variable {α β : Type} {excuse : Option Member → Excuse} {before : Prop} {bad : α → Prop}
  {fails : β → Prop}

theorem honest_pure {b : β} (h : fails b ↔ before) : Honest excuse before fails (pure b) :=
  ⟨fun _ => Check.honest_pure h, fun scopes _ => ⟨[], scopes.extend_nil.symm⟩⟩

theorem honest_bind {c : Scoped α} {f : α → Scoped β} (hc : Honest excuse before bad c)
    (hf : ∀ a, Honest excuse (bad a) fails (f a)) : Honest excuse before fails (c >>= f) := by
  refine ⟨fun scopes table => ?_, fun scopes table =>
    extends_bind scopes table hc.scopes fun a => (hf a).scopes⟩
  obtain ⟨added, ha⟩ := hc.scopes scopes table
  have hm : (c scopes table).result.2.currentMember? = scopes.currentMember? := by
    rw [ha, ScopeStack.currentMember?_extend]
  have k := (hf (c scopes table).result.1).check (c scopes table).result.2 (c scopes table).table
  rw [hm] at k
  rw [bind_apply]
  exact (hc.check scopes table).bind k

theorem Honest.after {c : Scoped α} (h : Honest excuse False bad c) (before : Prop) :
    Honest excuse before (fun a => before ∨ bad a) c :=
  ⟨fun scopes => (h.check scopes).after before, h.scopes⟩

theorem Honest.first {c : Scoped β} (h : Honest excuse False fails c) (hb : ¬ before) :
    Honest excuse before fails c := ⟨fun scopes => (h.check scopes).first hb, h.scopes⟩

theorem honest_reading {c : ScopeStack → Check β}
    (h : ∀ scopes, Check.Honest (excuse scopes.currentMember?) before fails (c scopes)) :
    Honest excuse before fails (reading c) := by
  refine ⟨fun scopes => ?_, fun scopes _ => ⟨[], scopes.extend_nil.symm⟩⟩
  apply Check.honest_bind (h scopes)
  intro b
  exact Check.honest_pure Iff.rfl

theorem honest_lift {c : Check β} (h : ∀ current, Check.Honest (excuse current) before fails c) :
    Honest excuse before fails (liftM c : Scoped β) :=
  honest_reading fun scopes => h scopes.currentMember?

theorem honest_declare (v : Variable) (span : Span) :
    Honest excuse False (· = true) (declare v span) := by
  refine ⟨fun scopes => ?_, fun scopes table => ?_⟩
  · unfold declare
    split
    · exact Check.honest_pure (by simp)
    · apply Check.honest_bind (Check.honest_fail _ span)
      intro failed
      exact Check.honest_pure Iff.rfl
  · unfold declare
    cases hd : scopes.declare v with
    | ok inner => exact ⟨[v], ScopeStack.eq_extend_of_declare hd⟩
    | error problem => exact ⟨[], scopes.extend_nil.symm⟩

theorem honest_within (inner : Option Member → Excuse) {kind : ScopeKind} {owner : ScopeOwner}
    {c : Scoped β} (h : Honest inner before fails c)
    (he : ∀ scopes : ScopeStack,
      inner (scopes.push kind owner).currentMember? = excuse scopes.currentMember?) :
    Honest excuse before fails (within kind owner c) := by
  refine ⟨fun scopes => ?_, fun scopes table => extends_within scopes table kind owner h.scopes⟩
  have hc := h.check (scopes.push kind owner)
  rw [he] at hc
  apply Check.honest_bind hc
  intro r
  exact Check.honest_pure Iff.rfl

theorem honest_within_code {kind : ScopeKind} {c : Scoped β} (h : Honest excuse before fails c) :
    Honest excuse before fails (within kind .code c) := honest_within excuse h fun _ => rfl

theorem honest_both {c d : Scoped Bool} (hc : Honest excuse False (· = true) c)
    (hd : Honest excuse False (· = true) d) :
    Honest excuse False (· = true) (do
      let failed ← c
      let alsoFailed ← d
      return failed || alsoFailed) := by
  apply honest_bind hc
  intro failed
  apply honest_bind (hd.after _)
  intro alsoFailed
  exact honest_pure (by simp)

theorem honest_anyFails {f : α → Scoped Bool} {items : List α}
    (h : ∀ a ∈ items, Honest excuse False (· = true) (f a)) :
    Honest excuse False (· = true) (anyFails f items) := by
  induction items with
  | nil => exact honest_pure (by simp)
  | cons a items ih => exact honest_both (h a (by simp)) (ih fun b hb => h b (by simp [hb]))

theorem honest_failsAt {f : α → Scoped Bool} (h : ∀ a, Honest excuse False (· = true) (f a))
    (items : List α) : Honest excuse False (· = true) (failsAt f items) := by
  induction items with
  | nil => exact honest_pure (by simp)
  | cons a items ih =>
    apply honest_bind (h a)
    intro failed
    cases failed with
    | true => exact honest_pure (by simp)
    | false => exact ih.first (by simp)

theorem honest_checkOptional {f : α → Scoped Bool} (h : ∀ a, Honest excuse False (· = true) (f a))
    (item : Option α) : Honest excuse False (· = true) (checkOptional f item) := by
  cases item with
  | none => exact honest_pure (by simp)
  | some a => exact h a

end Scoped

open Scoped

theorem Declarator.honest_check (ty : Ty) (d : Declarator) :
    Scoped.Honest .faulty False (· = true) (d.check ty) := by
  have hlast (valueFailed : Bool) : Scoped.Honest .faulty (valueFailed = true) (· = true) (do
      let nameFailed ← Scoped.declare ⟨d.name.text, ty, true⟩ d.name.span
      return valueFailed || nameFailed) := by
    apply honest_bind ((honest_declare _ d.name.span).after _)
    intro nameFailed
    exact honest_pure (by simp)
  unfold Declarator.check
  split
  · apply honest_bind (honest_reading fun scopes => Expr.honest_checkInitializer scopes ty _)
    exact hlast
  · exact honest_bind (honest_pure (by simp)) hlast

theorem Declaration.honest_check (d : Declaration) :
    Scoped.Honest .faulty False (· = true) d.check := by
  apply honest_bind (honest_lift fun _ => Check.honest_expectValueType d.typeName)
  intro ty
  cases ty with
  | none => exact honest_pure (by simp)
  | some ty =>
    exact (honest_anyFails fun declarator _ => declarator.honest_check ty).first (by simp)

theorem ForInit.honest_check (init : ForInit) :
    Scoped.Honest .faulty False (· = true) init.check := by
  cases init with
  | declaration d => exact d.honest_check
  | expression e => exact honest_reading fun scopes => e.honest_checkDenotes scopes

namespace Stmt

theorem honest_checkReturn (value : Option Expr) (span : Span) (scopes : ScopeStack) :
    Check.Honest (.faulty scopes.currentMember?) False (· = true)
      (checkReturn value span scopes) := by
  unfold checkReturn
  cases scopes.currentMember? with
  | none => exact Check.honest_fail _ span
  | some m =>
    have hm : Check.Honest (.faulty (some m)) False (· = none)
        (Check.resolve m.declaredType.text) := fun table =>
      (Check.honest_resolve m table).excused fun hd => ⟨m, hd, .inl rfl⟩
    apply Check.honest_bind hm
    intro expected
    cases expected with
    | none => exact Check.honest_pure (by simp)
    | some expected =>
      cases value with
      | none => exact (Check.honest_failIf _ _ span).first (by simp)
      | some e =>
        apply Check.honest_bind ((e.honest_denote scopes).first (by simp))
        intro found
        cases found with
        | none => exact Check.honest_pure (by simp)
        | some found =>
          apply Check.honest_bind (Check.honest_quiet Check.quiet_classes)
          intro table
          exact (Check.honest_failIf _ _ e.span).first (by simp)

theorem honest_checkInLoop (keyword : String) (span : Span) (scopes : ScopeStack) :
    Check.Honest (.faulty scopes.currentMember?) False (· = true)
      (checkInLoop keyword span scopes) := Check.honest_failIf _ _ span

theorem honest_condition (e : Expr) :
    Scoped.Honest .faulty False (· = true) (Scoped.reading e.checkCondition) :=
  honest_reading fun scopes => e.honest_checkCondition scopes

mutual

/-- A statement fails exactly if something in it is reported, unless a declared type stands for
nothing. -/
theorem honest_check (s : Stmt) : Scoped.Honest .faulty False (· = true) s.check := by
  cases s with
  | block statements span => exact honest_within_code (honest_checkAll statements)
  | continueLoop span =>
    exact honest_reading fun scopes => honest_checkInLoop "continue" span scopes
  | breakLoop span => exact honest_reading fun scopes => honest_checkInLoop "break" span scopes
  | ret value span => exact honest_reading fun scopes => honest_checkReturn value span scopes
  | declaration d => exact d.honest_check
  | whileLoop condition body span =>
    exact honest_both (honest_condition condition) (honest_within_code body.honest_check)
  | doLoop body condition span =>
    exact honest_both (honest_within_code body.honest_check) (honest_condition condition)
  | ifThen condition thenBranch span =>
    exact honest_both (honest_condition condition) (honest_within_code thenBranch.honest_check)
  | ifElse condition thenBranch elseBranch span =>
    apply honest_bind (honest_condition condition)
    intro conditionFailed
    apply honest_bind ((honest_within_code thenBranch.honest_check).after _)
    intro thenFailed
    apply honest_bind ((honest_within_code elseBranch.honest_check).after _)
    intro elseFailed
    exact honest_pure (by simp)
  | forLoop init condition step body span =>
    apply honest_within_code
    apply honest_bind (honest_checkOptional ForInit.honest_check init)
    intro initFailed
    apply honest_bind ((honest_checkOptional honest_condition condition).after _)
    intro conditionFailed
    apply honest_bind ((honest_checkOptional (fun e =>
      honest_reading fun scopes => e.honest_checkDenotes scopes) step).after _)
    intro stepFailed
    apply honest_bind (body.honest_check.after _)
    intro bodyFailed
    exact honest_pure (by simp)
  | expression e span => exact honest_reading fun scopes => e.honest_checkDenotes scopes

theorem honest_checkAll (statements : List Stmt) :
    Scoped.Honest .faulty False (· = true) (checkAll statements) := by
  cases statements with
  | nil => exact honest_pure (by simp)
  | cons s rest =>
    apply honest_bind s.honest_check
    intro failed
    split
    · cases rest with
      | nil => exact honest_pure Iff.rfl
      | cons next rest => exact honest_lift fun _ => Check.honest_fail _ next.span
    · apply honest_bind ((honest_checkAll rest).after _)
      intro restFailed
      exact honest_pure (by simp)

end

end Stmt

end ClassLang
