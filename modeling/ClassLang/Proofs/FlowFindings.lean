import ClassLang.Proofs.BlindClass
import ClassLang.Proofs.PlainFindings
import ClassLang.Proofs.StmtHonesty

namespace ClassLang

namespace Stmt

def under (place : Nat) (found : List (List Nat × Finding)) : List (List Nat × Finding) :=
  found.map fun item => (place :: item.1, item.2)

@[simp]
theorem map_snd_under (place : Nat) (found : List (List Nat × Finding)) :
    (under place found).map Prod.snd = found.map Prod.snd := by
  simp [under, Function.comp_def]

mutual

/-- The problems of control flow in a statement, each with the path to the statement it is about. -/
def flow (inLoop : Bool) : Stmt → List (List Nat × Finding)
  | .block statements _ => flowFrom inLoop 0 statements
  | .continueLoop span =>
    if inLoop then [] else [([], ⟨.statementMustAppearInLoop "continue", span⟩)]
  | .breakLoop span => if inLoop then [] else [([], ⟨.statementMustAppearInLoop "break", span⟩)]
  | .whileLoop _ body _ | .doLoop body _ _ | .forLoop _ _ _ body _ => under 0 (body.flow true)
  | .ifThen _ thenBranch _ => under 0 (thenBranch.flow inLoop)
  | .ifElse _ thenBranch elseBranch _ =>
    under 0 (thenBranch.flow inLoop) ++ under 1 (elseBranch.flow inLoop)
  | .ret .. | .declaration _ | .expression .. => []

/-- The problems in statements of a block, from the given place on. Behind a statement that always
returns nothing is looked at. -/
def flowFrom (inLoop : Bool) (place : Nat) : List Stmt → List (List Nat × Finding)
  | [] => []
  | s :: rest =>
    under place (s.flow inLoop) ++
      if s.alwaysReturns then
        (rest.take 1).map fun next => ([place + 1], ⟨.unreachableCode, next.span⟩)
      else flowFrom inLoop (place + 1) rest

end

end Stmt

theorem ScopeStack.hasKind_extend (scopes : ScopeStack) (added : List Variable)
    (kind : ScopeKind) : (scopes.extend added).hasKind kind = scopes.hasKind kind := by
  cases scopes <;> rfl

/-- The problems of control flow that the check finds are the given ones, which may depend on
whether it is made in a loop. It only adds variables to the innermost scope. -/
structure Scoped.Flows {α : Type} (found : Bool → List Finding) (c : Scoped α) : Prop where
  findings : ∀ scopes table,
    (c scopes table).findings.filter (·.problem.isFlow) = found (scopes.hasKind .loop)
  scopes : ∀ scopes table, ∃ added, (c scopes table).result.2 = scopes.extend added

namespace Scoped

variable {α β : Type} {found rest : Bool → List Finding}

theorem Flows.of_eq {c : Scoped α} (h : Flows found c) {other : Bool → List Finding}
    (he : ∀ inLoop, found inLoop = other inLoop) : Flows other c :=
  ⟨fun scopes table => (h.findings scopes table).trans (he _), h.scopes⟩

theorem flows_pure (a : α) : Flows (fun _ => []) (pure a) :=
  ⟨fun _ _ => rfl, fun scopes _ => ⟨[], scopes.extend_nil.symm⟩⟩

theorem flows_bind {c : Scoped α} {f : α → Scoped β} (hc : Flows found c)
    (hf : ∀ a, Flows rest (f a)) : Flows (fun inLoop => found inLoop ++ rest inLoop) (c >>= f) := by
  refine ⟨fun scopes table => ?_, fun scopes table =>
    extends_bind scopes table hc.scopes fun a => (hf a).scopes⟩
  obtain ⟨added, ha⟩ := hc.scopes scopes table
  rw [findings_bind, List.filter_append, hc.findings, (hf _).findings, ha,
    ScopeStack.hasKind_extend]

theorem flows_within {kind : ScopeKind} {owner : ScopeOwner} {c : Scoped α} (h : Flows found c) :
    Flows (fun inLoop => found (kind == .loop || inLoop)) (within kind owner c) := by
  refine ⟨fun scopes table => ?_, fun scopes table =>
    extends_within scopes table kind owner h.scopes⟩
  rw [findings_within, h.findings]
  rfl

theorem flows_loop {c : Scoped α} (h : Flows found c) :
    Flows (fun _ => found true) (within .loop .code c) := (flows_within h).of_eq fun _ => rfl

theorem flows_block {c : Scoped α} (h : Flows found c) : Flows found (within .block .code c) :=
  (flows_within h).of_eq fun _ => rfl

theorem flows_both {c d : Scoped Bool} (hc : Flows found c) (hd : Flows rest d) :
    Flows (fun inLoop => found inLoop ++ rest inLoop) (do
      let failed ← c
      let alsoFailed ← d
      return failed || alsoFailed) := by
  refine (flows_bind hc fun failed => flows_bind hd fun alsoFailed => flows_pure _).of_eq ?_
  simp

theorem flows_checkOptional {f : α → Scoped Bool} (h : ∀ a, Flows (fun _ => []) (f a))
    (item : Option α) : Flows (fun _ => []) (checkOptional f item) := by
  cases item with
  | none => exact flows_pure false
  | some a => exact h a

theorem flows_plain [Alphabet] {excuse : Option Member → Excuse} {before : Prop} {fails : α → Prop}
    {c : Scoped α} (h : ∀ start, Finds start (plainAt .univ) c)
    (hh : Scoped.Honest excuse before fails c) : Flows (fun _ => []) c := by
  refine ⟨fun scopes table => ?_, hh.scopes⟩
  rw [List.filter_eq_nil_iff]
  intro f hf
  have hplain := ((h table scopes table (.refl table)).2 f hf).2
  simpa using (Bool.and_eq_true_iff.mp hplain).1

end Scoped

open Scoped

namespace Stmt

theorem flows_checkInLoop (keyword : String) (span : Span) :
    Flows (fun inLoop => if inLoop then [] else [⟨.statementMustAppearInLoop keyword, span⟩])
      (Scoped.reading (checkInLoop keyword span)) := by
  refine ⟨fun scopes table => ?_, fun scopes table => ⟨[], scopes.extend_nil.symm⟩⟩
  unfold Scoped.reading checkInLoop
  cases scopes.hasKind .loop with
  | true => rfl
  | false => rfl

theorem flows_unreachable (span : Span) :
    Flows (fun _ => [⟨.unreachableCode, span⟩])
      (liftM (Check.fail .unreachableCode span) : Scoped Bool) :=
  ⟨fun _ _ => rfl, fun scopes _ => ⟨[], scopes.extend_nil.symm⟩⟩

variable [Alphabet]

theorem flows_condition (e : Expr) : Flows (fun _ => []) (Scoped.reading e.checkCondition) :=
  flows_plain (fun _ => finds_condition e.placed_univ) (honest_condition e)

theorem flows_denotes (e : Expr) : Flows (fun _ => []) (Scoped.reading e.checkDenotes) :=
  flows_plain (fun _ => finds_denotes e.placed_univ)
    (honest_reading fun scopes => e.honest_checkDenotes scopes)

theorem flows_checkReturn (value : Option Expr) (span : Span) :
    Flows (fun _ => []) (Scoped.reading (checkReturn value span)) := by
  refine ⟨fun scopes table => ?_, fun scopes table => ⟨[], scopes.extend_nil.symm⟩⟩
  rw [List.filter_eq_nil_iff]
  intro f hf
  obtain hf | hf := List.mem_append.mp hf
  · cases hm : scopes.currentMember? with
    | none =>
      rw [checkReturn, hm] at hf
      obtain rfl := List.mem_singleton.mp hf
      exact Bool.false_ne_true
    | some m =>
      have hcurrent : scopes.currentMember? ≠ none := by simp [hm]
      have hfinds : Check.Finds table (plainAt .univ) (checkReturn value span scopes) :=
        finds_checkReturn (fun e _ => e.placed_univ) trivial hcurrent
      have hplain := ((hfinds table (.refl table)).2 f hf).2
      simpa using (Bool.and_eq_true_iff.mp hplain).1
  · exact absurd hf List.not_mem_nil

mutual

theorem flows_check (s : Stmt) :
    Flows (fun inLoop => (s.flow inLoop).map Prod.snd) s.check := by
  cases s with
  | block statements span => exact flows_block (flows_checkAll statements 0)
  | continueLoop span =>
    refine (flows_checkInLoop "continue" span).of_eq fun inLoop => ?_
    cases inLoop <;> rfl
  | breakLoop span =>
    refine (flows_checkInLoop "break" span).of_eq fun inLoop => ?_
    cases inLoop <;> rfl
  | ret value span => exact flows_checkReturn value span
  | declaration d =>
    exact flows_plain (fun _ => Declaration.finds_check d.placed_univ) d.honest_check
  | whileLoop condition body span =>
    refine (flows_both (flows_condition condition) (flows_loop body.flows_check)).of_eq ?_
    simp [flow]
  | doLoop body condition span =>
    refine (flows_both (flows_loop body.flows_check) (flows_condition condition)).of_eq ?_
    simp [flow]
  | ifThen condition thenBranch span =>
    refine (flows_both (flows_condition condition) (flows_block thenBranch.flows_check)).of_eq ?_
    simp [flow]
  | ifElse condition thenBranch elseBranch span =>
    have hbranches (conditionFailed : Bool) := flows_bind (flows_block thenBranch.flows_check)
      fun thenFailed => flows_bind (flows_block elseBranch.flows_check)
        fun elseFailed => flows_pure (conditionFailed || thenFailed || elseFailed)
    refine (flows_bind (flows_condition condition) hbranches).of_eq ?_
    simp [flow]
  | forLoop init condition step body span =>
    have hinit (i : ForInit) : Flows (fun _ => []) i.check :=
      flows_plain (fun _ => ForInit.finds_check i.placed_univ) i.honest_check
    refine (flows_loop (flows_bind (flows_checkOptional hinit init) fun initFailed =>
      flows_bind (flows_checkOptional flows_condition condition) fun conditionFailed =>
        flows_bind (flows_checkOptional flows_denotes step) fun stepFailed =>
          flows_bind body.flows_check fun bodyFailed => flows_pure _)).of_eq ?_
    simp [flow]
  | expression e span => exact flows_denotes e

theorem flows_checkAll (statements : List Stmt) (place : Nat) :
    Flows (fun inLoop => (flowFrom inLoop place statements).map Prod.snd)
      (checkAll statements) := by
  cases statements with
  | nil => exact flows_pure false
  | cons s rest =>
    cases hr : s.alwaysReturns with
    | true =>
      cases rest with
      | nil =>
        rw [checkAll_singleton]
        refine s.flows_check.of_eq ?_
        simp [flowFrom, hr]
      | cons next rest =>
        rw [checkAll_of_returns hr]
        refine (flows_bind s.flows_check fun _ => flows_unreachable next.span).of_eq ?_
        simp [flowFrom, hr]
    | false =>
      rw [checkAll_of_not_returns hr]
      refine (flows_both s.flows_check (flows_checkAll rest (place + 1))).of_eq ?_
      simp [flowFrom, hr]

end

end Stmt

end ClassLang
