import ClassLang.Check.Member
import ClassLang.Proofs.FlowPlaces
import ClassLang.Types.WordChar

namespace ClassLang

namespace Stmt

mutual

def doBodies : Stmt → List Stmt
  | .block statements _ => doBodiesAll statements
  | .doLoop body _ _ => body :: body.doBodies
  | .whileLoop _ body _ | .forLoop _ _ _ body _ | .ifThen _ body _ => body.doBodies
  | .ifElse _ thenBranch elseBranch _ => thenBranch.doBodies ++ elseBranch.doBodies
  | _ => []

def doBodiesAll : List Stmt → List Stmt
  | [] => []
  | s :: rest => s.doBodies ++ doBodiesAll rest

end

/-- No execution jumps out of the body of a `do` that counts as returning. -/
def Unbroken (s : Stmt) : Prop :=
  ∀ body ∈ s.doBodies, body.alwaysReturns = true → ¬ body.Ends .broke ∧ ¬ body.Ends .continued

instance (s : Stmt) : Decidable s.Unbroken :=
  inferInstanceAs (Decidable (∀ body ∈ s.doBodies, _ → _))

section Unbroken

variable {s u : Stmt}

theorem doBodiesAll_eq_flatMap (statements : List Stmt) :
    doBodiesAll statements = statements.flatMap doBodies := by
  induction statements with
  | nil => rfl
  | cons s rest ih => rw [doBodiesAll, ih, List.flatMap_cons]

theorem mem_doBodies_iff {body : Stmt} :
    body ∈ s.doBodies ↔
      (∃ condition span, s = .doLoop body condition span) ∨
        ∃ u ∈ s.children, body ∈ u.doBodies := by
  cases s with
  | doLoop inner condition span => simp [doBodies, children, eq_comm]
  | _ => simp [doBodies, children, doBodiesAll_eq_flatMap]

theorem Unbroken.child (h : s.Unbroken) (hu : u ∈ s.children) : u.Unbroken :=
  fun body hb => h body (mem_doBodies_iff.mpr (.inr ⟨u, hu, hb⟩))

theorem Unbroken.inside (h : s.Unbroken) {path : List Nat} (hp : s.inside? path = some u) :
    u.Unbroken := by
  induction path generalizing s with
  | nil =>
    cases hp
    exact h
  | cons place path ih =>
    obtain ⟨v, hv, hp⟩ := Option.bind_eq_some_iff.mp hp
    exact ih (h.child (List.mem_of_getElem? hv)) hp

theorem anyAlwaysReturns_iff {statements : List Stmt} :
    anyAlwaysReturns statements = true ↔ ∃ u ∈ statements, u.alwaysReturns = true := by
  induction statements with
  | nil => simp [anyAlwaysReturns]
  | cons s rest ih => simp [anyAlwaysReturns, ih]

/-- The induction follows the rules by which a statement counts as returning. -/
theorem Unbroken.not_ends_onward (h : s.Unbroken) (hr : s.alwaysReturns = true) :
    ¬ s.Ends .onward := by
  induction s using Stmt.induct with
  | step s ih =>
    replace ih : ∀ u ∈ s.children, u.alwaysReturns = true → ¬ u.Ends .onward :=
      fun u hu => ih u hu (h.child hu)
    cases s with
    | block statements span =>
      rw [alwaysReturns] at hr
      obtain ⟨u, hu, hr⟩ := anyAlwaysReturns_iff.mp hr
      rw [ends_block_onward_iff]
      exact fun hall => ih u hu hr (hall u hu)
    | ret value span => exact not_ends_ret_onward
    | ifElse condition thenBranch elseBranch span =>
      rw [alwaysReturns, Bool.and_eq_true] at hr
      rw [ends_ifElse_iff, not_or]
      exact ⟨ih _ (by simp [children]) hr.1, ih _ (by simp [children]) hr.2⟩
    | doLoop body condition span =>
      rw [alwaysReturns] at hr
      obtain ⟨hbroke, hcontinued⟩ := h body (by simp [doBodies]) hr
      rw [ends_doLoop_onward_iff, not_or, not_or]
      exact ⟨hbroke, ih body (by simp [children]) hr, hcontinued⟩
    | _ => cases hr

theorem exists_path_of_mem_doBodies {body : Stmt} (h : body ∈ s.doBodies) :
    ∃ path condition span, s.inside? path = some (.doLoop body condition span) := by
  induction s using Stmt.induct with
  | step s ih =>
    obtain ⟨condition, span, rfl⟩ | ⟨u, hu, hb⟩ := mem_doBodies_iff.mp h
    · exact ⟨[], condition, span, rfl⟩
    · obtain ⟨path, condition, span, hp⟩ := ih u hu hb
      obtain ⟨place, hplace⟩ := List.mem_iff_getElem?.mp hu
      refine ⟨place :: path, condition, span, ?_⟩
      rw [inside?, hplace]
      exact hp

/-- Jumps out of `do` loops are all that can go wrong. -/
theorem unbroken_iff :
    s.Unbroken ↔
      ∀ path u, s.inside? path = some u → u.alwaysReturns = true → ¬ u.Ends .onward := by
  constructor
  · intro h path u hp hr
    exact (h.inside hp).not_ends_onward hr
  · intro h body hb hr
    obtain ⟨path, condition, span, hp⟩ := exists_path_of_mem_doBodies hb
    have hn := h path _ hp hr
    rw [ends_doLoop_onward_iff, not_or, not_or] at hn
    exact ⟨hn.1, hn.2.2⟩

end Unbroken

section Unreachable

variable {s : Stmt} {inLoop : Bool} {item : List Nat × Finding}

theorem exists_inside_of_mem_flow (h : item ∈ s.flow inLoop)
    (hp : item.2.problem = .unreachableCode) :
    ∃ u, s.inside? item.1 = some u ∧ item.2.span = u.span := by
  induction s using Stmt.induct generalizing inLoop item with
  | step s ih =>
    obtain ⟨path, f⟩ := item
    obtain hown | ⟨place, u, inner, hopen, hu, rfl, hf⟩ := mem_flow_iff.mp h
    · cases hown with
      | jump => cases hp
      | @unreachable _ _ _ next => exact ⟨next, by simp [inside?, children], rfl⟩
    · obtain ⟨v, hv, hspan⟩ := ih u (List.mem_of_getElem? hu) hf hp
      refine ⟨v, ?_, hspan⟩
      simp only [inside?, hu]
      exact hv

theorem Unbroken.not_arrives (hs : s.Unbroken) (h : item ∈ s.flow inLoop)
    (hp : item.2.problem = .unreachableCode) : ¬ s.Arrives item.1 := by
  induction s using Stmt.induct generalizing inLoop item with
  | step s ih =>
    obtain ⟨path, f⟩ := item
    obtain hown | ⟨place, u, inner, hopen, hu, rfl, hf⟩ := mem_flow_iff.mp h
    · cases hown with
      | jump => cases hp
      | @unreachable _ _ last _ _ _ _ returns =>
        rintro (_ | ⟨child, enters, arrives⟩)
        -- to come to the place, the statement in front of it has to be passed
        have hlast : last.Ends .onward := enters last (by simp [List.take_append])
        exact (hs.child (by simp [children])).not_ends_onward returns hlast
    · rintro (_ | ⟨child, enters, arrives⟩)
      obtain rfl := Option.some.inj (hu.symm.trans child)
      have hm := List.mem_of_getElem? hu
      exact ih u hm (hs.child hm) hf hp arrives

end Unreachable

end Stmt

variable [Alphabet]

section Accepted

variable {m : Member} {returnType : Ty} {scopes : ScopeStack} {table : ClassTable}

omit [Alphabet] in
theorem Check.condition_of_failIf {condition : Bool} {problem : Problem} {span : Span}
    (h : (failIf condition problem span table).result = false) : condition = false := by
  cases condition with
  | true => cases h
  | false => rfl

omit [Alphabet] in
theorem Scoped.exists_of_unless {c d : Scoped Bool}
    (h : ((do if ← c then return true else d : Scoped Bool) scopes table).result.1 = false) :
    ∃ inner later, (d inner later).result.1 = false := by
  refine ⟨(c scopes table).result.2, (c scopes table).table, ?_⟩
  rw [Scoped.bind_apply, Check.result_bind] at h
  cases hc : (c scopes table).result.1 with
  | true =>
    rw [hc] at h
    cases h
  | false =>
    rw [hc] at h
    exact h

theorem Block.alwaysReturns_of_check {b : Block}
    (h : (b.checkReturning m returnType scopes table).result.1 = false)
    (hv : returnType.isVoid = false) : b.toStmt.alwaysReturns = true := by
  have hpath := (Bool.or_eq_false_iff.mp h).2
  have hreturns := Check.condition_of_failIf hpath
  rw [hv] at hreturns
  rw [Block.toStmt, Stmt.alwaysReturns, ← Block.alwaysReturns]
  simpa using hreturns

theorem Routine.alwaysReturns_of_check {r : Routine} {b : Block}
    (h : (r.check m returnType scopes table).result.1 = false) (hb : r.body = some b)
    (hv : returnType.isVoid = false) : b.toStmt.alwaysReturns = true := by
  obtain ⟨inner, later, hbody⟩ := Scoped.exists_of_unless h
  rw [hb] at hbody
  exact Block.alwaysReturns_of_check hbody hv

end Accepted

/-- Where no jump leaves the body of a `do` that counts as returning, and only there, nothing that
counts as returning is passed. Then no execution of an accepted body that is to return a value falls
off its end, and none comes to what is reported as unreachable. -/
theorem returning_not_passed (s : Stmt) (b : Block) (name : Ident) (parameters : List Parameter)
    (m : Member) (returnType : Ty) (scopes : ScopeStack) (table : ClassTable) :
    (s.Unbroken ↔
      ∀ path u, s.inside? path = some u → u.alwaysReturns = true → ¬ u.Ends .onward) ∧
    (b.toStmt.Unbroken → returnType.isVoid = false →
      (Routine.check m returnType ⟨name, parameters, some b⟩ scopes table).result.1 = false →
        ¬ b.toStmt.Ends .onward) ∧
    (b.check scopes table).findings.filter (·.problem.isFlow) =
      (b.toStmt.flow (scopes.hasKind .loop)).map Prod.snd ∧
    (b.toStmt.Unbroken → ∀ item ∈ b.toStmt.flow (scopes.hasKind .loop),
      item.2.problem = .unreachableCode →
        ∃ u, b.toStmt.inside? item.1 = some u ∧ item.2.span = u.span ∧
          ¬ b.toStmt.Arrives item.1) := by
  refine ⟨Stmt.unbroken_iff, fun hs hv h => ?_, b.toStmt.flows_check.findings scopes table, ?_⟩
  · exact hs.not_ends_onward (Routine.alwaysReturns_of_check h rfl hv)
  · intro hs item hi hp
    obtain ⟨u, hu, hspan⟩ := Stmt.exists_inside_of_mem_flow hi hp
    exact ⟨u, hu, hspan, hs.not_arrives hi hp⟩

/-- `do { … return 1; } while (true);` -/
def Stmt.returningDo (first : Stmt) : Stmt :=
  .doLoop (.block [first, .ret (some (.literal .integer "1" .nowhere)) .nowhere] .nowhere)
    (.literal .boolean "true" .nowhere) .nowhere

def Stmt.secondReturn : Stmt := .ret none ⟨⟨1, 0, 60⟩, ⟨1, 7, 67⟩⟩

def Block.Counts (body : Block) : Prop :=
  let r : Routine := ⟨.provided "Count", [], some body⟩
  let m : Member := ⟨.everywhere, .normal, false, .provided "int", "Counter", .nowhere, .method r⟩
  (r.check m (.primitive .int) [] .empty).result.1 = false

instance (body : Block) : Decidable body.Counts := inferInstanceAs (Decidable (_ = _))

end ClassLang

namespace ClassLang

attribute [local instance] Alphabet.unicode

/-- A jump out of a loop inside does no harm. -/
theorem returning_not_passed_by_inner_break :
    let loop := Stmt.whileLoop (.literal .boolean "true" .nowhere) (.breakLoop .nowhere) .nowhere
    let body : Block := ⟨[.returningDo loop], .nowhere⟩
    let more : Block := ⟨[.returningDo loop, .secondReturn], .nowhere⟩
    (body.Counts ∧ body.toStmt.Unbroken ∧ ¬ body.toStmt.Ends .onward) ∧
      (⟨.unreachableCode, Stmt.secondReturn.span⟩ ∈ (more.check [] .empty).findings ∧
        more.toStmt.Unbroken ∧ ¬ more.toStmt.Arrives [1]) := by
  intro loop body more
  have hbody : body.Counts := by decide +kernel
  have hs : body.toStmt.Unbroken := by decide +kernel
  have hmore : more.toStmt.Unbroken := by decide +kernel
  have hitem : ([1], ⟨.unreachableCode, Stmt.secondReturn.span⟩) ∈ more.toStmt.flow false := by
    decide +kernel
  have hkept := (returning_not_passed loop body (.provided "Count") [] _ (.primitive .int) []
    .empty).2.1 hs rfl hbody
  obtain ⟨u, -, -, hu⟩ := (returning_not_passed loop more (.provided "Count") []
    (.provided "Counter" "Count" "int" []) (.primitive .int) [] .empty).2.2.2 hmore _ hitem rfl
  exact ⟨⟨hbody, hs, hkept⟩, by decide +kernel, hmore, hu⟩

/-- A `do` that is left by `break` in front of its `return` counts as returning, but is passed. The
body that it makes up is accepted, and what follows it in a block is reported as unreachable. -/
theorem returningDo_passed_by_break :
    let jump := Stmt.ifThen (.literal .boolean "true" .nowhere) (.breakLoop .nowhere) .nowhere
    let body : Block := ⟨[.returningDo jump], .nowhere⟩
    let more : Block := ⟨[.returningDo jump, .secondReturn], .nowhere⟩
    ((Stmt.returningDo jump).alwaysReturns = true ∧ (Stmt.returningDo jump).Ends .onward) ∧
      (body.Counts ∧ body.toStmt.Ends .onward) ∧
        ⟨.unreachableCode, Stmt.secondReturn.span⟩ ∈ (more.check [] .empty).findings ∧
          more.toStmt.inside? [1] = some .secondReturn ∧ more.toStmt.Arrives [1] := by
  intro jump body more
  have hends : (Stmt.returningDo jump).Ends .onward := by decide +kernel
  have hbody : body.toStmt.Ends .onward := by decide +kernel
  refine ⟨⟨rfl, hends⟩, ⟨by decide +kernel, hbody⟩, by decide +kernel, rfl, ?_⟩
  refine .inside rfl ?_ .here
  intro u hu
  obtain rfl := List.mem_singleton.mp hu
  exact hends

end ClassLang
