import ClassLang.Analysis
import ClassLang.Proofs.ControlFlow
import ClassLang.Proofs.FlowFindings
import ClassLang.Types.WordChar

namespace ClassLang

namespace Stmt

def isLoop (s : Stmt) : Bool := s.loop?.isSome

/-- A jump out of a turn of a loop: the word it is written by, and its place. -/
def jump? : Stmt → Option (String × Span)
  | .breakLoop span => some ("break", span)
  | .continueLoop span => some ("continue", span)
  | _ => none

/-- Whether a walk goes on to the place right inside a statement. In a block it goes no further than
the first statement that always returns. -/
def opens : Stmt → Nat → Bool
  | .block statements _, place => (statements.take place).all fun u => !u.alwaysReturns
  | _, _ => true

/-- The statement that a walk along a path comes to, and whether it stands in a loop. -/
def visit? (s : Stmt) (inLoop : Bool) : List Nat → Option (Stmt × Bool)
  | [] => some (s, inLoop)
  | place :: path =>
    if s.opens place then
      s.children[place]?.bind fun u => u.visit? (inLoop || s.isLoop) path
    else none

/-- What is wrong about a statement that a walk comes to, and the path from there to the statement
at fault: it is a jump and stands in no loop, or a block in which something follows the first
statement that always returns. -/
inductive Misplaces : Stmt → Bool → List Nat → Finding → Prop
  | jump {s : Stmt} {keyword : String} {span : Span} (jump : s.jump? = some (keyword, span)) :
      Misplaces s false [] ⟨.statementMustAppearInLoop keyword, span⟩
  | unreachable {before after : List Stmt} {last next : Stmt} {span : Span} {inLoop : Bool}
      (live : ∀ u ∈ before, u.alwaysReturns = false) (returns : last.alwaysReturns = true) :
      Misplaces (.block (before ++ last :: next :: after) span) inLoop [before.length + 1]
        ⟨.unreachableCode, next.span⟩

section Walk

variable {s : Stmt} {inLoop : Bool} {path : List Nat} {f : Finding}

theorem mem_under_iff {place : Nat} {found : List (List Nat × Finding)} :
    (path, f) ∈ under place found ↔ ∃ inner, path = place :: inner ∧ (inner, f) ∈ found := by
  simp only [under, List.mem_map, Prod.exists, Prod.mk.injEq]
  constructor
  · rintro ⟨inner, f, hf, rfl, rfl⟩
    exact ⟨inner, rfl, hf⟩
  · rintro ⟨inner, rfl, hf⟩
    exact ⟨inner, f, hf, rfl, rfl⟩

theorem opens_block_iff {statements : List Stmt} {span : Span} {place : Nat} :
    (block statements span).opens place = true ↔
      ∀ u ∈ statements.take place, u.alwaysReturns = false := by
  simp [opens]

theorem mem_flowFrom_iff {statements : List Stmt} {start : Nat} :
    (path, f) ∈ flowFrom inLoop start statements ↔
      (∃ before last next after, statements = before ++ last :: next :: after ∧
        (∀ u ∈ before, u.alwaysReturns = false) ∧ last.alwaysReturns = true ∧
        path = [start + before.length + 1] ∧ f = ⟨.unreachableCode, next.span⟩) ∨
      ∃ place u inner, statements[place]? = some u ∧
        (∀ v ∈ statements.take place, v.alwaysReturns = false) ∧
        path = (start + place) :: inner ∧ (inner, f) ∈ u.flow inLoop := by
  induction statements generalizing start with
  | nil => simp [flowFrom]
  | cons s rest ih =>
    rw [flowFrom, List.mem_append, mem_under_iff]
    cases hr : s.alwaysReturns with
    | true =>
      rw [if_pos rfl]
      constructor
      · rintro (⟨inner, rfl, hf⟩ | hnext)
        · exact .inr ⟨0, s, inner, rfl, by simp, rfl, hf⟩
        · cases rest with
          | nil => cases hnext
          | cons next after =>
            cases List.mem_singleton.mp hnext
            exact .inl ⟨[], s, next, after, rfl, by simp, hr, rfl, rfl⟩
      · rintro (⟨_ | ⟨b, before⟩, last, next, after, he, live, hl, rfl, rfl⟩ |
          ⟨_ | place, u, inner, hu, live, rfl, hf⟩)
        · cases he
          exact .inr (List.mem_singleton.mpr rfl)
        · cases he
          cases hr.symm.trans (live s (by simp))
        · cases hu
          exact .inl ⟨inner, rfl, hf⟩
        · cases hr.symm.trans (live s (by simp))
    | false =>
      rw [if_neg Bool.false_ne_true, ih]
      constructor
      · rintro (⟨inner, rfl, hf⟩ | ⟨before, last, next, after, rfl, live, hl, rfl, rfl⟩ |
          ⟨place, u, inner, hu, live, rfl, hf⟩)
        · exact .inr ⟨0, s, inner, rfl, by simp, rfl, hf⟩
        · refine .inl ⟨s :: before, last, next, after, rfl, ?_, hl, ?_, rfl⟩
          · exact List.forall_mem_cons.mpr ⟨hr, live⟩
          · rw [List.length_cons, Nat.add_right_comm start, ← Nat.add_assoc]
        · refine .inr ⟨place + 1, u, inner, hu, ?_, ?_, hf⟩
          · exact List.forall_mem_cons.mpr ⟨hr, live⟩
          · rw [Nat.add_right_comm, Nat.add_assoc]
      · rintro (⟨_ | ⟨b, before⟩, last, next, after, he, live, hl, rfl, rfl⟩ |
          ⟨_ | place, u, inner, hu, live, rfl, hf⟩)
        · cases he
          cases hr.symm.trans hl
        · cases he
          refine .inr (.inl ⟨before, last, next, after, rfl, ?_, hl, ?_, rfl⟩)
          · exact (List.forall_mem_cons.mp live).2
          · rw [List.length_cons, Nat.add_right_comm start, ← Nat.add_assoc]
        · cases hu
          exact .inl ⟨inner, rfl, hf⟩
        · refine .inr (.inr ⟨place, u, inner, hu, ?_, ?_, hf⟩)
          · exact (List.forall_mem_cons.mp live).2
          · rw [Nat.add_right_comm, Nat.add_assoc]

theorem misplaces_block_iff {statements : List Stmt} {span : Span} :
    (block statements span).Misplaces inLoop path f ↔
      ∃ before last next after, statements = before ++ last :: next :: after ∧
        (∀ u ∈ before, u.alwaysReturns = false) ∧ last.alwaysReturns = true ∧
        path = [before.length + 1] ∧ f = ⟨.unreachableCode, next.span⟩ := by
  constructor
  · rintro (jump | ⟨live, returns⟩)
    · cases jump
    · exact ⟨_, _, _, _, rfl, live, returns, rfl, rfl⟩
  · rintro ⟨before, last, next, after, rfl, live, returns, rfl, rfl⟩
    exact .unreachable live returns

theorem misplaces_iff_jump (hs : ∀ statements span, s ≠ .block statements span) :
    s.Misplaces inLoop path f ↔ inLoop = false ∧ path = [] ∧
      ∃ keyword span, s.jump? = some (keyword, span) ∧
        f = ⟨.statementMustAppearInLoop keyword, span⟩ := by
  constructor
  · rintro (jump | ⟨live, returns⟩)
    · exact ⟨rfl, rfl, _, _, jump, rfl⟩
    · exact absurd rfl (hs _ _)
  · rintro ⟨rfl, rfl, keyword, span, jump, rfl⟩
    exact .jump jump

theorem mem_flow_iff :
    (path, f) ∈ s.flow inLoop ↔ s.Misplaces inLoop path f ∨
      ∃ place u inner, s.opens place = true ∧ s.children[place]? = some u ∧
        path = place :: inner ∧ (inner, f) ∈ u.flow (inLoop || s.isLoop) := by
  cases s with
  | block statements span =>
    simp only [flow, mem_flowFrom_iff, misplaces_block_iff, opens_block_iff, children, isLoop,
      loop?, Nat.zero_add, Option.isSome_none, Bool.or_false]
    grind
  | continueLoop span | breakLoop span =>
    rw [misplaces_iff_jump (by simp)]
    cases inLoop <;> simp [flow, children, jump?]
  | whileLoop condition body span | doLoop body condition span
  | forLoop init condition step body span | ifThen condition body span =>
    rw [flow, mem_under_iff, misplaces_iff_jump (by simp)]
    simp [children, opens, isLoop, loop?, jump?, List.getElem?_cons]
  | ifElse condition thenBranch elseBranch span =>
    have hchildren (place : Nat) (u : Stmt) : [thenBranch, elseBranch][place]? = some u ↔
        place = 0 ∧ u = thenBranch ∨ place = 1 ∧ u = elseBranch := by
      grind
    rw [flow, List.mem_append, mem_under_iff, mem_under_iff, misplaces_iff_jump (by simp)]
    simp [children, opens, isLoop, loop?, jump?, hchildren, or_and_right, exists_or, and_assoc]
  | ret value span | declaration d | expression e span =>
    rw [misplaces_iff_jump (by simp)]
    simp [flow, children, jump?]

/-- The problems in a statement are those of the statements that a walk through it comes to. -/
theorem mem_flow_iff_visit :
    (path, f) ∈ s.flow inLoop ↔
      ∃ outer rest u inside, path = outer ++ rest ∧ s.visit? inLoop outer = some (u, inside) ∧
        u.Misplaces inside rest f := by
  induction s using Stmt.induct generalizing inLoop path with
  | step s ih =>
    rw [mem_flow_iff]
    constructor
    · rintro (hown | ⟨place, u, inner, hopen, hu, rfl, hf⟩)
      · exact ⟨[], path, s, inLoop, rfl, rfl, hown⟩
      · obtain ⟨outer, rest, v, inside, rfl, hv, hown⟩ := (ih u (List.mem_of_getElem? hu)).mp hf
        refine ⟨place :: outer, rest, v, inside, rfl, ?_, hown⟩
        rw [visit?, if_pos hopen, hu]
        exact hv
    · rintro ⟨_ | ⟨place, outer⟩, rest, v, inside, rfl, hv, hown⟩
      · cases hv
        exact .inl hown
      · rw [visit?, Option.ite_none_right_eq_some] at hv
        obtain ⟨hopen, hv⟩ := hv
        obtain ⟨u, hu, hv⟩ := Option.bind_eq_some_iff.mp hv
        refine .inr ⟨place, u, outer ++ rest, hopen, hu, rfl, ?_⟩
        exact (ih u (List.mem_of_getElem? hu)).mpr ⟨outer, rest, v, inside, rfl, hv, hown⟩

theorem visit?_append (s : Stmt) (inLoop : Bool) (outer rest : List Nat) :
    s.visit? inLoop (outer ++ rest) =
      (s.visit? inLoop outer).bind fun found => found.1.visit? found.2 rest := by
  induction outer generalizing s inLoop with
  | nil => rfl
  | cons place outer ih =>
    rw [List.cons_append, visit?, visit?]
    split
    · rw [Option.bind_assoc]
      exact Option.bind_congr fun u _ => ih u _
    · rfl

theorem inside?_of_visit? {u : Stmt} {inside : Bool} (h : s.visit? inLoop path = some (u, inside)) :
    s.inside? path = some u := by
  induction path generalizing s inLoop with
  | nil =>
    cases h
    rfl
  | cons place path ih =>
    rw [visit?, Option.ite_none_right_eq_some] at h
    obtain ⟨v, hv, hu⟩ := Option.bind_eq_some_iff.mp h.2
    rw [inside?, hv]
    exact ih hu

theorem visit?_in_loop {u : Stmt} {inside : Bool} (h : s.visit? true path = some (u, inside)) :
    inside = true := by
  induction path generalizing s with
  | nil =>
    cases h
    rfl
  | cons place path ih =>
    rw [visit?, Option.ite_none_right_eq_some] at h
    obtain ⟨v, -, hu⟩ := Option.bind_eq_some_iff.mp h.2
    exact ih hu

theorem visit?_inside_loop {outer rest : List Nat} {loop u : Stmt} {inside : Bool}
    (hl : s.inside? outer = some loop) (hloop : loop.isLoop = true) (hr : rest ≠ [])
    (h : s.visit? inLoop (outer ++ rest) = some (u, inside)) : inside = true := by
  rw [visit?_append] at h
  obtain ⟨⟨v, flag⟩, hv, hu⟩ := Option.bind_eq_some_iff.mp h
  obtain rfl : v = loop := Option.some.inj ((inside?_of_visit? hv).symm.trans hl)
  cases rest with
  | nil => exact absurd rfl hr
  | cons place rest =>
    rw [visit?, Option.ite_none_right_eq_some] at hu
    obtain ⟨w, -, hu⟩ := Option.bind_eq_some_iff.mp hu.2
    rw [hloop, Bool.or_true] at hu
    exact visit?_in_loop hu

theorem not_mem_flow_of_loop {outer rest : List Nat} {loop : Stmt}
    (hl : s.inside? outer = some loop) (hloop : loop.isLoop = true) (hr : rest ≠ [])
    (keyword : String) (span : Span) :
    (outer ++ rest, ⟨.statementMustAppearInLoop keyword, span⟩) ∉ s.flow inLoop := by
  intro h
  obtain ⟨path, last, u, inside, he, hu, hm⟩ := mem_flow_iff_visit.mp h
  cases hm
  rw [List.append_nil] at he
  rw [← he] at hu
  cases visit?_inside_loop hl hloop hr hu

def Before (a b : List Nat × Finding) : Prop := a.1 < b.1

theorem pairwise_under {place : Nat} {found : List (List Nat × Finding)}
    (h : found.Pairwise Before) : (under place found).Pairwise Before := by
  rw [under, List.pairwise_map]
  exact h.imp fun hab => List.cons_lt_cons_iff.mpr (.inr ⟨rfl, hab⟩)

theorem before_of_mem_under {place : Nat} {found : List (List Nat × Finding)}
    {a b : List Nat × Finding} (ha : a ∈ under place found) {later : Nat} {inner : List Nat}
    (hb : b.1 = later :: inner) (hl : place < later) : Before a b := by
  obtain ⟨inner, ha, -⟩ := mem_under_iff.mp ha
  rw [Before, ha, hb]
  exact List.cons_lt_cons_iff.mpr (.inl hl)

theorem exists_cons_of_mem_flowFrom {statements : List Stmt} {start : Nat}
    {item : List Nat × Finding} (h : item ∈ flowFrom inLoop start statements) :
    ∃ place inner, item.1 = place :: inner ∧ start ≤ place := by
  obtain ⟨before, last, next, after, -, -, -, hp, -⟩ | ⟨place, u, inner, -, -, hp, -⟩ :=
    mem_flowFrom_iff.mp h
  · exact ⟨_, [], hp, by omega⟩
  · exact ⟨_, inner, hp, by omega⟩

mutual

theorem pairwise_flow (s : Stmt) (inLoop : Bool) : (s.flow inLoop).Pairwise Before := by
  cases s with
  | block statements span => exact pairwise_flowFrom statements inLoop 0
  | continueLoop span | breakLoop span => cases inLoop <;> simp [flow]
  | whileLoop condition body span | doLoop body condition span
  | forLoop init condition step body span => exact pairwise_under (body.pairwise_flow true)
  | ifThen condition thenBranch span => exact pairwise_under (thenBranch.pairwise_flow inLoop)
  | ifElse condition thenBranch elseBranch span =>
    rw [flow, List.pairwise_append]
    refine ⟨pairwise_under (thenBranch.pairwise_flow inLoop),
      pairwise_under (elseBranch.pairwise_flow inLoop), fun a ha b hb => ?_⟩
    obtain ⟨inner, hb, -⟩ := mem_under_iff.mp hb
    exact before_of_mem_under ha hb Nat.zero_lt_one
  | ret value span | declaration d | expression e span => simp [flow]

theorem pairwise_flowFrom (statements : List Stmt) (inLoop : Bool) (start : Nat) :
    (flowFrom inLoop start statements).Pairwise Before := by
  cases statements with
  | nil => simp [flowFrom]
  | cons s rest =>
    rw [flowFrom, List.pairwise_append]
    refine ⟨pairwise_under (s.pairwise_flow inLoop), ?_, fun a ha b hb => ?_⟩
    · split
      · cases rest <;> simp
      · exact pairwise_flowFrom rest inLoop (start + 1)
    · split at hb
      · obtain ⟨next, -, rfl⟩ := List.mem_map.mp hb
        exact before_of_mem_under ha rfl (Nat.lt_succ_self start)
      · obtain ⟨place, inner, hb, hle⟩ := exists_cons_of_mem_flowFrom hb
        exact before_of_mem_under ha hb hle

end

end Walk

end Stmt

variable [Alphabet]

/-- Which problems of control flow the check of a block reports is decided by a walk through its
statements that looks at no name and no type. It reports, in the order of the source, the jumps that
the walk meets outside of all loops, and what stands behind the statements that always return. -/
theorem flow_reported_by_walk (b : Block) (scopes : ScopeStack) (ctx : Context) :
    let walk := b.toStmt.flow (scopes.hasKind .loop)
    (∃ found, (ctx.run (b.check scopes)).2.diagnostics = ctx.diagnostics ++ found ∧
      found.filter (·.problem.isFlow) = walk.map fun item => item.2.inFile ctx.file) ∧
    walk.Pairwise Stmt.Before ∧
    (∀ path f, (path, f) ∈ walk ↔ ∃ outer rest u inLoop, path = outer ++ rest ∧
      b.toStmt.visit? (scopes.hasKind .loop) outer = some (u, inLoop) ∧
      u.Misplaces inLoop rest f) ∧
    ∀ outer rest loop keyword span, b.toStmt.inside? outer = some loop → loop.isLoop = true →
      rest ≠ [] → (outer ++ rest, ⟨.statementMustAppearInLoop keyword, span⟩) ∉ walk := by
  intro walk
  refine ⟨⟨_, rfl, ?_⟩, b.toStmt.pairwise_flow _, fun path f => Stmt.mem_flow_iff_visit, ?_⟩
  · have hfound := congrArg (List.map fun f => f.inFile ctx.file)
      (b.toStmt.flows_check.findings scopes ctx.classes)
    rw [List.map_map] at hfound
    rw [List.filter_map]
    exact hfound
  · intro outer rest loop keyword span hl hloop hr
    exact Stmt.not_mem_flow_of_loop hl hloop hr keyword span

/-- A block of names that stand for nothing:
`{ if (a) break; while (b) { if (c) break; continue; } return d; break; }` -/
def jumpyBlock : Block :=
  let name (text : String) : Expr := .ident (.provided text)
  let place (line : UInt32) : Span := ⟨⟨line, 0, 10 * line⟩, ⟨line, 9, 10 * line + 9⟩⟩
  let inner : Stmt := .block [.ifThen (name "c") (.breakLoop (place 3)) (place 3),
    .continueLoop (place 4)] ⟨(place 2).start, (place 4).stop⟩
  let loop : Stmt := .whileLoop (name "b") inner ⟨(place 2).start, (place 4).stop⟩
  ⟨[.ifThen (name "a") (.breakLoop (place 1)) (place 1), loop, .ret (some (name "d")) (place 5),
    .breakLoop (place 6)], ⟨(place 1).start, (place 6).stop⟩⟩

end ClassLang

namespace ClassLang

attribute [local instance] Alphabet.unicode

theorem flow_reported_by_walk_in_jumpyBlock :
    let walk := jumpyBlock.toStmt.flow false
    let place (line : UInt32) : Span := ⟨⟨line, 0, 10 * line⟩, ⟨line, 9, 10 * line + 9⟩⟩
    let ctx : Context := { file := "Main.lang" }
    (ctx.run (jumpyBlock.check [])).2.diagnostics.map (·.problem.name) =
        ["IdentifierNotFound", "StatementMustAppearInLoop", "IdentifierNotFound",
          "IdentifierNotFound", "ReturnOutsideFunction", "UnreachableCodeDetected"] ∧
      walk = [([0, 0], ⟨.statementMustAppearInLoop "break", place 1⟩),
        ([3], ⟨.unreachableCode, place 6⟩)] ∧
      (∃ loop, jumpyBlock.toStmt.inside? [1] = some loop ∧ loop.isLoop = true) ∧
      jumpyBlock.toStmt.inside? [1, 0, 0, 0] = some (.breakLoop (place 3)) ∧
      ([1, 0, 0, 0], ⟨.statementMustAppearInLoop "break", place 3⟩) ∉ walk := by
  intro walk place ctx
  refine ⟨by decide +kernel, by decide +kernel, ⟨_, rfl, rfl⟩, rfl, ?_⟩
  exact (flow_reported_by_walk jumpyBlock [] ctx).2.2.2 [1] [0, 0, 0] _ "break" (place 3) rfl rfl
    (by simp)

end ClassLang
