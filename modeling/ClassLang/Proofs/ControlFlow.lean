import ClassLang.Program.Stmt
import Mathlib.Data.List.Basic

namespace ClassLang

inductive Exit where
  | onward
  | returned
  | broke
  | continued
  deriving DecidableEq, Repr

/-- How a loop ends once its body has ended so. It does not, if it goes on to its next test. -/
def Exit.fromLoop? : Exit → Option Exit
  | .broke => some .onward
  | .returned => some .returned
  | .onward | .continued => none

/-- A loop: what it repeats, and whether it has a test that may end it before the first turn and
after a turn. -/
structure Loop where
  body : Stmt
  skips : Bool
  stops : Bool

namespace Stmt

/-- The loop that a statement is. A `for` without a condition has no test that may end it. -/
def loop? : Stmt → Option Loop
  | .whileLoop _ body _ => some ⟨body, true, true⟩
  | .doLoop body _ _ => some ⟨body, false, true⟩
  | .forLoop _ condition _ body _ => some ⟨body, condition.isSome, condition.isSome⟩
  | _ => none

/-- An execution of the statement may end so. -/
inductive Ends : Stmt → Exit → Prop
  | blockDone {span : Span} : Ends (.block [] span) .onward
  | blockLeft {s : Stmt} {rest : List Stmt} {span : Span} {exit : Exit} (first : Ends s exit)
      (leaves : exit ≠ .onward) : Ends (.block (s :: rest) span) exit
  | blockNext {s : Stmt} {rest : List Stmt} {span : Span} {exit : Exit} (first : Ends s .onward)
      (next : Ends (.block rest span) exit) : Ends (.block (s :: rest) span) exit
  | continueLoop {span : Span} : Ends (.continueLoop span) .continued
  | breakLoop {span : Span} : Ends (.breakLoop span) .broke
  | ret {value : Option Expr} {span : Span} : Ends (.ret value span) .returned
  | declaration {d : Declaration} : Ends (.declaration d) .onward
  | expression {e : Expr} {span : Span} : Ends (.expression e span) .onward
  | skipped {condition : Expr} {thenBranch : Stmt} {span : Span} :
      Ends (.ifThen condition thenBranch span) .onward
  | taken {condition : Expr} {thenBranch : Stmt} {span : Span} {exit : Exit}
      (branch : Ends thenBranch exit) : Ends (.ifThen condition thenBranch span) exit
  | thenTaken {condition : Expr} {thenBranch elseBranch : Stmt} {span : Span} {exit : Exit}
      (branch : Ends thenBranch exit) : Ends (.ifElse condition thenBranch elseBranch span) exit
  | elseTaken {condition : Expr} {thenBranch elseBranch : Stmt} {span : Span} {exit : Exit}
      (branch : Ends elseBranch exit) : Ends (.ifElse condition thenBranch elseBranch span) exit
  | loopSkipped {s : Stmt} {l : Loop} (loop : s.loop? = some l) (test : l.skips = true) :
      Ends s .onward
  | loopStopped {s : Stmt} {l : Loop} {inner : Exit} (loop : s.loop? = some l)
      (turn : Ends l.body inner) (stays : inner.fromLoop? = none) (test : l.stops = true) :
      Ends s .onward
  | loopLeft {s : Stmt} {l : Loop} {inner exit : Exit} (loop : s.loop? = some l)
      (turn : Ends l.body inner) (leaves : inner.fromLoop? = some exit) : Ends s exit
  | loopNext {s : Stmt} {l : Loop} {inner exit : Exit} (loop : s.loop? = some l)
      (turn : Ends l.body inner) (stays : inner.fromLoop? = none) (next : Ends s exit) :
      Ends s exit

end Stmt

/-- Whether a loop can end so, if `inner` says how its body can. Further turns open no other way
out. -/
def Loop.canEnd (l : Loop) (inner : Exit → Bool) : Exit → Bool
  | .onward => l.skips || inner .broke || l.stops && (inner .onward || inner .continued)
  | .returned => inner .returned
  | .broke | .continued => false

namespace Stmt

mutual

def canEnd : Stmt → Exit → Bool
  | .block statements _, exit => canEndAll statements exit
  | .continueLoop _, exit => exit == .continued
  | .breakLoop _, exit => exit == .broke
  | .ret .., exit => exit == .returned
  | .declaration _, exit | .expression .., exit => exit == .onward
  | .ifThen _ thenBranch _, exit => exit == .onward || thenBranch.canEnd exit
  | .ifElse _ thenBranch elseBranch _, exit => thenBranch.canEnd exit || elseBranch.canEnd exit
  | .whileLoop _ body _, exit => Loop.canEnd ⟨body, true, true⟩ body.canEnd exit
  | .doLoop body _ _, exit => Loop.canEnd ⟨body, false, true⟩ body.canEnd exit
  | .forLoop _ condition _ body _, exit =>
    Loop.canEnd ⟨body, condition.isSome, condition.isSome⟩ body.canEnd exit

def canEndAll : List Stmt → Exit → Bool
  | [], exit => exit == .onward
  | s :: rest, exit => exit != .onward && s.canEnd exit || s.canEnd .onward && canEndAll rest exit

end

theorem canEnd_loop {s : Stmt} {l : Loop} (loop : s.loop? = some l) (exit : Exit) :
    s.canEnd exit = l.canEnd l.body.canEnd exit := by
  cases s with
  | whileLoop condition body span =>
    cases loop
    rw [canEnd]
  | doLoop body condition span =>
    cases loop
    rw [canEnd]
  | forLoop init condition step body span =>
    cases loop
    rw [canEnd]
  | _ => cases loop

theorem Ends.canEnd {s : Stmt} {exit : Exit} (h : s.Ends exit) : s.canEnd exit = true := by
  induction h with
  | blockDone | continueLoop | breakLoop | ret | declaration | expression =>
    simp [Stmt.canEnd, canEndAll]
  | blockLeft first leaves ih => simp [Stmt.canEnd, canEndAll, leaves, ih]
  | blockNext first next ih ihNext =>
    rw [Stmt.canEnd] at ihNext
    simp [Stmt.canEnd, canEndAll, ih, ihNext]
  | skipped => simp [Stmt.canEnd]
  | taken branch ih | thenTaken branch ih | elseTaken branch ih => simp [Stmt.canEnd, ih]
  | loopSkipped loop test => simp [canEnd_loop loop, Loop.canEnd, test]
  | @loopStopped s l inner loop turn stays test ih =>
    rw [canEnd_loop loop]
    cases inner with
    | onward | continued => simp [Loop.canEnd, ih, test]
    | returned | broke => cases stays
  | @loopLeft s l inner exit loop turn leaves ih =>
    rw [canEnd_loop loop]
    cases inner with
    | broke | returned =>
      cases leaves
      simp [Loop.canEnd, ih]
    | onward | continued => cases leaves
  | loopNext loop turn stays next ih ihNext => exact ihNext

theorem ends_of_canEnd_loop {s : Stmt} {l : Loop} (loop : s.loop? = some l) {exit : Exit}
    (body : ∀ inner, l.body.canEnd inner = true → l.body.Ends inner)
    (h : s.canEnd exit = true) : s.Ends exit := by
  rw [canEnd_loop loop] at h
  cases exit with
  | onward =>
    simp only [Loop.canEnd, Bool.or_eq_true, Bool.and_eq_true] at h
    obtain (skips | broke) | ⟨stops, onward | continued⟩ := h
    · exact .loopSkipped loop skips
    · exact .loopLeft loop (body .broke broke) rfl
    · exact .loopStopped loop (body .onward onward) rfl stops
    · exact .loopStopped loop (body .continued continued) rfl stops
  | returned => exact .loopLeft loop (body .returned h) rfl
  | broke | continued => cases h

mutual

theorem ends_of_canEnd (s : Stmt) {exit : Exit} (h : s.canEnd exit = true) : s.Ends exit := by
  cases s with
  | block statements span =>
    rw [canEnd] at h
    exact ends_of_canEndAll statements h span
  | continueLoop span =>
    obtain rfl : exit = .continued := by simpa [canEnd] using h
    exact .continueLoop
  | breakLoop span =>
    obtain rfl : exit = .broke := by simpa [canEnd] using h
    exact .breakLoop
  | ret value span =>
    obtain rfl : exit = .returned := by simpa [canEnd] using h
    exact .ret
  | declaration d =>
    obtain rfl : exit = .onward := by simpa [canEnd] using h
    exact .declaration
  | expression e span =>
    obtain rfl : exit = .onward := by simpa [canEnd] using h
    exact .expression
  | ifThen condition thenBranch span =>
    simp only [canEnd, Bool.or_eq_true, beq_iff_eq] at h
    obtain rfl | branch := h
    · exact .skipped
    · exact .taken (ends_of_canEnd thenBranch branch)
  | ifElse condition thenBranch elseBranch span =>
    simp only [canEnd, Bool.or_eq_true] at h
    obtain branch | branch := h
    · exact .thenTaken (ends_of_canEnd thenBranch branch)
    · exact .elseTaken (ends_of_canEnd elseBranch branch)
  | whileLoop condition body span =>
    exact ends_of_canEnd_loop rfl (fun _ => ends_of_canEnd body) h
  | doLoop body condition span =>
    exact ends_of_canEnd_loop rfl (fun _ => ends_of_canEnd body) h
  | forLoop init condition step body span =>
    exact ends_of_canEnd_loop rfl (fun _ => ends_of_canEnd body) h

theorem ends_of_canEndAll (statements : List Stmt) {exit : Exit}
    (h : canEndAll statements exit = true) (span : Span) : (block statements span).Ends exit := by
  cases statements with
  | nil =>
    obtain rfl : exit = .onward := by simpa [canEndAll] using h
    exact .blockDone
  | cons s rest =>
    simp only [canEndAll, Bool.or_eq_true, Bool.and_eq_true, bne_iff_ne] at h
    obtain ⟨leaves, first⟩ | ⟨first, next⟩ := h
    · exact .blockLeft (ends_of_canEnd s first) leaves
    · exact .blockNext (ends_of_canEnd s first) (ends_of_canEndAll rest next span)

end

theorem ends_iff_canEnd {s : Stmt} {exit : Exit} : s.Ends exit ↔ s.canEnd exit = true :=
  ⟨Ends.canEnd, ends_of_canEnd s⟩

instance (s : Stmt) (exit : Exit) : Decidable (s.Ends exit) :=
  decidable_of_iff _ ends_iff_canEnd.symm

theorem ends_block_onward_iff {statements : List Stmt} {span : Span} :
    (block statements span).Ends .onward ↔ ∀ u ∈ statements, u.Ends .onward := by
  simp only [ends_iff_canEnd, canEnd]
  induction statements with
  | nil => simp [canEndAll]
  | cons s rest ih => simp [canEndAll, ih]

theorem not_ends_ret_onward {value : Option Expr} {span : Span} :
    ¬ (ret value span).Ends .onward := by
  simp [ends_iff_canEnd, canEnd]

theorem ends_ifElse_iff {condition : Expr} {thenBranch elseBranch : Stmt} {span : Span}
    {exit : Exit} :
    (ifElse condition thenBranch elseBranch span).Ends exit ↔
      thenBranch.Ends exit ∨ elseBranch.Ends exit := by
  simp [ends_iff_canEnd, canEnd]

/-- A `do` is passed unless each turn of its body returns. -/
theorem ends_doLoop_onward_iff {condition : Expr} {body : Stmt} {span : Span} :
    (doLoop body condition span).Ends .onward ↔
      body.Ends .broke ∨ body.Ends .onward ∨ body.Ends .continued := by
  simp [ends_iff_canEnd, canEnd, Loop.canEnd]

def children : Stmt → List Stmt
  | .block statements _ => statements
  | .whileLoop _ body _ | .doLoop body _ _ | .forLoop _ _ _ body _ => [body]
  | .ifThen _ thenBranch _ => [thenBranch]
  | .ifElse _ thenBranch elseBranch _ => [thenBranch, elseBranch]
  | _ => []

mutual

theorem induct {motive : Stmt → Prop}
    (step : ∀ s : Stmt, (∀ u ∈ s.children, motive u) → motive s) (s : Stmt) : motive s := by
  apply step
  cases s with
  | block statements span => exact inductAll step statements
  | whileLoop condition body span | doLoop body condition span
  | forLoop init condition loopStep body span | ifThen condition body span =>
    exact List.forall_mem_singleton.mpr (induct step body)
  | ifElse condition thenBranch elseBranch span =>
    refine List.forall_mem_cons.mpr ⟨induct step thenBranch, ?_⟩
    exact List.forall_mem_singleton.mpr (induct step elseBranch)
  | _ => exact List.forall_mem_nil _

theorem inductAll {motive : Stmt → Prop}
    (step : ∀ s : Stmt, (∀ u ∈ s.children, motive u) → motive s) (statements : List Stmt) :
    ∀ u ∈ statements, motive u := by
  cases statements with
  | nil => exact List.forall_mem_nil _
  | cons s rest => exact List.forall_mem_cons.mpr ⟨induct step s, inductAll step rest⟩

end

/-- The statement that a path leads to: each number of it is a place right inside. -/
def inside? : Stmt → List Nat → Option Stmt
  | s, [] => some s
  | s, place :: path => s.children[place]?.bind fun u => u.inside? path

/-- An execution of the statement may come to the place right inside it. In a block it has to pass
what stands before. -/
def Enters : Stmt → Nat → Prop
  | .block statements _, place => ∀ u ∈ statements.take place, u.Ends .onward
  | _, _ => True

inductive Arrives : Stmt → List Nat → Prop
  | here {s : Stmt} : Arrives s []
  | inside {s u : Stmt} {place : Nat} {path : List Nat} (child : s.children[place]? = some u)
      (enters : s.Enters place) (inner : Arrives u path) : Arrives s (place :: path)

end Stmt

end ClassLang
