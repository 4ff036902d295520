import ClassLang.Proofs.Scripts
import Mathlib.Data.List.Infix

namespace ClassLang

namespace ScopeStack

inductive Move where
  | push (kind : ScopeKind) (owner : ScopeOwner)
  | pop
  | declare (v : Variable)

/-- The scopes after a move. If a variable can not be declared, they stay as they are. -/
def move (scopes : ScopeStack) : Move → ScopeStack
  | .push kind owner => scopes.push kind owner
  | .pop => scopes.pop
  | .declare v =>
    match scopes.declare v with
    | .ok inner => inner
    | .error _ => scopes

def run (scopes : ScopeStack) (moves : List Move) : ScopeStack := moves.foldl move scopes

def DeclaresInside (outer : ScopeStack) (v : Variable) (scopes : ScopeStack) : Prop :=
  ∃ inner s, scopes = inner ++ s :: outer ∧ v ∈ s.declared

variable {scopes outer : ScopeStack} {v : Variable}

theorem move_declare_of_ok {inner : ScopeStack} (h : scopes.declare v = .ok inner) :
    scopes.move (.declare v) = inner := by
  rw [move, h]

theorem move_declare_of_error {problem : Problem} (h : scopes.declare v = .error problem) :
    scopes.move (.declare v) = scopes := by
  rw [move, h]

theorem Distinct.move (h : scopes.Distinct) (m : Move) : (scopes.move m).Distinct := by
  cases m with
  | push kind owner => exact h.push kind owner
  | pop => exact h.pop
  | declare v =>
    cases hd : scopes.declare v with
    | ok inner =>
      rw [move_declare_of_ok hd]
      exact h.declare hd
    | error problem => rwa [move_declare_of_error hd]

theorem Distinct.run (h : scopes.Distinct) (moves : List Move) : (scopes.run moves).Distinct := by
  induction moves generalizing scopes with
  | nil => exact h
  | cons m moves ih => exact ih (h.move m)

theorem DeclaresInside.extend (h : DeclaresInside outer v scopes) (added : List Variable) :
    DeclaresInside outer v (scopes.extend added) := by
  obtain ⟨inner, s, rfl, hv⟩ := h
  cases inner with
  | nil => exact ⟨[], ⟨s.kind, s.owner, s.declared ++ added⟩, rfl, List.mem_append_left _ hv⟩
  | cons top inner => exact ⟨⟨top.kind, top.owner, top.declared ++ added⟩ :: inner, s, rfl, hv⟩

theorem DeclaresInside.move (h : DeclaresInside outer v scopes) {m : Move}
    (hopen : outer.length < (scopes.move m).length) : DeclaresInside outer v (scopes.move m) := by
  cases m with
  | push kind owner =>
    obtain ⟨inner, s, rfl, hv⟩ := h
    exact ⟨⟨kind, owner, []⟩ :: inner, s, rfl, hv⟩
  | pop =>
    obtain ⟨inner, s, rfl, hv⟩ := h
    cases inner with
    | nil => exact absurd hopen (Nat.lt_irrefl _)
    | cons top inner => exact ⟨inner, s, rfl, hv⟩
  | declare w =>
    cases hd : scopes.declare w with
    | ok grown =>
      rw [move_declare_of_ok hd, eq_extend_of_declare hd]
      exact h.extend [w]
    | error problem => rwa [move_declare_of_error hd]

theorem DeclaresInside.run (h : DeclaresInside outer v scopes) {moves : List Move}
    (hopen : ∀ first, first <+: moves → outer.length < (scopes.run first).length) :
    DeclaresInside outer v (scopes.run moves) := by
  induction moves generalizing scopes with
  | nil => exact h
  | cons m moves ih =>
    have hm : DeclaresInside outer v (scopes.move m) :=
      h.move (hopen [m] (List.cons_prefix_cons.mpr ⟨rfl, List.nil_prefix⟩))
    exact ih hm fun first hf => hopen (m :: first) (List.cons_prefix_cons.mpr ⟨rfl, hf⟩)

theorem DeclaresInside.lookup? (h : DeclaresInside outer v scopes) (hd : scopes.Distinct) :
    scopes.lookup? v.name = some v := by
  obtain ⟨inner, s, rfl, hv⟩ := h
  exact lookup?_of_mem_live hd (List.mem_flatMap.mpr ⟨s, by simp, hv⟩)

theorem DeclaresInside.lookup?_pop (h : DeclaresInside outer v scopes) (hd : scopes.Distinct)
    (hlast : scopes.length = outer.length + 1) : scopes.pop.lookup? v.name = none := by
  obtain ⟨inner, s, rfl, hv⟩ := h
  cases inner with
  | nil =>
    have hfresh : v.name ∉ liveNames outer := fun hm =>
      (List.nodup_append.mp hd).2.2 v.name (List.mem_map_of_mem hv) v.name hm rfl
    rw [← lookup?_isSome_iff] at hfresh
    exact Option.not_isSome_iff_eq_none.mp hfresh
  | cons top inner =>
    simp only [List.length_append, List.length_cons] at hlast
    omega

theorem declaresInside_of_declare {inner : ScopeStack} (h : scopes.declare v = .ok inner) :
    scopes.length = scopes.pop.length + 1 ∧ DeclaresInside scopes.pop v inner := by
  obtain ⟨hne, -, rfl⟩ := declare_eq_ok_iff.mp h
  cases scopes with
  | nil => exact absurd rfl hne
  | cons s outer =>
    exact ⟨rfl, [], ⟨s.kind, s.owner, s.declared ++ [v]⟩, rfl, List.mem_append_right _ (by simp)⟩

/-- Whatever is done to scopes that are empty at first, no name is live twice. A variable can be
declared exactly if there is a scope and its name is not live; otherwise nothing changes. From then
on it is what its name stands for, as long as there are not fewer scopes than when it was declared;
and when its scope is left, its name stands for nothing. -/
theorem no_shadowing (moves : List Move) :
    let scopes := run [] moves
    scopes.Distinct ∧
    (∀ v, (∃ inner, scopes.declare v = .ok inner) ↔ scopes ≠ [] ∧ v.name ∉ scopes.liveNames) ∧
    (∀ v problem, scopes.declare v = .error problem →
      ∀ place table, (Scoped.declare v place scopes table).result = (true, scopes)) ∧
    ∀ v inner, scopes.declare v = .ok inner →
      (∀ place table, (Scoped.declare v place scopes table).result = (false, inner)) ∧
      ∀ later, (∀ first, first <+: later → scopes.length ≤ (inner.run first).length) →
        (inner.run later).lookup? v.name = some v ∧
          ((inner.run later).length = scopes.length →
            (inner.run later).pop.lookup? v.name = none) := by
  intro scopes
  have hempty : Distinct [] := List.nodup_nil
  have hdistinct : scopes.Distinct := hempty.run moves
  refine ⟨hdistinct, fun v => ?_, fun v problem hd place table => ?_, fun v inner hd =>
    ⟨fun place table => ?_, fun later hopen => ?_⟩⟩
  · simp only [declare_eq_ok_iff, exists_and_left, exists_eq, and_true]
  · rw [Scoped.declare, hd]
    rfl
  · rw [Scoped.declare, hd]
    rfl
  · obtain ⟨hlength, hinside⟩ := declaresInside_of_declare hd
    have hlater : DeclaresInside scopes.pop v (inner.run later) := by
      refine hinside.run fun first hf => ?_
      have hdepth := hopen first hf
      omega
    have hrun : (inner.run later).Distinct := (hdistinct.declare hd).run later
    exact ⟨hlater.lookup? hrun, fun hlast => hlater.lookup?_pop hrun (hlast.trans hlength)⟩

/-- In a block inside the scope of `x` another `x` can not be declared, but `y` can. -/
theorem no_shadowing_in_inner_block :
    let x : Variable := ⟨"x", .primitive .int, true⟩
    let scopes := run [] [.push .function .code]
    let later : List Move := [.push .block .code, .declare ⟨"x", .bool, true⟩,
      .declare ⟨"y", .bool, true⟩, .pop]
    ∃ inner, scopes.declare x = .ok inner ∧
      (∀ first, first <+: later → scopes.length ≤ (inner.run first).length) ∧
      (inner.run later).length = scopes.length ∧
      (inner.run later).lookup? "x" = some x ∧ (inner.run later).pop.lookup? "x" = none := by
  intro x scopes later
  have hd : scopes.declare x = .ok [⟨.function, .code, [x]⟩] := rfl
  have hopen : ∀ first ∈ later.inits,
      scopes.length ≤ (run [⟨.function, .code, [x]⟩] first).length := by decide
  have hprefix : ∀ first, first <+: later →
      scopes.length ≤ (run [⟨.function, .code, [x]⟩] first).length :=
    fun first hf => hopen first ((List.mem_inits first later).mpr hf)
  obtain ⟨-, -, -, hlife⟩ := no_shadowing [.push .function .code]
  obtain ⟨hfound, hgone⟩ := (hlife x _ hd).2 later hprefix
  exact ⟨_, hd, hprefix, rfl, hfound, hgone rfl⟩

end ScopeStack

end ClassLang
