import ClassLang.Scope
import Mathlib.Data.List.Nodup

namespace ClassLang.ScopeStack

def extend (added : List Variable) : ScopeStack → ScopeStack
  | [] => []
  | s :: outer => ⟨s.kind, s.owner, s.declared ++ added⟩ :: outer

@[simp]
theorem extend_nil (scopes : ScopeStack) : scopes.extend [] = scopes := by
  cases scopes with
  | nil => rfl
  | cons s outer => simp [extend]

@[simp]
theorem extend_extend (scopes : ScopeStack) (first second : List Variable) :
    (scopes.extend first).extend second = scopes.extend (first ++ second) := by
  cases scopes with
  | nil => rfl
  | cons s outer => simp [extend]

@[simp]
theorem pop_extend_push (scopes : ScopeStack) (kind : ScopeKind) (owner : ScopeOwner)
    (added : List Variable) : ((scopes.push kind owner).extend added).pop = scopes := rfl

@[simp]
theorem currentMember?_extend (scopes : ScopeStack) (added : List Variable) :
    (scopes.extend added).currentMember? = scopes.currentMember? := by
  cases scopes <;> rfl

@[simp]
theorem currentClass?_extend (scopes : ScopeStack) (added : List Variable) :
    (scopes.extend added).currentClass? = scopes.currentClass? := by
  cases scopes <;> rfl

def live (scopes : ScopeStack) : List Variable := scopes.flatMap Scope.declared

def liveNames (scopes : ScopeStack) : List String :=
  scopes.flatMap fun s => s.declared.map Variable.name

theorem liveNames_eq (scopes : ScopeStack) : scopes.liveNames = scopes.live.map Variable.name :=
  (List.map_flatMap ..).symm

theorem lookup?_isSome_iff {scopes : ScopeStack} {name : String} :
    (scopes.lookup? name).isSome = true ↔ name ∈ scopes.liveNames := by
  simp [lookup?, Scope.find?, liveNames, List.findSome?_isSome_iff]

/-- A variable can be declared exactly if there is a scope for it and its name is not live. It goes
to the end of the innermost scope. -/
theorem declare_eq_ok_iff {scopes inner : ScopeStack} {v : Variable} :
    scopes.declare v = .ok inner ↔
      scopes ≠ [] ∧ v.name ∉ scopes.liveNames ∧ inner = scopes.extend [v] := by
  rw [← lookup?_isSome_iff]
  by_cases hlive : (scopes.lookup? v.name).isSome = true
  · simp [declare.eq_def, hlive]
  · cases scopes with
    | nil => simp [declare, hlive]
    | cons s outer =>
      rw [declare, if_neg hlive]
      simp [hlive, extend, eq_comm]

theorem eq_extend_of_declare {scopes inner : ScopeStack} {v : Variable}
    (h : scopes.declare v = .ok inner) : inner = scopes.extend [v] := (declare_eq_ok_iff.mp h).2.2

/-- Those of some variables that can be declared, if they are declared one after the other. -/
def admitted (scopes : ScopeStack) : List Variable → List Variable
  | [] => []
  | v :: rest =>
    match scopes.declare v with
    | .ok inner => v :: inner.admitted rest
    | .error _ => scopes.admitted rest

theorem admitted_cons (scopes : ScopeStack) (v : Variable) (rest : List Variable) :
    scopes.admitted (v :: rest) =
      scopes.admitted [v] ++ (scopes.extend (scopes.admitted [v])).admitted rest := by
  cases hd : scopes.declare v with
  | ok inner =>
    obtain rfl := eq_extend_of_declare hd
    simp [admitted, hd]
  | error problem => simp [admitted, hd]

/-- No name is live twice, be it in one scope or in several. -/
def Distinct (scopes : ScopeStack) : Prop := scopes.liveNames.Nodup

theorem lookup?_of_mem_live {scopes : ScopeStack} (hd : scopes.Distinct) {x : Variable}
    (hx : x ∈ scopes.live) : scopes.lookup? x.name = some x := by
  have hl : scopes.lookup? x.name = scopes.live.find? (fun v => v.name == x.name) :=
    List.find?_flatMap.symm
  rw [Distinct, liveNames_eq] at hd
  rw [hl]
  generalize scopes.live = live at hd hx
  induction live with
  | nil => cases hx
  | cons v live ih =>
    rw [List.map_cons, List.nodup_cons] at hd
    obtain rfl | hm := List.mem_cons.mp hx
    · simp
    · have hne : v.name ≠ x.name := fun he => hd.1 (he ▸ List.mem_map_of_mem hm)
      rw [List.find?_cons_of_neg (by simpa using hne)]
      exact ih hd.2 hm

theorem Distinct.push {scopes : ScopeStack} (h : scopes.Distinct) (kind : ScopeKind)
    (owner : ScopeOwner) : (scopes.push kind owner).Distinct := h

theorem Distinct.pop {scopes : ScopeStack} (h : scopes.Distinct) : scopes.pop.Distinct := by
  cases scopes with
  | nil => exact h
  | cons s outer => exact (List.nodup_append.mp h).2.1

theorem Distinct.declare {scopes inner : ScopeStack} (h : scopes.Distinct) {v : Variable}
    (hd : scopes.declare v = .ok inner) : inner.Distinct := by
  obtain ⟨hne, hfresh, rfl⟩ := declare_eq_ok_iff.mp hd
  cases scopes with
  | nil => exact absurd rfl hne
  | cons s outer =>
    have hnames : (extend [v] (s :: outer)).liveNames =
        s.declared.map Variable.name ++ v.name :: liveNames outer := by
      simp [extend, liveNames]
    rw [Distinct, hnames, List.nodup_middle]
    exact List.nodup_cons.mpr ⟨hfresh, h⟩

end ClassLang.ScopeStack
