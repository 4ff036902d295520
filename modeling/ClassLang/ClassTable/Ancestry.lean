import ClassLang.ClassTable.Basic

namespace ClassLang

/-- Where the way up the base names of a class ends. -/
inductive ChainEnd where
  | root
  | unknown (name : String)
  /-- At a name that was met before. -/
  | repeated (name : String)
  deriving DecidableEq, Repr

structure Chain where
  ancestors : List ClassDef
  ending : ChainEnd

namespace ClassTable

def unvisited (visited : List String) (classes : List ClassDef) : Nat :=
  classes.countP (fun c => !visited.contains c.name)

theorem unvisited_lt {c : ClassDef} {visited : List String} {classes : List ClassDef}
    (hc : c ∈ classes) (hv : c.name ∉ visited) :
    unvisited (c.name :: visited) classes < unvisited visited classes := by
  have step (d : ClassDef) :
      (!(c.name :: visited).contains d.name) = true → (!visited.contains d.name) = true := by
    simp only [List.contains_cons, Bool.not_or, Bool.and_eq_true]
    exact fun h => h.2
  induction classes with
  | nil => cases hc
  | cons d classes ih =>
    have hw : unvisited (c.name :: visited) classes ≤ unvisited visited classes :=
      List.countP_mono_left (fun d _ => step d)
    simp only [unvisited, List.countP_cons] at hw ih ⊢
    by_cases hd : d.name = c.name
    · have hn : (!visited.contains d.name) = true := by simpa [hd] using hv
      have ho : (!(c.name :: visited).contains d.name) = false := by simp [hd]
      rw [hn, ho]
      simp only [Bool.false_eq_true, ↓reduceIte]
      omega
    · have hm : c ∈ classes := (List.mem_cons.mp hc).resolve_left (fun h => hd (h ▸ rfl))
      have hl := ih hm
      have ho : (!(c.name :: visited).contains d.name) = (!visited.contains d.name) := by
        simp [hd]
      rw [ho]
      omega

/-- Follow base names upwards, never to a name in `visited`. Each step visits another registered
class, so there are no more steps than classes. -/
def climb (table : ClassTable) (visited : List String) : Option String → Chain
  | none => ⟨[], .root⟩
  | some name =>
    if _hv : name ∈ visited then ⟨[], .repeated name⟩
    else
      match _hc : table.get? name with
      | none => ⟨[], .unknown name⟩
      | some c =>
        let rest := climb table (name :: visited) c.baseName?
        ⟨c :: rest.ancestors, rest.ending⟩
termination_by unvisited visited table.classes
decreasing_by
  rw [← get?_name _hc] at _hv ⊢
  exact unvisited_lt (mem_of_get? _hc) _hv

/-- The chain of a class. The class need not be registered itself. -/
def chain (table : ClassTable) (c : ClassDef) : Chain := table.climb [c.name] c.baseName?

/-- The ancestors of a class, nearest first. On a cyclic chain each class is listed once. -/
def ancestors (table : ClassTable) (c : ClassDef) : List ClassDef := (table.chain c).ancestors

def isCyclic (table : ClassTable) (c : ClassDef) : Bool :=
  match (table.chain c).ending with
  | .repeated _ => true
  | .root | .unknown _ => false

def baseOf? (table : ClassTable) (c : ClassDef) : Option ClassDef := c.baseName?.bind table.get?

def lineage (table : ClassTable) (name : String) : List ClassDef :=
  match table.get? name with
  | some c => c :: table.ancestors c
  | none => []

def isAncestor (table : ClassTable) (ancestor name : String) : Bool :=
  match table.get? name with
  | some c => (table.ancestors c).any (fun a => a.name == ancestor)
  | none => false

end ClassTable

end ClassLang
