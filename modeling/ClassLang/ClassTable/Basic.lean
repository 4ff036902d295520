import ClassLang.Program.Class

namespace ClassLang

/-- The known classes, in the order in which their names were first registered. A name has one
definition. -/
@[ext]
structure ClassTable where
  classes : List ClassDef
  nodup : (classes.map ClassDef.name).Nodup

namespace ClassTable

def empty : ClassTable := ⟨[], List.nodup_nil⟩

def names (table : ClassTable) : List String := table.classes.map ClassDef.name

def size (table : ClassTable) : Nat := table.classes.length

def get? (table : ClassTable) (name : String) : Option ClassDef :=
  table.classes.find? (fun c => c.name == name)

def contains (table : ClassTable) (name : String) : Bool := (table.get? name).isSome

def replace (c : ClassDef) (classes : List ClassDef) : List ClassDef :=
  classes.map fun d => if d.name = c.name then c else d

theorem map_name_replace (c : ClassDef) (classes : List ClassDef) :
    (replace c classes).map ClassDef.name = classes.map ClassDef.name := by
  rw [replace, List.map_map]
  apply List.map_congr_left
  intro d _
  simp only [Function.comp_apply]
  split <;> simp_all

/-- Register a class under its name. A later class of the same name takes the place of the
earlier. -/
def register (table : ClassTable) (c : ClassDef) : ClassTable :=
  if h : c.name ∈ table.names then
    ⟨replace c table.classes, map_name_replace c table.classes ▸ table.nodup⟩
  else
    ⟨table.classes ++ [c], by
      rw [List.map_append, List.nodup_append]
      refine ⟨table.nodup, by simp, ?_⟩
      intro a ha b hb
      simp only [List.map_cons, List.map_nil, List.mem_singleton] at hb
      subst hb
      exact fun he => h (he ▸ ha)⟩

def registerAll (table : ClassTable) (classes : List ClassDef) : ClassTable :=
  classes.foldl register table

theorem get?_name {table : ClassTable} {name : String} {c : ClassDef}
    (h : table.get? name = some c) : c.name = name := by
  simpa using List.find?_some h

theorem mem_of_get? {table : ClassTable} {name : String} {c : ClassDef}
    (h : table.get? name = some c) : c ∈ table.classes :=
  List.mem_of_find?_eq_some h

end ClassTable

end ClassLang
