import ClassLang.Proofs.TableLookup
import Mathlib.Data.List.Induction

namespace ClassLang

/-- A class table in two pieces: the classes by name, in no order, and the names in the order in
which they were first registered. -/
structure ClassIndex where
  classes : Std.HashMap String ClassDef := ∅
  order : Array String := #[]

namespace ClassIndex

def register (index : ClassIndex) (c : ClassDef) : ClassIndex :=
  let (known, classes) := index.classes.containsThenInsert c.name c
  ⟨classes, if known then index.order else index.order.push c.name⟩

def get? (index : ClassIndex) (name : String) : Option ClassDef := index.classes[name]?

def contains (index : ClassIndex) (name : String) : Bool := index.classes.contains name

def size (index : ClassIndex) : Nat := index.classes.size

def toList (index : ClassIndex) : List ClassDef := index.order.toList.filterMap index.get?

def ensureList (index : ClassIndex) (element : Ty) : ClassIndex :=
  if index.contains (listName element.name) then index else index.register (.listOf element)

inductive Update where
  | register (c : ClassDef)
  | ensureList (element : Ty)

def update (index : ClassIndex) : Update → ClassIndex
  | .register c => index.register c
  | .ensureList element => index.ensureList element

/-- Both pieces tell of the same table. -/
structure Represents (index : ClassIndex) (table : ClassTable) : Prop where
  order : index.order.toList = table.names
  get? : ∀ name, index.get? name = table.get? name

theorem get?_register (index : ClassIndex) (c : ClassDef) (name : String) :
    (index.register c).get? name = if c.name = name then some c else index.get? name := by
  simp [register, get?, Std.HashMap.getElem?_insert]

theorem order_register (index : ClassIndex) (c : ClassDef) :
    (index.register c).order.toList =
      if index.contains c.name then index.order.toList else index.order.toList ++ [c.name] := by
  have hknown : (index.classes.containsThenInsert c.name c).1 = index.contains c.name :=
    Std.HashMap.containsThenInsert_fst
  unfold register
  by_cases hc : index.contains c.name = true
  · simp only [hknown, hc, if_true]
  · simp only [hknown, hc, Bool.false_eq_true, if_false, Array.toList_push]

theorem represents_empty : Represents {} .empty :=
  ⟨rfl, fun _ => Std.HashMap.getElem?_empty⟩

end ClassIndex

def ClassTable.update (table : ClassTable) : ClassIndex.Update → ClassTable
  | .register c => table.register c
  | .ensureList element => table.ensureList element

namespace ClassIndex

namespace Represents

variable {index : ClassIndex} {table : ClassTable}

theorem contains (h : index.Represents table) (name : String) :
    index.contains name = table.contains name := by
  rw [ClassTable.contains, ← h.get?]
  simp [ClassIndex.contains, ClassIndex.get?]

theorem register (h : index.Represents table) (c : ClassDef) :
    (index.register c).Represents (table.register c) := by
  constructor
  · rw [order_register, h.contains, h.order, ClassTable.names_register]
    simp only [← ClassTable.mem_names_iff]
  · intro name
    rw [get?_register, h.get?, ClassTable.get?_register]

theorem ensureList (h : index.Represents table) (element : Ty) :
    (index.ensureList element).Represents (table.ensureList element) := by
  unfold ClassIndex.ensureList ClassTable.ensureList
  rw [h.contains]
  split
  · exact h
  · exact h.register (.listOf element)

theorem toList (h : index.Represents table) : index.toList = table.classes := by
  have hget : index.get? = table.get? := funext h.get?
  have hown (c : ClassDef) (hc : c ∈ table.classes) : (table.get? ∘ ClassDef.name) c = some c :=
    ClassTable.get?_of_mem hc
  rw [ClassIndex.toList, h.order, hget, ClassTable.names, List.filterMap_map,
    List.filterMap_congr hown, List.filterMap_some]

/-- The names in order are the keys of the classes, each once. -/
theorem nodup_order (h : index.Represents table) : index.order.toList.Nodup := h.order ▸ table.nodup

theorem mem_order_iff (h : index.Represents table) {name : String} :
    name ∈ index.order.toList ↔ name ∈ index.classes := by
  rw [h.order, ClassTable.mem_names_iff, ← h.contains]
  exact Std.HashMap.contains_iff_mem

theorem size (h : index.Represents table) : index.size = table.size := by
  have hperm : index.classes.keys.Perm index.order.toList := by
    refine (List.perm_ext_iff_of_nodup index.classes.nodup_keys h.nodup_order).mpr fun name => ?_
    rw [h.mem_order_iff, Std.HashMap.mem_keys]
  calc
    index.size = index.classes.keys.length := Std.HashMap.length_keys.symm
    _ = index.order.toList.length := hperm.length_eq
    _ = table.size := by rw [h.order, ClassTable.names, List.length_map, ClassTable.size]

theorem update (h : index.Represents table) (u : Update) :
    (index.update u).Represents (table.update u) := by
  cases u with
  | register c => exact h.register c
  | ensureList element => exact h.ensureList element

/-- However a table was made, the two pieces keep up with it. -/
theorem updates (h : index.Represents table) (us : List Update) :
    (us.foldl ClassIndex.update index).Represents (us.foldl ClassTable.update table) := by
  induction us generalizing index table with
  | nil => exact h
  | cons u us ih => exact ih (h.update u)

end Represents

end ClassIndex

end ClassLang
