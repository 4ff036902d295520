import ClassLang.ClassTable.ListClass
import Mathlib.Data.List.Nodup

namespace ClassLang.ClassTable

theorem contains_iff {table : ClassTable} {name : String} :
    table.contains name = true ↔ ∃ c, table.get? name = some c := Option.isSome_iff_exists

theorem contains_eq_false_iff {table : ClassTable} {name : String} :
    table.contains name = false ↔ table.get? name = none := Option.isSome_eq_false_iff.trans
  Option.isNone_iff_eq_none

theorem contains_of_get? {table : ClassTable} {name : String} {c : ClassDef}
    (h : table.get? name = some c) : table.contains name = true := contains_iff.mpr ⟨c, h⟩

theorem mem_names_iff {table : ClassTable} {name : String} :
    name ∈ table.names ↔ table.contains name = true := by
  rw [names, contains, get?, List.find?_isSome, List.mem_map]
  simp only [beq_iff_eq]

theorem get?_of_mem {table : ClassTable} {c : ClassDef} (h : c ∈ table.classes) :
    table.get? c.name = some c := by
  obtain ⟨classes, nodup⟩ := table
  simp only [get?] at h ⊢
  induction classes with
  | nil => cases h
  | cons d classes ih =>
    rw [List.map_cons, List.nodup_cons] at nodup
    obtain rfl | hm := List.mem_cons.mp h
    · simp
    · have hne : d.name ≠ c.name := fun he => nodup.1 (he ▸ List.mem_map_of_mem hm)
      rw [List.find?_cons_of_neg (by simpa using hne)]
      exact ih nodup.2 hm

@[simp]
theorem get?_empty (name : String) : empty.get? name = none := rfl

theorem find?_replace (c : ClassDef) (classes : List ClassDef) (name : String)
    (h : c.name ∈ classes.map ClassDef.name) :
    (replace c classes).find? (fun d => d.name == name) =
      if c.name = name then some c else classes.find? (fun d => d.name == name) := by
  have hp : ((fun d => d.name == name) ∘ fun d : ClassDef => if d.name = c.name then c else d) =
      fun d : ClassDef => d.name == name := by
    funext d
    simp only [Function.comp_apply]
    split <;> simp_all
  rw [replace, List.find?_map, hp]
  split
  case isTrue hc =>
    obtain ⟨e, hm, he⟩ := List.mem_map.mp h
    have hs : (classes.find? (fun d => d.name == name)).isSome :=
      List.find?_isSome.mpr ⟨e, hm, by simp [he, hc]⟩
    obtain ⟨d, hd⟩ := Option.isSome_iff_exists.mp hs
    have hn : d.name = name := by simpa using List.find?_some hd
    rw [hd, Option.map_some, if_pos (hn.trans hc.symm)]
  case isFalse hc =>
    cases hd : classes.find? (fun d => d.name == name) with
    | none => rfl
    | some d =>
      have hn : d.name = name := by simpa using List.find?_some hd
      rw [Option.map_some, if_neg (fun he => hc (he.symm.trans hn))]

theorem classes_register_of_fresh {table : ClassTable} {c : ClassDef} (h : c.name ∉ table.names) :
    (table.register c).classes = table.classes ++ [c] := by
  rw [register, dif_neg h]

theorem names_register (table : ClassTable) (c : ClassDef) :
    (table.register c).names =
      if c.name ∈ table.names then table.names else table.names ++ [c.name] := by
  by_cases hc : c.name ∈ table.names
  · rw [if_pos hc, register, dif_pos hc]
    exact map_name_replace c table.classes
  · rw [if_neg hc, register, dif_neg hc]
    simp [names]

theorem get?_register (table : ClassTable) (c : ClassDef) (name : String) :
    (table.register c).get? name = if c.name = name then some c else table.get? name := by
  unfold register
  split
  case isTrue h => exact find?_replace c table.classes name h
  case isFalse h =>
    have hn : table.get? c.name = none :=
      contains_eq_false_iff.mp (Bool.eq_false_iff.mpr (fun hc => h (mem_names_iff.mpr hc)))
    simp only [get?, List.find?_append, List.find?_singleton, beq_iff_eq]
    split
    case isTrue he => rw [← he, show table.classes.find? (fun d => d.name == c.name) = none from hn,
      Option.none_or]
    case isFalse => rw [Option.or_none]

theorem get?_registerAll (table : ClassTable) (classes : List ClassDef) (name : String) :
    (table.registerAll classes).get? name =
      (classes.reverse.find? (fun c => c.name == name)).or (table.get? name) := by
  rw [registerAll]
  induction classes generalizing table with
  | nil => simp
  | cons c classes ih =>
    rw [List.foldl_cons, ih, get?_register, List.reverse_cons, List.find?_append, Option.or_assoc,
      List.find?_singleton]
    congr 1
    by_cases hn : c.name = name <;> simp [hn]

theorem mem_of_get?_registerAll {classes : List ClassDef} {name : String} {c : ClassDef}
    (h : (empty.registerAll classes).get? name = some c) : c ∈ classes := by
  rw [get?_registerAll, get?_empty, Option.or_none] at h
  exact List.mem_reverse.mp (List.mem_of_find?_eq_some h)

theorem contains_registerAll (classes : List ClassDef) (name : String) :
    (empty.registerAll classes).contains name = true ↔ name ∈ classes.map ClassDef.name := by
  rw [contains, get?_registerAll, get?_empty, Option.or_none, List.find?_isSome, List.mem_map]
  simp only [List.mem_reverse, beq_iff_eq]

theorem get?_registerAll_of_mem {classes : List ClassDef} {c : ClassDef}
    (hn : (classes.map ClassDef.name).Nodup) (hc : c ∈ classes) :
    (empty.registerAll classes).get? c.name = some c := by
  have hr : (classes.reverse.map ClassDef.name).Nodup := by
    rw [List.map_reverse]
    exact List.nodup_reverse.mpr hn
  let reversed : ClassTable := ⟨classes.reverse, hr⟩
  have h : reversed.get? c.name = some c := get?_of_mem (List.mem_reverse.mpr hc)
  rw [get?_registerAll, get?_empty, Option.or_none]
  exact h

theorem get?_registerAll_eq_some_iff {classes : List ClassDef} {name : String} {c : ClassDef}
    (hn : (classes.map ClassDef.name).Nodup) :
    (empty.registerAll classes).get? name = some c ↔ c ∈ classes ∧ c.name = name := by
  constructor
  · exact fun h => ⟨mem_of_get?_registerAll h, get?_name h⟩
  · rintro ⟨hc, rfl⟩
    exact get?_registerAll_of_mem hn hc

theorem get?_ensureList (table : ClassTable) (element : Ty) (name : String) :
    (table.ensureList element).get? name =
      if listName element.name = name then some (table.listClass element) else table.get? name := by
  unfold ensureList listClass
  split
  case isTrue h =>
    obtain ⟨c, hc⟩ := contains_iff.mp h
    rw [hc, Option.getD_some]
    split
    case isTrue he => rw [← he, hc]
    case isFalse => rfl
  case isFalse h =>
    have hc : table.get? (listName element.name) = none :=
      contains_eq_false_iff.mp (Bool.eq_false_iff.mpr h)
    rw [get?_register, hc, Option.getD_none]
    rfl

end ClassLang.ClassTable
