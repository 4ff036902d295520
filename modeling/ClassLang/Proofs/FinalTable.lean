import ClassLang.Proofs.ClassIndex
import ClassLang.Proofs.Resolution
import ClassLang.Proofs.Verdict
import Mathlib.Data.List.Induction

namespace ClassLang

namespace ClassTable

theorem names_registerAll (classes : List ClassDef) :
    (empty.registerAll classes).names = (classes.map ClassDef.name).eraseDups := by
  induction classes using List.reverseRecOn with
  | nil => rfl
  | append_singleton classes c ih =>
    have hstep : empty.registerAll (classes ++ [c]) = (empty.registerAll classes).register c := by
      rw [registerAll, List.foldl_append]
      rfl
    rw [hstep, names_register, ih, List.map_append, List.map_singleton, List.eraseDups_append]
    generalize classes.map ClassDef.name = names
    by_cases hc : c.name ∈ names
    · rw [if_pos (List.mem_eraseDups.mpr hc)]
      simp [List.removeAll, hc]
    · rw [if_neg fun hm => hc (List.mem_eraseDups.mp hm)]
      simp [List.removeAll, hc, List.eraseDups_cons]

/-- Of the classes of one name the last one stays. -/
theorem last_of_get?_registerAll {classes : List ClassDef} {name : String} {c : ClassDef}
    (h : (empty.registerAll classes).get? name = some c) :
    ∃ before after, classes = before ++ c :: after ∧ ∀ d ∈ after, d.name ≠ c.name := by
  have hname := get?_name h
  rw [get?_registerAll, get?_empty, Option.or_none, List.find?_eq_some_iff_append] at h
  obtain ⟨-, later, earlier, hsplit, hlater⟩ := h
  refine ⟨earlier.reverse, later.reverse, ?_, fun d hd => ?_⟩
  · rw [← List.reverse_reverse classes, hsplit]
    simp
  · have hd := hlater d (List.mem_reverse.mp hd)
    rw [hname]
    simpa using hd

theorem foldl_ensureList {table grown : ClassTable} {elements : List Ty}
    (h : grown.classes = table.classes ++ elements.map ClassDef.listOf) :
    elements.foldl ensureList table = grown := by
  induction elements generalizing table with
  | nil => exact ClassTable.ext (by simpa using h.symm)
  | cons element elements ih =>
    have hfresh : (ClassDef.listOf element).name ∉ table.names := by
      intro hm
      have hn := grown.nodup
      rw [h, List.map_append] at hn
      exact List.disjoint_of_nodup_append hn hm (by simp)
    have hmissing : ¬ table.contains (listName element.name) = true :=
      fun hc => hfresh (mem_names_iff.mpr hc)
    have hclasses : (table.ensureList element).classes = table.classes ++ [.listOf element] := by
      rw [ensureList, if_neg hmissing, classes_register_of_fresh hfresh]
    exact ih (by rw [h, hclasses, List.append_assoc, List.map_cons, List.singleton_append])

end ClassTable

namespace Program

open ClassTable

variable [Alphabet]

/-- After the check of a program the table holds each name once. First come the names of the
program's classes in the order of their first declaration, each with its last declaration. All that
follows are classes behind lists, each of a type that is not `void` and stands for itself; if that
is a list, the class behind it comes before. In two pieces, the names in order are the keys of the
classes, each once. -/
theorem checked_table_exact (p : Program) (file : String) :
    let table := (Context.run { file } p.check).2.classes
    table.names.Nodup ∧
    (∀ name, name ∈ table.names ↔ ∃ c, table.get? name = some c) ∧
    (∀ c ∈ table.classes, table.get? c.name = some c) ∧
    ∃ declared elements,
      table.classes = declared ++ elements.map ClassDef.listOf ∧
      declared.map ClassDef.name = (p.classes.map ClassDef.name).eraseDups ∧
      (∀ c ∈ declared, ∃ before after,
        p.classes = before ++ c :: after ∧ ∀ d ∈ after, d.name ≠ c.name) ∧
      (∀ earlier element, earlier ++ [element] <+: elements →
        element ≠ .void ∧ (table.resolve element.name).1 = some element ∧
          ∀ inner, element = .list inner →
            element.name ∈ (declared ++ earlier.map ClassDef.listOf).map ClassDef.name) ∧
      let updates : List ClassIndex.Update := p.classes.map .register ++ elements.map .ensureList
      let index := updates.foldl ClassIndex.update {}
      index.Represents table ∧ index.order.toList.Nodup ∧
        ∀ name, name ∈ index.order.toList ↔ name ∈ index.classes := by
  intro table
  have hgrown : p.registered.Grows table := p.grows_checkedTable
  obtain ⟨elements, hlists⟩ := hgrown.listsFollow
  refine ⟨table.nodup, fun name => mem_names_iff.trans contains_iff, fun c => get?_of_mem,
    p.registered.classes, elements, hlists.classes, names_registerAll p.classes, ?_, ?_, ?_⟩
  · intro c hc
    exact last_of_get?_registerAll (get?_of_mem hc)
  · intro earlier element hprefix
    obtain ⟨hvoid, htype, hinner⟩ := hlists.elements earlier element hprefix
    exact ⟨hvoid, (hgrown.typeOf? element.name).trans htype, hinner⟩
  · intro updates index
    have hupdates : updates.foldl ClassTable.update .empty = table := by
      rw [List.foldl_append, List.foldl_map, List.foldl_map]
      exact foldl_ensureList hlists.classes
    have hindex : index.Represents table := hupdates ▸ ClassIndex.represents_empty.updates updates
    exact ⟨hindex, hindex.nodup_order, fun name => hindex.mem_order_iff⟩

end Program

end ClassLang
