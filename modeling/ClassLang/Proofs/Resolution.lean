import ClassLang.Check.Basic
import ClassLang.Proofs.TableGrowth

namespace ClassLang

/-- The class of the given name behind a list type, or behind a list type inside it. -/
def Ty.listNamed? (name : String) : Ty → Option ClassDef
  | .list element =>
    (element.listNamed? name).or
      (if listName element.name = name then some (.listOf element) else none)
  | .primitive _ | .classRef _ | .void => none

namespace ClassTable

variable [Alphabet]

section Lookup

omit [Alphabet] in
theorem get?_withLists_eq (table : ClassTable) (ty : Ty) (name : String) :
    (table.withLists ty).get? name = (table.get? name).or (ty.listNamed? name) := by
  induction ty with
  | primitive p | classRef n | void => exact (Option.or_none).symm
  | list element ih =>
    rw [withLists, get?_ensureList, Ty.listNamed?]
    by_cases hn : listName element.name = name
    · rw [if_pos hn, if_pos hn, listClass, hn, ih, ← Option.or_assoc]
      cases (table.get? name).or (element.listNamed? name) <;> rfl
    · rw [if_neg hn, if_neg hn, ih, Option.or_none]

theorem get?_resolve_eq (table : ClassTable) (resolved name : String) :
    (table.resolve resolved).2.get? name =
      (table.get? name).or ((table.typeOf? resolved).bind (Ty.listNamed? name)) := by
  rw [resolve_snd]
  cases table.typeOf? resolved with
  | none => exact (Option.or_none).symm
  | some ty => exact get?_withLists_eq table ty name

theorem contains_resolve (table : ClassTable) (resolved name : String) :
    (table.resolve resolved).2.contains name = true ↔
      table.contains name = true ∨
        ((table.typeOf? resolved).bind (Ty.listNamed? name)).isSome = true := by
  rw [contains, contains, get?_resolve_eq, Option.isSome_or, Bool.or_eq_true]

end Lookup

section History

theorem table_forEach_resolve (table : ClassTable) (history : List String) :
    (forEach Check.resolve history table).table = table.resolveAll history := by
  induction history generalizing table with
  | nil => rfl
  | cons name history ih => exact ih (table.resolve name).2

theorem result_forEach_resolve (table : ClassTable) (history : List String) :
    (forEach Check.resolve history table).result = history.map table.typeOf? := by
  induction history generalizing table with
  | nil => rfl
  | cons name history ih =>
    have hlater : (table.resolve name).2.typeOf? = table.typeOf? :=
      funext (typeOf?_resolve table name)
    have hrest := ih (table.resolve name).2
    rw [hlater] at hrest
    rw [List.map_cons, ← hrest]
    rfl

/-- What a name stands for does not depend on which names were resolved before, and no answer on the
way does either. -/
theorem resolve_unaffected_by_history (table : ClassTable) (history : List String)
    (name : String) :
    ((forEach Check.resolve history table).table.resolve name).1 = (table.resolve name).1 ∧
      (forEach Check.resolve history table).result =
        history.map (fun earlier => (table.resolve earlier).1) := by
  have hgrown : table.Grows (forEach Check.resolve history table).table :=
    ⟨history, table_forEach_resolve table history⟩
  exact ⟨hgrown.typeOf? name, result_forEach_resolve table history⟩

end History

section Order

/-- The second table has the classes of the first and, after them, the classes behind the lists of
some element types. Each of those stands for itself by its name, and if it is a list, then the class
behind it comes before. -/
structure ListsFollow (table : ClassTable) (elements : List Ty) (grown : ClassTable) : Prop where
  classes : grown.classes = table.classes ++ elements.map ClassDef.listOf
  elements : ∀ earlier element, earlier ++ [element] <+: elements →
    element ≠ .void ∧ table.typeOf? element.name = some element ∧
      ∀ inner, element = .list inner →
        element.name ∈ (table.classes ++ earlier.map ClassDef.listOf).map ClassDef.name

variable {table grown : ClassTable} {elements : List Ty}

theorem ListsFollow.refl (table : ClassTable) : table.ListsFollow [] table := by
  refine ⟨by simp, fun earlier element h => ?_⟩
  simp at h

theorem ListsFollow.ensureList (h : table.ListsFollow elements grown) {element : Ty}
    (hv : element ≠ .void) (ht : table.typeOf? element.name = some element)
    (hi : ∀ inner, element = .list inner → element.name ∈ grown.names) :
    ∃ more, table.ListsFollow more (grown.ensureList element) := by
  unfold ClassTable.ensureList
  split
  case isTrue => exact ⟨elements, h⟩
  case isFalse hc =>
    have hfresh : (ClassDef.listOf element).name ∉ grown.names :=
      fun hm => hc (mem_names_iff.mp hm)
    refine ⟨elements ++ [element], ?_, fun earlier last hlast => ?_⟩
    · rw [classes_register_of_fresh hfresh, h.classes, List.map_append, List.append_assoc,
        List.map_singleton]
    · obtain heq | hbefore := List.prefix_concat_iff.mp hlast
      · obtain ⟨rfl, hsame⟩ := List.append_inj' heq rfl
        obtain rfl := List.singleton_inj.mp hsame
        rw [← h.classes]
        exact ⟨hv, ht, hi⟩
      · exact h.elements earlier last hbefore

theorem ListsFollow.withLists (h : table.ListsFollow elements grown) {ty : Ty}
    (ht : table.typeOf? ty.name = some ty) :
    ∃ more, table.ListsFollow more (grown.withLists ty) := by
  induction ty with
  | primitive p | classRef n | void => exact ⟨elements, h⟩
  | list element ih =>
    obtain ⟨-, he, hv⟩ := typeOf?_eq_list_iff.mp ht
    obtain ⟨before, hbefore⟩ := ih he
    refine hbefore.ensureList hv he ?_
    rintro inner rfl
    -- the list that is the element was ensured one step before
    rw [mem_names_iff, contains, ClassTable.withLists, get?_ensureList, Ty.name, if_pos rfl]
    rfl

/-- However a table grows, classes behind lists are all that comes to it, at its end and one inside
the other. -/
theorem Grows.listsFollow (h : table.Grows grown) :
    ∃ elements, table.ListsFollow elements grown := by
  have hboth : table.Grows grown ∧ ∃ elements, table.ListsFollow elements grown := by
    apply h.induct ⟨.refl table, [], .refl table⟩
    rintro t name ⟨hg, elements, hl⟩
    refine ⟨hg.trans (.resolve t name), ?_⟩
    rw [resolve_snd]
    cases ht : t.typeOf? name with
    | none => exact ⟨elements, hl⟩
    | some ty =>
      have hname : table.typeOf? ty.name = some ty := by
        rw [name_of_typeOf? ht, ← hg.typeOf?, ht]
      exact hl.withLists hname
  exact hboth.2

theorem Grows.eq_of_contains (h : table.Grows grown)
    (hc : ∀ name, grown.contains name = true → table.contains name = true) : grown = table := by
  obtain ⟨elements, hl⟩ := h.listsFollow
  have hnil : elements = [] := by
    cases elements with
    | nil => rfl
    | cons element elements =>
      have hmem : ClassDef.listOf element ∈ grown.classes := by simp [hl.classes]
      have hin := mem_names_iff.mpr (hc _ (contains_of_get? (get?_of_mem hmem)))
      have hnodup := grown.nodup
      rw [hl.classes, List.map_append, List.nodup_append] at hnodup
      exact absurd rfl (hnodup.2.2 _ hin _ (by simp))
  apply ClassTable.ext
  rw [hl.classes, hnil, List.map_nil, List.append_nil]

end Order

end ClassTable

end ClassLang
