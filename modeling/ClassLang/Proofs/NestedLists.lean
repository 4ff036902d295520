import ClassLang.Proofs.Resolution
import ClassLang.Types.WordChar

namespace ClassLang

def Ty.elements : Ty → List Ty
  | .list element => element.elements ++ [element]
  | .primitive _ | .classRef _ | .void => []

theorem length_listName (element : String) : (listName element).length = element.length + 5 := by
  rw [listName, String.length_append]
  rfl

theorem Ty.listNamed?_of_length_lt {ty : Ty} {name : String} (h : ty.name.length < name.length) :
    ty.listNamed? name = none := by
  induction ty with
  | primitive p | classRef n | void => rfl
  | list element ih =>
    have hne : listName element.name ≠ name := by
      rintro rfl
      exact absurd h (Nat.lt_irrefl _)
    rw [Ty.name, length_listName] at h
    rw [Ty.listNamed?, ih (by omega), if_neg hne, Option.none_or]

namespace ClassTable

variable {table : ClassTable} {name : String} {element : Ty}

/-- The classes behind the lists inside a type come to the end of the table in order, as far as
their names are free. -/
theorem classes_withLists (table : ClassTable) (ty : Ty) :
    (table.withLists ty).classes =
      table.classes ++
        (ty.elements.filter fun e => !table.contains (listName e.name)).map ClassDef.listOf := by
  induction ty with
  | primitive p | classRef n | void => exact (List.append_nil _).symm
  | list element ih =>
    -- the classes that came before are behind shorter names
    have hnamed : element.listNamed? (listName element.name) = none :=
      Ty.listNamed?_of_length_lt (by rw [length_listName]; omega)
    have hsame : (table.withLists element).contains (listName element.name) =
        table.contains (listName element.name) := by
      rw [contains, contains, get?_withLists_eq, hnamed, Option.or_none]
    rw [withLists, ensureList, hsame, Ty.elements, List.filter_append, List.map_append]
    cases hk : table.contains (listName element.name) with
    | true => simp [hk, ih]
    | false =>
      have hfresh : (ClassDef.listOf element).name ∉ (table.withLists element).names :=
        fun hm => absurd ((mem_names_iff.mp hm).symm.trans (hsame.trans hk)) (by simp)
      simp [hk, ih, classes_register_of_fresh hfresh]

variable [Alphabet]

theorem resolve_of_not_list (h : ∀ element, table.typeOf? name ≠ some (.list element)) :
    (table.resolve name).2 = table := by
  rw [resolve_snd]
  cases ht : table.typeOf? name with
  | none => rfl
  | some ty =>
    cases ty with
    | list element => exact absurd ht (h element)
    | primitive p | classRef n | void => rfl

theorem classes_resolve_of_list (h : table.typeOf? name = some (.list element)) :
    (table.resolve name).2.classes =
      table.classes ++ ((Ty.list element).elements.filter fun e =>
        !table.contains (listName e.name)).map ClassDef.listOf := by
  rw [resolve_snd, h, Option.elim_some, classes_withLists]

theorem typeOf?_eq_list_iff_exists_word :
    table.typeOf? name = some (.list element) ↔
      ∃ word, word ≠ "" ∧ word.toList.all Alphabet.isWordChar = true ∧ name = word ++ "_list" ∧
        table.typeOf? word = some element ∧ element ≠ .void := by
  rw [typeOf?_eq_list_iff, listElement?_eq_some_iff]
  constructor
  · rintro ⟨⟨hn, hne, hw⟩, ht, hv⟩
    exact ⟨element.name, hne, hw, hn, ht, hv⟩
  · rintro ⟨word, hne, hw, hn, ht, hv⟩
    obtain rfl : element.name = word := name_of_typeOf? ht
    exact ⟨⟨hn, hne, hw⟩, ht, hv⟩

/-- A name resolves to a type of that name or to none. If the type is a list, then exactly the
classes that the table lacks of those behind the list and the lists inside it come to its end, the
innermost first, and nothing else changes; otherwise nothing changes at all. The names of lists are
those of their elements in word characters, with `_list` behind, unless the element is `void`. -/
theorem resolve_exact (table : ClassTable) (name : String) :
    (∀ ty, (table.resolve name).1 = some ty → ty.name = name) ∧
    ((∀ element, (table.resolve name).1 ≠ some (.list element)) →
      (table.resolve name).2 = table) ∧
    (∀ element, (table.resolve name).1 = some (.list element) →
      (table.resolve name).2.classes =
        table.classes ++ ((Ty.list element).elements.filter fun e =>
          !table.contains (listName e.name)).map ClassDef.listOf ∧
      (∀ other c, table.get? other = some c → (table.resolve name).2.get? other = some c) ∧
      ∀ e ∈ (Ty.list element).elements, table.contains (listName e.name) = false →
        (table.resolve name).2.get? (listName e.name) = some (.listOf e)) ∧
    ∀ element, (table.resolve name).1 = some (.list element) ↔
      ∃ word, word ≠ "" ∧ word.toList.all Alphabet.isWordChar = true ∧ name = word ++ "_list" ∧
        (table.resolve word).1 = some element ∧ element ≠ .void := by
  refine ⟨fun ty => name_of_typeOf?, resolve_of_not_list, fun element h => ?_,
    fun element => typeOf?_eq_list_iff_exists_word⟩
  have hclasses := classes_resolve_of_list h
  refine ⟨hclasses, fun other c => (Grows.resolve table name).get?_of_some, fun e he hk => ?_⟩
  have hmem : ClassDef.listOf e ∈ (table.resolve name).2.classes := by
    rw [hclasses]
    exact List.mem_append_right _ (List.mem_map_of_mem (List.mem_filter.mpr ⟨he, by simp [hk]⟩))
  exact get?_of_mem hmem

def withBareList : ClassTable :=
  empty.register { ClassDef.listOf (.primitive .int) with members := [] }

end ClassTable

end ClassLang

namespace ClassLang

attribute [local instance] Alphabet.unicode

namespace ClassTable

theorem resolve_exact_above_bare_list :
    let int : Ty := .primitive .int
    (withBareList.resolve "int_list_list_list").1 = some (.list (.list (.list int))) ∧
      (withBareList.resolve "int_list_list_list").2.classes =
        withBareList.classes ++ [.listOf (.list int), .listOf (.list (.list int))] ∧
      (withBareList.resolve "void_list_list").1 = none ∧
      (withBareList.resolve "void_list_list").2 = withBareList := by
  intro int
  have hlist : (withBareList.resolve "int_list_list_list").1 =
      some (.list (.list (.list int))) := by decide +kernel
  have hnone : (withBareList.resolve "void_list_list").1 = none := by decide +kernel
  have hlacks : (Ty.list (.list (.list int))).elements.filter
      (fun e => !withBareList.contains (listName e.name)) = [.list int, .list (.list int)] := by
    decide +kernel
  obtain ⟨-, -, hbrings, -⟩ := resolve_exact withBareList "int_list_list_list"
  obtain ⟨-, hkeeps, -⟩ := resolve_exact withBareList "void_list_list"
  refine ⟨hlist, ?_, hnone, hkeeps (by simp [hnone])⟩
  rw [(hbrings _ hlist).1, hlacks]
  rfl

end ClassTable

end ClassLang
