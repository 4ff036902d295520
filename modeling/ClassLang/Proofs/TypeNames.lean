import ClassLang.ClassTable.Resolve
import ClassLang.Proofs.TableLookup
import Mathlib.Data.Set.Basic

namespace ClassLang

variable [Alphabet]

theorem listElement?_eq_none {name : String}
    (h : name.toList.drop (name.toList.length - 5) ≠ "_list".toList) : listElement? name = none :=
  if_neg fun hs => h hs.1

theorem listElement?_eq_some_iff {name element : String} :
    listElement? name = some element ↔
      name = listName element ∧ element ≠ "" ∧ element.toList.all Alphabet.isWordChar = true := by
  have hl : "_list".toList.length = 5 := by decide
  constructor
  · intro h
    simp only [listElement?] at h
    split at h
    case isTrue hs =>
      obtain ⟨hd, hne, hw⟩ := hs
      cases h
      refine ⟨?_, by simpa using hne, by simpa using hw⟩
      rw [listName, ← String.toList_inj, String.toList_append, String.toList_ofList, ← hd,
        List.take_append_drop]
    case isFalse => cases h
  · rintro ⟨rfl, hne, hw⟩
    have hc : (listName element).toList = element.toList ++ "_list".toList := by
      rw [listName, String.toList_append]
    have hlen : (listName element).toList.length - 5 = element.toList.length := by
      rw [hc, List.length_append, hl, Nat.add_sub_cancel]
    simp only [listElement?, hlen]
    rw [hc, List.take_left, List.drop_left, if_pos ⟨rfl, by simpa using hne, hw⟩,
      String.ofList_toList]

omit [Alphabet] in
theorem Primitive.ofKeyword?_keyword (p : Primitive) : Primitive.ofKeyword? p.keyword = some p := by
  cases p <;> decide

omit [Alphabet] in
theorem Primitive.keyword_of_ofKeyword? {word : String} {p : Primitive}
    (h : Primitive.ofKeyword? word = some p) : p.keyword = word := by
  simpa using List.find?_some h

namespace ClassTable

/-- The type that a name stands for, without what finding it does to the table. -/
def typeOf? (table : ClassTable) (name : String) : Option Ty := (table.resolve name).1

/-- The table with the classes behind a list type and the list types inside it, innermost first. -/
def withLists (table : ClassTable) : Ty → ClassTable
  | .list element => (table.withLists element).ensureList element
  | .primitive _ | .classRef _ | .void => table

/-- Resolving a name does to the table what the type it stands for needs, and no more. -/
theorem resolve_snd (table : ClassTable) (name : String) :
    (table.resolve name).2 = (table.typeOf? name).elim table table.withLists := by
  unfold typeOf?
  fun_induction resolve table name with
  | case1 => rfl
  | case2 name _ p hp => rfl
  | case3 name _ hp hl =>
    simp only [classType?]
    split <;> rfl
  | case4 name _ hp element hl grown hr ih =>
    rw [hr] at ih
    obtain rfl : grown = table := ih
    simp only [classType?]
    split <;> rfl
  | case5 name _ hp element hl grown hr ih =>
    rw [hr] at ih
    obtain rfl : grown = table := ih
    simp only [classType?]
    split <;> rfl
  | case6 name _ hp element hl ty grown hv hr ih =>
    rw [hr] at ih
    obtain rfl : grown = table.withLists ty := ih
    rfl

theorem typeOf?_void (table : ClassTable) : table.typeOf? "void" = some .void := by
  rw [typeOf?, resolve, if_pos rfl]

theorem typeOf?_primitive (table : ClassTable) {name : String} {p : Primitive}
    (hv : name ≠ "void") (hp : Primitive.ofKeyword? name = some p) :
    table.typeOf? name = some (.primitive p) := by
  rw [typeOf?, resolve, if_neg hv, hp]

theorem typeOf?_of_not_listElement (table : ClassTable) {name : String}
    (hv : name ≠ "void") (hp : Primitive.ofKeyword? name = none) (hl : listElement? name = none) :
    table.typeOf? name = table.classType? name := by
  rw [typeOf?, resolve, if_neg hv, hp]
  dsimp only
  split
  case h_1 => rfl
  case h_2 element he => rw [hl] at he; cases he

theorem typeOf?_of_listElement (table : ClassTable) {name element : String}
    (hl : listElement? name = some element) (hv : name ≠ "void")
    (hp : Primitive.ofKeyword? name = none) :
    (∃ ty, table.typeOf? element = some ty ∧ ty ≠ .void ∧
        table.typeOf? name = some (.list ty)) ∨
      ((∀ ty, table.typeOf? element = some ty → ty = .void) ∧
        table.typeOf? name = table.classType? name) := by
  have hs := table.resolve_snd element
  have hn : table.typeOf? name = (table.resolve name).1 := rfl
  rw [resolve, if_neg hv, hp] at hn
  dsimp only at hn
  split at hn
  case h_1 he => rw [hl] at he; cases he
  case h_2 other he =>
    obtain rfl : element = other := Option.some.inj (hl.symm.trans he)
    rw [hn]
    unfold typeOf? at hs ⊢
    generalize table.resolve element = resolved at hs
    obtain ⟨ty, grown⟩ := resolved
    dsimp only at hs ⊢
    subst hs
    cases ty with
    | none => exact .inr ⟨fun _ h => absurd h (by simp), rfl⟩
    | some ty =>
      cases ty with
      | void => exact .inr ⟨fun _ h => (Option.some.inj h).symm, rfl⟩
      | primitive _ | classRef _ | list _ => exact .inl ⟨_, rfl, by simp, rfl⟩

theorem name_of_typeOf? {table : ClassTable} {name : String} {ty : Ty}
    (h : table.typeOf? name = some ty) : ty.name = name := by
  have hc {n : String} {t : Ty} (ht : table.classType? n = some t) : t.name = n := by
    rw [classType?] at ht
    split at ht
    · cases ht; rfl
    · cases ht
  induction hlen : name.length using Nat.strongRecOn generalizing name ty with
  | ind length ih =>
    by_cases hv : name = "void"
    · subst hv
      rw [typeOf?_void] at h
      cases h; rfl
    cases hp : Primitive.ofKeyword? name with
    | some p =>
      rw [typeOf?_primitive table hv hp] at h
      cases h
      exact Primitive.keyword_of_ofKeyword? hp
    | none =>
      cases hl : listElement? name with
      | none =>
        rw [typeOf?_of_not_listElement table hv hp hl] at h
        exact hc h
      | some element =>
        have hlt := length_lt_of_listElement? hl
        obtain ⟨t, ht, -, hn⟩ | ⟨-, hn⟩ := table.typeOf?_of_listElement hl hv hp
        · cases h.symm.trans hn
          have hn : t.name = element := ih element.length (by omega) ht rfl
          rw [Ty.name, hn]
          exact (listElement?_eq_some_iff.mp hl).1.symm
        · exact hc (hn.symm.trans h)

theorem not_keyword_of_listElement {name element : String} (h : listElement? name = some element) :
    name ≠ "void" ∧ Primitive.ofKeyword? name = none := by
  constructor
  · rintro rfl
    have hn : listElement? "void" = none := listElement?_eq_none (by decide)
    rw [hn] at h
    cases h
  · cases hp : Primitive.ofKeyword? name with
    | none => rfl
    | some p =>
      have hn : listElement? p.keyword = none := by
        cases p <;> exact listElement?_eq_none (by decide)
      rw [Primitive.keyword_of_ofKeyword? hp, h] at hn
      cases hn

theorem typeOf?_eq_list_iff {table : ClassTable} {name : String} {element : Ty} :
    table.typeOf? name = some (.list element) ↔
      listElement? name = some element.name ∧ table.typeOf? element.name = some element ∧
        element ≠ .void := by
  have hc (n : String) (t : Ty) : table.classType? n ≠ some (.list t) := by
    rw [classType?]
    split <;> simp
  constructor
  · intro h
    by_cases hv : name = "void"
    · subst hv
      rw [typeOf?_void] at h
      cases h
    cases hp : Primitive.ofKeyword? name with
    | some p =>
      rw [typeOf?_primitive table hv hp] at h
      cases h
    | none =>
      cases hl : listElement? name with
      | none =>
        rw [typeOf?_of_not_listElement table hv hp hl] at h
        exact absurd h (hc name element)
      | some word =>
        obtain ⟨ty, ht, hne, hn⟩ | ⟨-, hn⟩ := table.typeOf?_of_listElement hl hv hp
        · cases h.symm.trans hn
          rw [name_of_typeOf? ht]
          exact ⟨rfl, ht, hne⟩
        · exact absurd (hn.symm.trans h) (hc name element)
  · rintro ⟨hl, ht, hne⟩
    obtain ⟨hv, hp⟩ := not_keyword_of_listElement hl
    obtain ⟨ty, hty, -, hn⟩ | ⟨hvoid, -⟩ := table.typeOf?_of_listElement hl hv hp
    · cases ht.symm.trans hty
      exact hn
    · exact absurd (hvoid element ht) hne

/-- Within names that lead to no others by their elements, what a name stands for depends on which
of them are registered, and not on those that stand for lists. -/
theorem typeOf?_congr_on {table other : ClassTable} {names : Set String}
    (hclosed : ∀ name ∈ names, ∀ element, listElement? name = some element → element ∈ names)
    (h : ∀ name ∈ names, (∀ element, table.typeOf? name ≠ some (.list element)) →
      other.contains name = table.contains name) {name : String} (hname : name ∈ names) :
    other.typeOf? name = table.typeOf? name := by
  have hc {n : String} (hin : n ∈ names) (hn : table.typeOf? n = table.classType? n) :
      other.classType? n = table.classType? n := by
    have hs : other.contains n = table.contains n := by
      apply h n hin
      intro element he
      rw [hn, classType?] at he
      split at he <;> cases he
    rw [classType?, classType?, hs]
  induction hlen : name.length using Nat.strongRecOn generalizing name with
  | ind length ih =>
    by_cases hv : name = "void"
    · subst hv
      rw [typeOf?_void, typeOf?_void]
    cases hp : Primitive.ofKeyword? name with
    | some p => rw [typeOf?_primitive other hv hp, typeOf?_primitive table hv hp]
    | none =>
      cases hl : listElement? name with
      | none =>
        have ht := typeOf?_of_not_listElement table hv hp hl
        rw [typeOf?_of_not_listElement other hv hp hl, ht, hc hname ht]
      | some element =>
        have hlt := length_lt_of_listElement? hl
        have he := ih element.length (by omega) (hclosed name hname element hl) rfl
        obtain ⟨ty, hty, hne, ht⟩ | ⟨hvoid, ht⟩ := table.typeOf?_of_listElement hl hv hp
        · obtain ⟨ty', hty', -, ho⟩ | ⟨hvoid, -⟩ := other.typeOf?_of_listElement hl hv hp
          · cases hty.symm.trans (he.symm.trans hty')
            rw [ho, ht]
          · exact absurd (hvoid ty (he.trans hty)) hne
        · obtain ⟨ty, hty, hne, -⟩ | ⟨-, ho⟩ := other.typeOf?_of_listElement hl hv hp
          · exact absurd (hvoid ty (he.symm.trans hty)) hne
          · rw [ho, ht, hc hname ht]

theorem typeOf?_congr {table other : ClassTable}
    (h : ∀ name, (∀ element, table.typeOf? name ≠ some (.list element)) →
      other.contains name = table.contains name) (name : String) :
    other.typeOf? name = table.typeOf? name :=
  typeOf?_congr_on (fun _ _ _ _ => Set.mem_univ _) (fun name _ => h name) (Set.mem_univ name)

end ClassTable

end ClassLang
