import ClassLang.Proofs.TypeNames

namespace ClassLang.ClassTable

variable [Alphabet]

def resolveAll (table : ClassTable) (names : List String) : ClassTable :=
  names.foldl (fun table name => (table.resolve name).2) table

/-- The second table comes from the first by resolving names. -/
def Grows (table grown : ClassTable) : Prop := ∃ names, grown = table.resolveAll names

/-- A name whose look-up can not change by resolving names: it does not stand for a list whose class
is yet to be made. -/
def Settled (table : ClassTable) (name : String) : Prop :=
  ∀ element, table.typeOf? name = some (.list element) → table.contains name = true

/-- The class found under a name once the class behind it is made, if it stands for a list. -/
def behind? (table : ClassTable) (name : String) : Option ClassDef :=
  match table.typeOf? name with
  | some (.list element) => some (table.listClass element)
  | _ => table.get? name

/-- Tables that can only be told apart by which classes behind lists they hold already. -/
structure Alike (table other : ClassTable) : Prop where
  types : ∀ name, other.typeOf? name = table.typeOf? name
  classes : ∀ name, other.behind? name = table.behind? name

theorem get?_withLists {table : ClassTable} {ty : Ty} (h : table.typeOf? ty.name = some ty)
    (name : String) :
    (table.withLists ty).get? name = table.get? name ∨
      table.get? name = none ∧ ∃ element, table.typeOf? name = some (.list element) ∧
        (table.withLists ty).get? name = some (.listOf element) := by
  induction ty with
  | primitive p | classRef n | void => exact .inl rfl
  | list element ih =>
    have hi := ih (typeOf?_eq_list_iff.mp h).2.1
    rw [withLists, get?_ensureList]
    by_cases hn : listName element.name = name
    · rw [if_pos hn, listClass, hn]
      obtain hs | ⟨ho, other, ht, hs⟩ := hi
      · rw [hs]
        cases hc : table.get? name with
        | some c => exact .inl rfl
        | none => exact .inr ⟨rfl, element, hn ▸ h, rfl⟩
      · rw [hs]
        exact .inr ⟨ho, other, ht, rfl⟩
    · rwa [if_neg hn]

theorem get?_resolve (table : ClassTable) (resolved name : String) :
    (table.resolve resolved).2.get? name = table.get? name ∨
      table.get? name = none ∧ ∃ element, table.typeOf? name = some (.list element) ∧
        (table.resolve resolved).2.get? name = some (.listOf element) := by
  rw [resolve_snd]
  cases ht : table.typeOf? resolved with
  | none => exact .inl rfl
  | some ty =>
    have hn : table.typeOf? ty.name = some ty := by rw [name_of_typeOf? ht, ht]
    exact get?_withLists hn name

@[simp]
theorem typeOf?_resolve (table : ClassTable) (resolved name : String) :
    (table.resolve resolved).2.typeOf? name = table.typeOf? name := by
  apply typeOf?_congr
  intro n hn
  obtain hs | ⟨-, element, ht, -⟩ := get?_resolve table resolved n
  · rw [contains, contains, hs]
  · exact absurd ht (hn element)

theorem behind?_resolve (table : ClassTable) (resolved name : String) :
    (table.resolve resolved).2.behind? name = table.behind? name := by
  unfold behind?
  rw [typeOf?_resolve]
  have hg := get?_resolve table resolved name
  split
  · next element ht =>
    have hn : listName element.name = name := name_of_typeOf? ht
    rw [listClass, listClass, hn]
    obtain hs | ⟨ho, other, ho', hs⟩ := hg
    · rw [hs]
    · cases ht.symm.trans ho'
      rw [hs, ho]
      rfl
  · next hne =>
    obtain hs | ⟨-, element, ht, -⟩ := hg
    · exact hs
    · exact absurd ht (hne element)

theorem settled_resolve (table : ClassTable) (name : String) :
    (table.resolve name).2.Settled name := by
  intro element ht
  rw [typeOf?_resolve] at ht
  have hn : listName element.name = name := name_of_typeOf? ht
  rw [resolve_snd, ht, Option.elim_some, withLists, contains, get?_ensureList, if_pos hn]
  rfl

theorem get?_eq_behind? {table : ClassTable} {name : String} (h : table.Settled name) :
    table.get? name = table.behind? name := by
  unfold behind?
  split
  · next element ht =>
    have hn : listName element.name = name := name_of_typeOf? ht
    obtain ⟨c, hc⟩ := contains_iff.mp (h element ht)
    rw [listClass, hn, hc, Option.getD_some]
  · rfl

namespace Alike

theorem refl (table : ClassTable) : table.Alike table := ⟨fun _ => rfl, fun _ => rfl⟩

theorem symm {table other : ClassTable} (h : table.Alike other) : other.Alike table :=
  ⟨fun name => (h.types name).symm, fun name => (h.classes name).symm⟩

theorem trans {table other third : ClassTable} (h : table.Alike other) (k : other.Alike third) :
    table.Alike third :=
  ⟨fun name => (k.types name).trans (h.types name),
    fun name => (k.classes name).trans (h.classes name)⟩

theorem resolve (table : ClassTable) (name : String) : table.Alike (table.resolve name).2 :=
  ⟨typeOf?_resolve table name, behind?_resolve table name⟩

theorem get?_eq {table other : ClassTable} (h : table.Alike other) {name : String}
    (ht : table.Settled name) (ho : other.Settled name) : other.get? name = table.get? name := by
  rw [get?_eq_behind? ht, get?_eq_behind? ho, h.classes]

end Alike

theorem alike_of_get?_eq {table other : ClassTable}
    (h : ∀ name, other.get? name = table.get? name) : table.Alike other := by
  have ht (name : String) : other.typeOf? name = table.typeOf? name :=
    typeOf?_congr (fun n _ => by rw [contains, contains, h]) name
  refine ⟨ht, fun name => ?_⟩
  simp only [behind?, ht, listClass, h]

namespace Grows

theorem refl (table : ClassTable) : table.Grows table := ⟨[], rfl⟩

theorem trans {table grown third : ClassTable} (h : table.Grows grown) (k : grown.Grows third) :
    table.Grows third := by
  obtain ⟨first, rfl⟩ := h
  obtain ⟨second, rfl⟩ := k
  exact ⟨first ++ second, by rw [resolveAll, resolveAll, resolveAll, List.foldl_append]⟩

theorem resolve (table : ClassTable) (name : String) : table.Grows (table.resolve name).2 :=
  ⟨[name], rfl⟩

theorem induct {table grown : ClassTable} {P : ClassTable → Prop} (h : table.Grows grown)
    (base : P table) (step : ∀ t name, P t → P (t.resolve name).2) : P grown := by
  obtain ⟨names, rfl⟩ := h
  induction names generalizing table with
  | nil => exact base
  | cons name names ih => exact ih (step table name base)

theorem alike {table grown : ClassTable} (h : table.Grows grown) : table.Alike grown :=
  h.induct (Alike.refl table) (fun t name ht => ht.trans (Alike.resolve t name))

theorem typeOf? {table grown : ClassTable} (h : table.Grows grown) (name : String) :
    grown.typeOf? name = table.typeOf? name := h.alike.types name

theorem get?_of_some {table grown : ClassTable} (h : table.Grows grown) {name : String}
    {c : ClassDef} (hc : table.get? name = some c) : grown.get? name = some c := by
  apply h.induct hc
  intro t resolved ht
  obtain hs | ⟨hn, -⟩ := get?_resolve t resolved name
  · rw [hs, ht]
  · rw [ht] at hn
    cases hn

theorem get?_of_grown {table grown : ClassTable} (h : table.Grows grown) {name : String}
    {c : ClassDef} (hc : grown.get? name = some c) :
    table.get? name = some c ∨
      ∃ element, table.typeOf? name = some (.list element) ∧ c = .listOf element := by
  have hi : table.Grows grown ∧ (grown.get? name = table.get? name ∨
      ∃ element, table.typeOf? name = some (.list element) ∧
        grown.get? name = some (.listOf element)) := by
    apply h.induct ⟨refl table, .inl rfl⟩
    rintro t resolved ⟨ht, hs⟩
    refine ⟨ht.trans (Grows.resolve t resolved), ?_⟩
    obtain hk | ⟨-, element, hn, hk⟩ := get?_resolve t resolved name
    · rwa [hk]
    · exact .inr ⟨element, by rw [← ht.typeOf?, hn], hk⟩
  obtain hs | ⟨element, ht, hs⟩ := hi.2
  · exact .inl (hs.symm.trans hc)
  · exact .inr ⟨element, ht, Option.some.inj (hc.symm.trans hs)⟩

theorem settled {table grown : ClassTable} (h : table.Grows grown) {name : String}
    (hs : table.Settled name) : grown.Settled name := by
  intro element ht
  rw [h.typeOf?] at ht
  obtain ⟨c, hc⟩ := contains_iff.mp (hs element ht)
  exact contains_of_get? (h.get?_of_some hc)

end Grows

end ClassLang.ClassTable
