import ClassLang.Proofs.BaseLinks
import ClassLang.Proofs.OrderIndependence

namespace ClassLang.ClassTable

open Relation

/-- The types are the same, or both are classes and base links lead from the first to the
second. -/
inductive IsSubtype (table : ClassTable) : Ty → Ty → Prop
  | same (ty : Ty) : IsSubtype table ty ty
  | derived {x y : String} {c d : ClassDef} (hx : table.get? x = some c)
      (hy : table.get? y = some d) (h : TransGen table.Extends c d) :
      IsSubtype table (.classRef x) (.classRef y)

variable {table : ClassTable} {x y : String} {a b : Ty}

theorem isAncestor_iff :
    table.isAncestor y x = true ↔
      ∃ c d, table.get? x = some c ∧ table.get? y = some d ∧ d ∈ table.ancestors c := by
  unfold isAncestor
  cases hx : table.get? x with
  | none => simp
  | some c =>
    simp only [List.any_eq_true, beq_iff_eq]
    constructor
    · rintro ⟨d, hd, rfl⟩
      exact ⟨c, d, rfl, get?_of_mem (mem_classes_of_mem_climb hd), hd⟩
    · rintro ⟨c, d, ⟨⟩, hy, hd⟩
      exact ⟨d, hd, get?_name hy⟩

/-- The ancestors of a class leave out the class itself and end where a name repeats. Neither makes
a difference to which classes it fits. -/
theorem isAssignable_iff_isSubtype : table.isAssignable a b = true ↔ table.IsSubtype a b := by
  constructor
  · intro h
    obtain he | h := Bool.or_eq_true_iff.mp h
    · rw [beq_iff_eq.mp he]
      exact .same b
    · split at h
      · obtain ⟨c, d, hx, hy, hd⟩ := isAncestor_iff.mp h
        exact .derived hx hy (transGen_of_mem_ancestors hd)
      · cases h
  · intro h
    cases h with
    | same => simp [isAssignable]
    | @derived x y c d hx hy h =>
      have hc : table.get? c.name = some c := by rwa [get?_name hx]
      have hd : d ∈ c :: table.ancestors c := (mem_line_iff hc).mpr h.to_reflTransGen
      obtain rfl | hd := List.mem_cons.mp hd
      · simp [isAssignable, (get?_name hx).symm.trans (get?_name hy)]
      · simp [isAssignable, isAncestor_iff.mpr ⟨c, d, hx, hy, hd⟩]

namespace IsSubtype

theorem trans {c : Ty} (h : table.IsSubtype a b) (k : table.IsSubtype b c) :
    table.IsSubtype a c := by
  cases h with
  | same => exact k
  | derived hx hy h =>
    cases k with
    | same => exact .derived hx hy h
    | derived hy' hz k =>
      cases hy.symm.trans hy'
      exact .derived hx hz (h.trans k)

theorem classRefs (h : table.IsSubtype a b) (hne : a ≠ b) :
    ∃ x y, a = .classRef x ∧ b = .classRef y := by
  cases h with
  | same => exact absurd rfl hne
  | @derived x y => exact ⟨x, y, rfl, rfl⟩

theorem classRef_iff : table.IsSubtype (.classRef x) (.classRef y) ↔
    x = y ∨ ∃ c d, table.get? x = some c ∧ table.get? y = some d ∧
      TransGen table.Extends c d := by
  constructor
  · intro h
    cases h with
    | same => exact .inl rfl
    | @derived x y c d hx hy h => exact .inr ⟨c, d, hx, hy, h⟩
  · rintro (rfl | ⟨c, d, hx, hy, h⟩)
    · exact .same _
    · exact .derived hx hy h

theorem antisymm (hacyclic : ∀ c ∈ table.classes, table.isCyclic c = false)
    (h : table.IsSubtype a b) (k : table.IsSubtype b a) : a = b := by
  cases h with
  | same => rfl
  | @derived x y c d hx hy h =>
    obtain rfl | ⟨d', c', hy', hx', k⟩ := classRef_iff.mp k
    · rfl
    · cases hx.symm.trans hx'
      cases hy.symm.trans hy'
      have hc : table.get? c.name = some c := by rwa [get?_name hx]
      have hcyclic := (isCyclic_iff_endless hc).mpr (endless_of_transGen (h.trans k))
      rw [hacyclic c (mem_of_get? hx)] at hcyclic
      cases hcyclic

end IsSubtype

/-- Assignability is a preorder. A class may stand for another one exactly if it is that class or
inherits from it over one or more base links; no other types may stand for each other, and lists of
different elements may not. Unless the base links of some class never end, types that may stand for
each other are the same. -/
theorem assignability_is_subtyping (table : ClassTable) :
    (∀ a, table.isAssignable a a = true) ∧
    (∀ a b c, table.isAssignable a b = true → table.isAssignable b c = true →
      table.isAssignable a c = true) ∧
    (∀ x y, table.isAssignable (.classRef x) (.classRef y) = true ↔
      x = y ∨ ∃ c d, table.get? x = some c ∧ table.get? y = some d ∧
        TransGen table.Extends c d) ∧
    (∀ a b, table.isAssignable a b = true → a ≠ b → ∃ x y, a = .classRef x ∧ b = .classRef y) ∧
    (∀ a b, table.isAssignable (.list a) (.list b) = true ↔ a = b) ∧
    ((∀ c ∈ table.classes, table.isCyclic c = false) →
      ∀ a b, table.isAssignable a b = true → table.isAssignable b a = true → a = b) := by
  simp only [isAssignable_iff_isSubtype]
  refine ⟨IsSubtype.same, fun a b c => IsSubtype.trans, fun x y => IsSubtype.classRef_iff,
    fun a b => IsSubtype.classRefs, fun a b => ⟨fun h => ?_, ?_⟩,
    fun hacyclic a b => IsSubtype.antisymm hacyclic⟩
  · cases h
    rfl
  · rintro rfl
    exact .same _

def ring : ClassTable :=
  empty.registerAll [Program.simpleClass "Leaf" (some "Ring") [],
    Program.simpleClass "Ring" (some "Link") [], Program.simpleClass "Link" (some "Ring") []]

def pack : ClassTable :=
  empty.registerAll [Program.simpleClass "Puppy" (some "Dog") [],
    Program.simpleClass "Dog" (some "Animal") [], Program.simpleClass "Animal" none [],
    Program.simpleClass "Stray" (some "Missing") []]

theorem assignability_in_ring_and_pack :
    ring.isAssignable (.classRef "Leaf") (.classRef "Ring") = true ∧
      ring.isAssignable (.classRef "Ring") (.classRef "Link") = true ∧
      ring.isAssignable (.classRef "Link") (.classRef "Ring") = true ∧
      ring.isAssignable (.classRef "Leaf") (.classRef "Link") = true ∧
      (∀ c ∈ pack.classes, pack.isCyclic c = false) ∧
      pack.isAssignable (.classRef "Puppy") (.classRef "Animal") = true ∧
      ∀ a b, pack.isAssignable a b = true → pack.isAssignable b a = true → a = b := by
  have hring : ring.isAssignable (.classRef "Leaf") (.classRef "Ring") = true := by decide +kernel
  have hlink : ring.isAssignable (.classRef "Ring") (.classRef "Link") = true := by decide +kernel
  have hpack : ∀ c ∈ pack.classes, pack.isCyclic c = false := by decide +kernel
  obtain ⟨-, htrans, -⟩ := assignability_is_subtyping ring
  obtain ⟨-, -, -, -, -, hantisymm⟩ := assignability_is_subtyping pack
  exact ⟨hring, hlink, by decide +kernel, htrans _ _ _ hring hlink, hpack, by decide +kernel,
    hantisymm hpack⟩

end ClassLang.ClassTable
