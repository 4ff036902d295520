import ClassLang.Proofs.Chains
import Mathlib.Logic.Relation

namespace ClassLang.ClassTable

open Relation

/-- The second class is the one registered under the base name of the first. -/
def Extends (table : ClassTable) (c parent : ClassDef) : Prop := table.baseOf? c = some parent

/-- Whoever follows base links from the class meets no class without a base, and none whose base is
not registered. -/
def Endless (table : ClassTable) (c : ClassDef) : Prop :=
  ∀ a, ReflTransGen table.Extends c a →
    ∃ base, a.baseName? = some base ∧ table.contains base = true

variable {table : ClassTable} {c parent : ClassDef}

theorem extends_iff :
    table.Extends c parent ↔ ∃ base, c.baseName? = some base ∧ table.get? base = some parent :=
  Option.bind_eq_some_iff

theorem Extends.get? (h : table.Extends c parent) : table.get? parent.name = some parent := by
  obtain ⟨base, -, hp⟩ := extends_iff.mp h
  rwa [get?_name hp]

theorem Extends.unique {other : ClassDef} (h : table.Extends c parent)
    (k : table.Extends c other) : parent = other := Option.some.inj (h.symm.trans k)

theorem endless_of_transGen (h : TransGen table.Extends c c) : table.Endless c := by
  intro a ha
  have hback : TransGen table.Extends a a := by
    induction ha with
    | refl => exact h
    | tail _ hstep ih =>
      -- the way back from the class before goes over the same base
      obtain ⟨next, hnext, hrest⟩ := TransGen.head'_iff.mp ih
      obtain rfl := hnext.unique hstep
      exact TransGen.tail' hrest hstep
  obtain ⟨next, hnext, -⟩ := TransGen.head'_iff.mp hback
  obtain ⟨base, hb, hp⟩ := extends_iff.mp hnext
  exact ⟨base, hb, contains_of_get? hp⟩

section Climbing

variable {visited : List String} {base start : Option String}

theorem exists_first_of_mem_climb {a : ClassDef} (h : a ∈ (table.climb visited base).ancestors) :
    ∃ first, base.bind table.get? = some first ∧ ReflTransGen table.Extends first a := by
  fun_induction climb table visited base with
  | case1 | case2 | case3 => cases h
  | case4 visited name hv c hc rest ih =>
    refine ⟨c, hc, ?_⟩
    obtain rfl | ha := List.mem_cons.mp h
    · exact .refl
    · obtain ⟨first, hf, hr⟩ := ih ha
      exact .head hf hr

/-- The way up is cut nowhere but at visited names: the classes that its names stand for are on it
as well. -/
theorem mem_climb_or_visited
    (hs : start ∈ base :: (table.climb visited base).ancestors.map ClassDef.baseName?)
    (hp : start.bind table.get? = some parent) :
    parent ∈ (table.climb visited base).ancestors ∨ parent.name ∈ visited := by
  fun_induction climb table visited base with
  | case1 visited =>
    obtain rfl := List.mem_singleton.mp hs
    cases hp
  | case2 visited name hv =>
    obtain rfl := List.mem_singleton.mp hs
    exact .inr (get?_name hp ▸ hv)
  | case3 visited name hv hc =>
    obtain rfl := List.mem_singleton.mp hs
    cases hc.symm.trans hp
  | case4 visited name hv c hc rest ih =>
    obtain rfl | hs := List.mem_cons.mp hs
    · cases hc.symm.trans hp
      exact .inl List.mem_cons_self
    · obtain hm | hm := ih hs
      · exact .inl (List.mem_cons_of_mem c hm)
      · obtain he | hm := List.mem_cons.mp hm
        · obtain ⟨other, -, hother⟩ := Option.bind_eq_some_iff.mp hp
          rw [← get?_name hother, he, hc] at hother
          cases hother
          exact .inl List.mem_cons_self
        · exact .inr hm

theorem exists_name_of_repeated {name : String}
    (h : (table.climb visited base).ending = .repeated name)
    (hs : start ∈ base :: (table.climb visited base).ancestors.map ClassDef.baseName?) :
    ∃ followed, start = some followed ∧
      (followed ∈ visited ∨ table.contains followed = true) := by
  fun_induction climb table visited base with
  | case1 | case3 => cases h
  | case2 visited name hv => exact ⟨name, List.mem_singleton.mp hs, .inl hv⟩
  | case4 visited name hv c hc rest ih =>
    obtain rfl | hs := List.mem_cons.mp hs
    · exact ⟨name, rfl, .inr (contains_of_get? hc)⟩
    · obtain ⟨followed, hf, hm | hm⟩ := ih h hs
      · obtain rfl | hm := List.mem_cons.mp hm
        · exact ⟨followed, hf, .inr (contains_of_get? hc)⟩
        · exact ⟨followed, hf, .inl hm⟩
      · exact ⟨followed, hf, .inr hm⟩

theorem exists_end_of_not_repeated
    (h : ∀ name, (table.climb visited base).ending ≠ .repeated name) :
    ∃ last ∈ base :: (table.climb visited base).ancestors.map ClassDef.baseName?,
      last.bind table.get? = none := by
  fun_induction climb table visited base with
  | case1 visited => exact ⟨none, List.mem_singleton_self none, rfl⟩
  | case2 visited name hv => exact absurd rfl (h name)
  | case3 visited name hv hc => exact ⟨some name, List.mem_singleton_self _, hc⟩
  | case4 visited name hv c hc rest ih =>
    obtain ⟨last, hm, hl⟩ := ih h
    exact ⟨last, List.mem_cons_of_mem _ hm, hl⟩

end Climbing

theorem transGen_of_mem_ancestors {a : ClassDef} (h : a ∈ table.ancestors c) :
    TransGen table.Extends c a := by
  obtain ⟨first, hf, hr⟩ := exists_first_of_mem_climb h
  exact .head' hf hr

/-- A class and its ancestors are what base links lead to from it, whatever cycles there are. -/
theorem mem_line_iff (hc : table.get? c.name = some c) {a : ClassDef} :
    a ∈ c :: table.ancestors c ↔ ReflTransGen table.Extends c a := by
  constructor
  · intro ha
    obtain rfl | ha := List.mem_cons.mp ha
    · exact .refl
    · exact (transGen_of_mem_ancestors ha).to_reflTransGen
  · intro ha
    induction ha with
    | refl => exact List.mem_cons_self
    | @tail b d _ hstep ih =>
      have hb : b.baseName? ∈ (c :: table.ancestors c).map ClassDef.baseName? :=
        List.mem_map_of_mem ih
      obtain hm | hm := mem_climb_or_visited hb hstep
      · exact List.mem_cons_of_mem c hm
      · have hd := hstep.get?
        rw [List.mem_singleton.mp hm, hc] at hd
        cases hd
        exact List.mem_cons_self

theorem isCyclic_iff :
    table.isCyclic c = true ↔ ∃ name, (table.chain c).ending = .repeated name := by
  unfold isCyclic
  cases (table.chain c).ending <;> simp

/-- A class is cyclic if there is no end above it, be it on the cycle itself or below. -/
theorem isCyclic_iff_endless (hc : table.get? c.name = some c) :
    table.isCyclic c = true ↔ table.Endless c := by
  rw [isCyclic_iff]
  constructor
  · rintro ⟨name, hr⟩ a ha
    have hm : a.baseName? ∈ (c :: table.ancestors c).map ClassDef.baseName? :=
      List.mem_map_of_mem ((mem_line_iff hc).mpr ha)
    obtain ⟨base, hb, hv | hk⟩ := exists_name_of_repeated hr hm
    · exact ⟨base, hb, List.mem_singleton.mp hv ▸ contains_of_get? hc⟩
    · exact ⟨base, hb, hk⟩
  · intro h
    by_contra hn
    obtain ⟨last, hm, hl⟩ := exists_end_of_not_repeated (not_exists.mp hn)
    obtain ⟨a, ha, rfl⟩ : ∃ a ∈ c :: table.ancestors c, a.baseName? = last := List.mem_map.mp hm
    obtain ⟨base, hb, hk⟩ := h a ((mem_line_iff hc).mp ha)
    obtain ⟨d, hd⟩ := contains_iff.mp hk
    rw [hb, Option.bind_some, hd] at hl
    cases hl

variable [Alphabet]

/-- Whether a way up comes back to a name does not change by resolving names: a class that comes to
the table has no base. -/
theorem Grows.repeated_iff {grown : ClassTable} (h : table.Grows grown) (visited : List String)
    (base : Option String) (name : String) :
    (grown.climb visited base).ending = .repeated name ↔
      (table.climb visited base).ending = .repeated name := by
  fun_induction climb table visited base with
  | case1 visited => rw [climb_none]
  | case2 visited other hv => rw [climb_of_mem hv]
  | case3 visited other hv hc =>
    cases hd : grown.get? other with
    | none => rw [climb_of_get?_none hv hd]
    | some d =>
      obtain hs | ⟨element, -, rfl⟩ := h.get?_of_grown hd
      · cases hc.symm.trans hs
      · have hroot : (ClassDef.listOf element).baseName? = none := rfl
        rw [climb_of_get?_some hv hd, hroot, climb_none]
        simp
  | case4 visited other hv c hc rest ih => rw [climb_of_get?_some hv (h.get?_of_some hc), ih]

theorem Grows.isCyclic {grown : ClassTable} (h : table.Grows grown) (c : ClassDef) :
    grown.isCyclic c = table.isCyclic c := by
  rw [Bool.eq_iff_iff, isCyclic_iff, isCyclic_iff]
  exact exists_congr (h.repeated_iff [c.name] c.baseName?)

end ClassLang.ClassTable
