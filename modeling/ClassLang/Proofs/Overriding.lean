import ClassLang.Proofs.Hierarchy
import ClassLang.Types.WordChar

namespace ClassLang

theorem Member.sameSignature_trans {m n o : Member} (h : m.sameSignature n = true)
    (k : n.sameSignature o = true) : m.sameSignature o = true := by
  simp only [sameSignature, Bool.and_eq_true, beq_iff_eq] at h k ⊢
  exact ⟨⟨h.1.1.trans k.1.1, h.1.2.trans k.1.2⟩, h.2.trans k.2⟩

namespace Program

open ClassTable

variable [Alphabet]

section Clean

variable {p : Program} {c : ClassDef} (h : (p.check .empty).findings = []) (hc : c ∈ p.classes)

include h hc

theorem ancestors_suffix {a : ClassDef} (ha : a ∈ p.checkedTable.ancestors c) :
    a :: p.checkedTable.ancestors a <:+ p.checkedTable.ancestors c := by
  obtain ⟨hup, hall⟩ := ascends_ancestors h hc
  obtain ⟨nearer, rest, he⟩ := List.append_of_mem ha
  have hs : a :: rest <:+ p.checkedTable.ancestors c := ⟨nearer, he.symm⟩
  have hrest := (hup.rest hs).unique (ascends_ancestors h (hall a ha).1).1
  rwa [hrest] at hs

theorem implements_abstract (hm : c.modifier ≠ .abstract) {a : ClassDef}
    (ha : a ∈ p.checkedTable.ancestors c) {m : Member} {r : Routine} (hmem : (m, r) ∈ a.methods)
    (habs : m.modifier = .abstract) :
    ∃ n s, (n, s) ∈ c.methods ∧ n.sameSignature m = true ∧ n.modifier = .override := by
  have hb : c.base.isSome = true := by
    cases hb : c.base with
    | some base => rfl
    | none =>
      rw [ancestors, chain, ClassDef.baseName?, hb, Option.map_none, climb_none] at ha
      cases ha
  obtain ⟨after, hg, himp⟩ := (cleared_of_clean h c hc).implements hb hm
  rw [ancestors_checkedTable h hc hg] at ha
  apply himp a ha m
  rw [ClassDef.abstractMethods, List.mem_filter]
  exact ⟨List.mem_map.mpr ⟨(m, r), hmem, rfl⟩, by simp [habs]⟩

/-- Some ancestor has a method of the same signature that is not normal. It may be an override
itself. -/
theorem exists_overridable {m : Member} {r : Routine} (hmem : (m, r) ∈ c.methods)
    (ho : m.modifier = .override) :
    ∃ a ∈ p.checkedTable.ancestors c, ∃ n s, (n, s) ∈ a.methods ∧ n.sameSignature m = true ∧
      n.modifier ≠ .normal := by
  obtain ⟨after, hg, hover⟩ := (cleared_of_clean h c hc).overrides hmem ho
  simp only [hasOverridable, ← ancestors_checkedTable h hc hg, List.any_eq_true,
    Bool.and_eq_true, bne_iff_ne] at hover
  obtain ⟨a, ha, ⟨n, s⟩, hn, hnormal, hsig⟩ := hover
  exact ⟨a, ha, n, s, hn, hsig, hnormal⟩

/-- What an override overrides was introduced by some ancestor as virtual or abstract. The way from
override to override leads up the chain, which is finite. -/
theorem exists_introduced {m : Member} {r : Routine} (hmem : (m, r) ∈ c.methods)
    (ho : m.modifier = .override) :
    ∃ a ∈ p.checkedTable.ancestors c, ∃ n s, (n, s) ∈ a.methods ∧ n.sameSignature m = true ∧
      (n.modifier = .virtual ∨ n.modifier = .abstract) := by
  induction hlen : (p.checkedTable.ancestors c).length using Nat.strongRecOn
    generalizing c m r with
  | ind length ih =>
    obtain ⟨a, ha, n, s, hn, hsig, hnormal⟩ := exists_overridable h hc hmem ho
    cases hmod : n.modifier with
    | normal => exact absurd hmod hnormal
    | virtual => exact ⟨a, ha, n, s, hn, hsig, .inl hmod⟩
    | abstract => exact ⟨a, ha, n, s, hn, hsig, .inr hmod⟩
    | override =>
      -- the ancestor overrides in turn, and fewer classes are above it than above `c`
      have hs := ancestors_suffix h hc ha
      have hlt : (p.checkedTable.ancestors a).length < length := by
        have hle := hs.length_le
        rw [List.length_cons, hlen] at hle
        omega
      have hap : a ∈ p.classes := ((ascends_ancestors h hc).2 a ha).1
      obtain ⟨b, hb, o, t, hmo, hsig', hvirtual⟩ := ih _ hlt hap hn hmod rfl
      exact ⟨b, hs.subset (List.mem_cons_of_mem a hb), o, t, hmo,
        Member.sameSignature_trans hsig' hsig, hvirtual⟩

end Clean

/-- If the analysis of a program finds nothing wrong, then each class that is not abstract overrides
every abstract method of its ancestors and declares none, and each override goes back to a virtual
or abstract method of an ancestor. -/
theorem overriding_of_success {p : Program} {file : String}
    (h : (Context.run { file } p.check).2.diagnostics = []) {c : ClassDef} (hc : c ∈ p.classes) :
    let table := (Context.run { file } p.check).2.classes
    (c.modifier ≠ .abstract → ∀ a ∈ table.ancestors c, ∀ m r, (m, r) ∈ a.methods →
      m.modifier = .abstract →
        ∃ n s, (n, s) ∈ c.methods ∧ n.sameSignature m = true ∧ n.modifier = .override) ∧
    (∀ m r, (m, r) ∈ c.methods → m.modifier = .override →
      ∃ a ∈ table.ancestors c, ∃ n s, (n, s) ∈ a.methods ∧ n.sameSignature m = true ∧
        (n.modifier = .virtual ∨ n.modifier = .abstract)) ∧
    (c.modifier ≠ .abstract → ∀ m r, (m, r) ∈ c.methods → m.modifier ≠ .abstract) := by
  intro table
  rw [diagnostics_run, List.map_eq_nil_iff] at h
  refine ⟨fun hm a ha m r hmem habs => ?_, fun m r hmem ho => ?_, fun hm m r hmem habs => ?_⟩
  · exact implements_abstract h hc hm ha hmem habs
  · exact exists_introduced h hc hmem ho
  · obtain ⟨after, -, hp⟩ := (cleared_of_clean h c hc).proper hmem
    exact hm (hp.place habs)

end Program

end ClassLang

namespace ClassLang

attribute [local instance] Alphabet.unicode

namespace Program

open ClassTable

theorem overriding_of_shapes :
    let table := (Context.run { file := "Main.lang" } shapes.check).2.classes
    let m := area "Circle" .override (returning "2")
    (Context.run { file := "Main.lang" } shapes.check).2.diagnostics = [] ∧
      circle ∈ shapes.classes ∧
      ∃ a ∈ table.ancestors circle, ∃ n s, (n, s) ∈ a.methods ∧ n.sameSignature m = true ∧
        (n.modifier = .virtual ∨ n.modifier = .abstract) := by
  intro table m
  refine ⟨shapes_clean, circle_mem, ?_⟩
  exact (overriding_of_success shapes_clean circle_mem).2.1 m _ List.mem_cons_self rfl

end Program

end ClassLang
