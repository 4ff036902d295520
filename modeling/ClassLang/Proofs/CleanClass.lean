import ClassLang.Proofs.ClassHonesty

namespace ClassLang

open Scoped

variable {α β : Type} {table : ClassTable} {scopes : ScopeStack}

theorem Check.eq_false_of_failIf_clean {condition : Bool} {problem : Problem} {span : Span}
    (h : (Check.failIf condition problem span table).findings = []) : condition = false := by
  unfold Check.failIf at h
  cases condition with
  | false => rfl
  | true => cases h

variable [Alphabet]

/-- A check that needs no excuse and reports nothing has not failed. What follows it starts from a
grown table. -/
theorem Scoped.Honest.of_clean_bind {bad : α → Prop} {c : Scoped α} {f : α → Scoped β}
    (hc : Scoped.Honest (fun _ => .never) False bad c)
    (h : ((c >>= f) scopes table).findings = []) :
    (c scopes table).findings = [] ∧ ∃ a inner after, ¬ bad a ∧ table.Grows after ∧
      (f a inner after).findings = [] := by
  rw [findings_bind, List.append_eq_nil_iff] at h
  have hk := hc.check scopes table
  refine ⟨h.1, _, _, _, fun hb => ?_, hk.grows, h.2⟩
  obtain hn | hf | hx := hk.accounted hb
  · exact hn h.1
  · exact hf
  · exact hx

theorem Scoped.exists_of_anyFails_clean {f : α → Scoped Bool} {items : List α}
    (hf : ∀ a ∈ items, Scoped.Honest .faulty False (· = true) (f a))
    (h : (anyFails f items scopes table).findings = []) :
    ∀ a ∈ items, ∃ inner after, table.Grows after ∧ (f a inner after).findings = [] := by
  induction items generalizing scopes table with
  | nil => simp
  | cons b items ih =>
    intro a ha
    rw [anyFails, findings_bind, List.append_eq_nil_iff, findings_bind,
      List.append_eq_nil_iff] at h
    obtain rfl | ha := List.mem_cons.mp ha
    · exact ⟨scopes, table, .refl table, h.1⟩
    · obtain ⟨inner, after, hg, hn⟩ := ih (fun a ha => hf a (by simp [ha])) h.2.1 a ha
      exact ⟨inner, after, ((hf b (by simp)).check scopes table).grows.trans hg, hn⟩

theorem Check.exists_of_anyFails_clean {f : α → Check Bool} {items : List α}
    (hf : ∀ a t, ClassTable.Grows t (f a t).table)
    (h : (anyFails f items table).findings = []) :
    ∀ a ∈ items, ∃ after, table.Grows after ∧ (f a after).findings = [] := by
  induction items generalizing table with
  | nil => simp
  | cons b items ih =>
    intro a ha
    rw [Check.findings_anyFails_cons, List.append_eq_nil_iff] at h
    obtain rfl | ha := List.mem_cons.mp ha
    · exact ⟨table, .refl table, h.1⟩
    · obtain ⟨after, hg, hn⟩ := ih h.2 a ha
      exact ⟨after, (hf b table).trans hg, hn⟩

theorem Check.eq_some_of_expectType_clean {name : Ident}
    (h : (Check.expectType name table).findings = []) :
    ∃ ty, table.typeOf? name.text = some ty := by
  cases ht : table.typeOf? name.text with
  | some ty => exact ⟨ty, rfl⟩
  | none => exact absurd h (Check.findings_expectType_ne_nil ht)

namespace Member

structure Proper (m : Member) (c : ClassDef) (table : ClassTable) : Prop where
  typed : ¬ table.Dangling m
  place : m.modifier = .abstract → c.modifier = .abstract
  overrides : m.modifier = .override →
    ∃ after, table.Grows after ∧ after.hasOverridable c m = true

omit [Alphabet] in
theorem of_checkMethodHeader_clean {c : ClassDef} {m : Member} {r : Routine}
    (h : (m.checkMethodHeader c r table).findings = []) :
    (m.modifier = .abstract → c.modifier = .abstract) ∧
      (m.modifier = .override → table.hasOverridable c m = true) := by
  simp only [checkMethodHeader, Check.findings_bind, List.append_eq_nil_iff, Check.table_failIf,
    Check.classes] at h
  obtain ⟨-, hplace, -, -, -, hoverride, -⟩ := h
  have hp := Check.eq_false_of_failIf_clean hplace
  have ho := Check.eq_false_of_failIf_clean hoverride
  exact ⟨fun hm => by simpa [hm] using hp, fun hm => by simpa [hm] using ho⟩

theorem proper_of_checkMethod_clean {c : ClassDef} {m : Member} {r : Routine}
    (h : (m.checkMethod c r scopes table).findings = []) : m.Proper c table := by
  obtain ⟨ht, returnType, s₁, t₁, hr, g₁, h⟩ :=
    (honest_lift fun _ => Check.honest_expectType m.declaredType).of_clean_bind h
  rw [findings_lift] at ht
  obtain ⟨ty, hty⟩ := Check.eq_some_of_expectType_clean ht
  obtain ⟨returnType, rfl⟩ := Option.ne_none_iff_exists'.mp hr
  rw [findings_bind, List.append_eq_nil_iff, findings_lift] at h
  obtain ⟨hplace, hoverride⟩ := of_checkMethodHeader_clean h.1
  refine ⟨fun hd => ?_, hplace, fun hm => ⟨t₁, g₁, hoverride hm⟩⟩
  rw [ClassTable.Dangling, hty] at hd
  cases hd

end Member

namespace ClassDef

variable {c : ClassDef}

/-- The parts of a class were checked on tables grown from the given one, and nothing was
reported. -/
structure Cleared (c : ClassDef) (table : ClassTable) : Prop where
  backend : c.isBackend = true → isBackendName c.name = true
  label : c.label = .screen → c.modifier = .normal
  base : ∃ after, table.Grows after ∧ (c.checkBase after).findings = []
  members : ∀ m ∈ c.members, ∃ scopes after, table.Grows after ∧
    (m.check c scopes after).findings = []
  contract : ∃ after, table.Grows after ∧ (c.checkContract after).findings = []

theorem members_of_checkBody_clean (h : (c.checkBody scopes table).findings = []) :
    (∀ m ∈ c.members, ∃ inner after, table.Grows after ∧
      (m.check c inner after).findings = []) ∧
    ∃ after, table.Grows after ∧ (c.checkContract after).findings = [] := by
  obtain ⟨-, names, s₁, t₁, hn, g₁, h⟩ := c.honest_declareNames.of_clean_bind h
  obtain rfl : names = some false := not_not.mp hn
  obtain ⟨-, duplicate, s₂, t₂, hd, g₂, h⟩ :=
    (honest_lift fun _ => c.honest_checkUnique).of_clean_bind h
  obtain rfl : duplicate = false := Bool.eq_false_iff.mpr hd
  have hm (m : Member) (_ : m ∈ c.members) := m.honest_check c
  have hg := ((honest_anyFails hm).check s₂ t₂).grows
  rw [if_neg Bool.false_ne_true, findings_bind, List.append_eq_nil_iff, findings_bind,
    List.append_eq_nil_iff, findings_lift] at h
  refine ⟨fun m hc => ?_, _, g₁.trans (g₂.trans hg), h.2.1⟩
  obtain ⟨inner, after, g₃, hn⟩ := exists_of_anyFails_clean hm h.1 m hc
  exact ⟨inner, after, g₁.trans (g₂.trans g₃), hn⟩

theorem cleared_of_clean (h : (c.check scopes table).findings = []) : c.Cleared table := by
  obtain ⟨hbackend, _, s₁, t₁, -, g₁, h⟩ :=
    (honest_lift fun _ => Check.honest_failIf _ _ _).of_clean_bind h
  obtain ⟨hbase, base, s₂, t₂, hb, g₂, h⟩ :=
    (honest_lift fun _ => c.honest_checkBase).of_clean_bind h
  obtain rfl : base = some false := not_not.mp hb
  obtain ⟨hlabel, _, s₃, t₃, -, g₃, h⟩ :=
    (honest_lift fun _ => Check.honest_failIf _ _ _).of_clean_bind h
  rw [findings_bind, List.append_eq_nil_iff, findings_within] at h
  rw [findings_lift] at hbackend hbase hlabel
  obtain ⟨hm, after, g, hc⟩ := members_of_checkBody_clean h.1
  have hl := Check.eq_false_of_failIf_clean hlabel
  have hk := Check.eq_false_of_failIf_clean hbackend
  refine ⟨fun hb => ?_, fun hs => ?_, ⟨t₁, g₁, hbase⟩, fun m hmem => ?_,
    ⟨after, g₁.trans (g₂.trans (g₃.trans g)), hc⟩⟩
  · simpa [hb] using hk
  · simpa [hs] using hl
  · obtain ⟨inner, last, g₄, hn⟩ := hm m hmem
    exact ⟨inner, last, g₁.trans (g₂.trans (g₃.trans g₄)), hn⟩

namespace Cleared

theorem earlier {grown : ClassTable} (h : c.Cleared grown) (g : table.Grows grown) :
    c.Cleared table := by
  obtain ⟨backend, label, ⟨t₁, g₁, hb⟩, members, ⟨t₂, g₂, hc⟩⟩ := h
  refine ⟨backend, label, ⟨t₁, g.trans g₁, hb⟩, fun m hm => ?_, ⟨t₂, g.trans g₂, hc⟩⟩
  obtain ⟨scopes, t₃, g₃, hn⟩ := members m hm
  exact ⟨scopes, t₃, g.trans g₃, hn⟩

theorem proper (h : c.Cleared table) {m : Member} {r : Routine} (hm : (m, r) ∈ c.methods) :
    ∃ after, table.Grows after ∧ m.Proper c after := by
  obtain ⟨hc, hk⟩ := mem_methods.mp hm
  obtain ⟨scopes, after, hg, hn⟩ := h.members m hc
  rw [Member.check, hk] at hn
  exact ⟨after, hg, Member.proper_of_checkMethod_clean hn⟩

theorem not_dangling (h : c.Cleared table) {m : Member} {r : Routine}
    (hm : (m, r) ∈ c.methods) : ¬ table.Dangling m := by
  obtain ⟨after, hg, hp⟩ := h.proper hm
  exact fun hd => hp.typed (hg.dangling_iff.mpr hd)

theorem overrides (h : c.Cleared table) {m : Member} {r : Routine} (hm : (m, r) ∈ c.methods)
    (ho : m.modifier = .override) :
    ∃ after, table.Grows after ∧ after.hasOverridable c m = true := by
  obtain ⟨t₁, g₁, hp⟩ := h.proper hm
  obtain ⟨t₂, g₂, hn⟩ := hp.overrides ho
  exact ⟨t₂, g₁.trans g₂, hn⟩

theorem parent (h : c.Cleared table) {base : Ident} (hb : c.base = some base) :
    c.label ≠ .screen ∧ ∃ after parent, table.Grows after ∧ after.Settled base.text ∧
      after.get? base.text = some parent ∧ parent.modifier ≠ .concrete ∧
        after.isCyclic c = false := by
  obtain ⟨t₁, g₁, hn⟩ := h.base
  have g₂ := g₁.trans (.resolve t₁ base.text)
  have hs := t₁.settled_resolve base.text
  rw [checkBase, hb] at hn
  dsimp only at hn
  rw [Check.resolve_bind_apply, Check.classes_bind_apply] at hn
  generalize (t₁.resolve base.text).2 = t₂ at g₂ hs hn
  cases hp : t₂.get? base.text with
  | none =>
    rw [hp] at hn
    cases hn
  | some parent =>
    rw [hp] at hn
    cases hc : t₂.isCyclic c with
    | true =>
      rw [hc] at hn
      cases hn
    | false =>
      rw [hc] at hn
      obtain ⟨hm, -⟩ := List.append_eq_nil_iff.mp hn
      rw [checkBaseModifier] at hm
      by_cases hl : c.label = .screen
      · rw [if_pos hl] at hm
        cases hm
      · rw [if_neg hl] at hm
        have hm := Check.eq_false_of_failIf_clean hm
        exact ⟨hl, t₂, parent, g₂, hs, hp, by simpa using hm, hc⟩

/-- A class that inherits from a list whose class is yet to be made does not pass: that class will
be concrete. -/
theorem settled_base (h : c.Cleared table) {base : String} (hb : base ∈ c.baseName?) :
    table.Settled base := by
  obtain ⟨ident, hi, rfl⟩ := Option.map_eq_some_iff.mp hb
  obtain ⟨-, after, parent, hg, hs, hp, hm, -⟩ := h.parent hi
  intro element ht
  rw [ClassTable.get?_eq_behind? hs, hg.alike.classes, ClassTable.behind?, ht] at hp
  cases hc : table.contains ident.text with
  | true => rfl
  | false =>
    have hn : listName element.name = ident.text := ClassTable.name_of_typeOf? ht
    simp only [ClassTable.listClass, hn, ClassTable.contains_eq_false_iff.mp hc,
      Option.getD_none, Option.some.injEq] at hp
    exact absurd (hp ▸ rfl) hm

theorem implements (h : c.Cleared table) (hb : c.base.isSome = true) (hc : c.modifier ≠ .abstract) :
    ∃ after, table.Grows after ∧
      ∀ a ∈ after.ancestors c, ∀ required ∈ a.abstractMethods, ∃ m r, (m, r) ∈ c.methods ∧
        m.sameSignature required = true ∧ m.modifier = .override := by
  obtain ⟨t₁, g₁, hn⟩ := h.contract
  refine ⟨t₁, g₁, fun a ha required hr => ?_⟩
  rw [checkContract, if_pos (by simp [hb, hc]), Check.findings_bind, List.append_eq_nil_iff] at hn
  have hi (m : Member) : Check.Honest .never False (· = true) (c.checkImplements m) :=
    c.honest_checkImplements m
  obtain ⟨t₂, -, hn⟩ := Check.exists_of_anyFails_clean (fun m t => (hi m t).grows) hn.2 required
    (List.mem_flatMap.mpr ⟨a, ha, hr⟩)
  rw [checkImplements] at hn
  generalize hf : c.methods.find? _ = found at hn
  cases found with
  | none => cases hn
  | some found =>
    have hm := Check.eq_false_of_failIf_clean hn
    exact ⟨found.1, found.2, List.mem_of_find?_eq_some hf, by simpa using List.find?_some hf,
      by simpa using hm⟩

end Cleared

end ClassDef

end ClassLang
