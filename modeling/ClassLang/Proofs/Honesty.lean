import ClassLang.Check.Expr
import ClassLang.Proofs.Chains
import ClassLang.Proofs.Outcomes

namespace ClassLang

variable [Alphabet]

namespace ClassTable

/-- The declared type of the member stands for nothing. -/
def Dangling (table : ClassTable) (m : Member) : Prop := table.typeOf? m.declaredType.text = none

/-- The declared type of the current member, or of a method of some registered class, stands for
nothing. -/
def Faulty (table : ClassTable) (current : Option Member) : Prop :=
  ∃ m, table.Dangling m ∧ (m ∈ current ∨ ∃ c ∈ table.classes, ∃ r, (m, r) ∈ c.methods)

theorem Grows.dangling_iff {table grown : ClassTable} (h : table.Grows grown) {m : Member} :
    grown.Dangling m ↔ table.Dangling m := by
  rw [Dangling, Dangling, h.typeOf?]

theorem not_dangling_listOf {table : ClassTable} {name : String} {element : Ty}
    (ht : table.typeOf? name = some (.list element)) {m : Member} {r : Routine}
    (hm : (m, r) ∈ (ClassDef.listOf element).methods) : ¬ table.Dangling m := by
  have he : table.typeOf? element.name = some element := (typeOf?_eq_list_iff.mp ht).2.1
  have hi : table.typeOf? "int" = some (.primitive .int) :=
    typeOf?_primitive table (by decide) (by decide)
  simp only [ClassDef.methods, ClassDef.listOf, listMethods, Member.provided, Ident.provided,
    List.filterMap_cons, List.filterMap_nil, List.mem_cons, List.not_mem_nil, or_false,
    Prod.mk.injEq] at hm
  obtain ⟨rfl, -⟩ | ⟨rfl, -⟩ | ⟨rfl, -⟩ | ⟨rfl, -⟩ | ⟨rfl, -⟩ | ⟨rfl, -⟩ | ⟨rfl, -⟩ := hm <;>
    simp [Dangling, typeOf?_void, he, hi]

theorem Grows.faulty {table grown : ClassTable} (h : table.Grows grown) {current : Option Member}
    (hf : grown.Faulty current) : table.Faulty current := by
  obtain ⟨m, hd, hm⟩ := hf
  refine ⟨m, h.dangling_iff.mp hd, ?_⟩
  obtain hm | ⟨c, hc, r, hr⟩ := hm
  · exact .inl hm
  · obtain hs | ⟨element, ht, rfl⟩ := h.get?_of_grown (get?_of_mem hc)
    · exact .inr ⟨c, mem_of_get? hs, r, hr⟩
    · exact absurd (h.dangling_iff.mp hd) (not_dangling_listOf ht hr)

end ClassTable

/-- A reason for which a check may fail without a report of its own. If it holds of a table, it held
before the table grew. -/
structure Excuse where
  holds : ClassTable → Prop
  earlier : ∀ {table grown : ClassTable}, table.Grows grown → holds grown → holds table

namespace Excuse

def never : Excuse := ⟨fun _ => False, fun _ h => h⟩

def dangling (m : Member) : Excuse :=
  ⟨fun table => table.Dangling m, fun h hd => h.dangling_iff.mp hd⟩

def faulty (current : Option Member) : Excuse :=
  ⟨fun table => table.Faulty current, fun h hf => h.faulty hf⟩

end Excuse

/-- How verdict and report of a check go together. It fails if it reports something or if a failure
came before it, and it fails without either for the given excuse only. -/
structure Outcome.Honest {α : Type} (table : ClassTable) (excuse : Excuse) (before : Prop)
    (fails : α → Prop) (o : Outcome α) : Prop where
  grows : table.Grows o.table
  told : o.findings ≠ [] ∨ before → fails o.result
  accounted : fails o.result → o.findings ≠ [] ∨ before ∨ excuse.holds table

theorem Outcome.Honest.excused {α : Type} {table : ClassTable} {excuse wider : Excuse}
    {before : Prop} {fails : α → Prop} {o : Outcome α} (h : o.Honest table excuse before fails)
    (he : excuse.holds table → wider.holds table) : o.Honest table wider before fails := by
  refine ⟨h.grows, h.told, fun hf => ?_⟩
  obtain hn | hb | hx := h.accounted hf
  · exact .inl hn
  · exact .inr (.inl hb)
  · exact .inr (.inr (he hx))

/-- What fails first counts as a failure before what follows. -/
theorem Outcome.Honest.bind {α β : Type} {table : ClassTable} {excuse : Excuse} {before : Prop}
    {bad : α → Prop} {fails : β → Prop} {c : Check α} {f : α → Check β}
    (h : (c table).Honest table excuse before bad)
    (k : (f (c table).result (c table).table).Honest (c table).table excuse
      (bad (c table).result) fails) :
    ((c >>= f) table).Honest table excuse before fails := by
  refine ⟨h.grows.trans k.grows, ?_, ?_⟩
  · rintro (hn | hb)
    · rw [Check.findings_bind, ne_eq, List.append_eq_nil_iff, not_and_or] at hn
      obtain hn | hn := hn
      · exact k.told (.inr (h.told (.inl hn)))
      · exact k.told (.inl hn)
    · exact k.told (.inr (h.told (.inr hb)))
  · intro hr
    rw [Check.findings_bind]
    obtain hn | hb | he := k.accounted hr
    · exact .inl (fun hz => hn (List.append_eq_nil_iff.mp hz).2)
    · obtain hn | hb | he := h.accounted hb
      · exact .inl (fun hz => hn (List.append_eq_nil_iff.mp hz).1)
      · exact .inr (.inl hb)
      · exact .inr (.inr he)
    · exact .inr (.inr (excuse.earlier h.grows he))

def Check.Honest {α : Type} (excuse : Excuse) (before : Prop) (fails : α → Prop) (c : Check α) :
    Prop :=
  ∀ table, (c table).Honest table excuse before fails

namespace Check

variable {α β : Type} {excuse : Excuse} {before : Prop} {bad : α → Prop} {fails : β → Prop}

theorem honest_pure {b : β} (h : fails b ↔ before) : Honest excuse before fails (pure b) := by
  intro table
  refine ⟨.refl table, ?_, ?_⟩
  · rintro (hn | hb)
    · exact absurd rfl hn
    · exact h.mpr hb
  · intro hf
    exact .inr (.inl (h.mp hf))

theorem honest_bind {c : Check α} {f : α → Check β} (hc : Honest excuse before bad c)
    (hf : ∀ a, Honest excuse (bad a) fails (f a)) : Honest excuse before fails (c >>= f) :=
  fun table => (hc table).bind (hf (c table).result (c table).table)

theorem Honest.after {c : Check α} (h : Honest excuse False bad c) (before : Prop) :
    Honest excuse before (fun a => before ∨ bad a) c := by
  intro table
  refine ⟨(h table).grows, ?_, ?_⟩
  · rintro (hn | hb)
    · exact .inr ((h table).told (.inl hn))
    · exact .inl hb
  · rintro (hb | hf)
    · exact .inr (.inl hb)
    · obtain hn | hb | he := (h table).accounted hf
      · exact .inl hn
      · exact hb.elim
      · exact .inr (.inr he)

theorem Honest.first {c : Check β} (h : Honest excuse False fails c) (hb : ¬ before) :
    Honest excuse before fails c := by
  obtain rfl : before = False := eq_false hb
  exact h

theorem honest_report (problem : Problem) (span : Span) :
    Honest excuse before (fun _ => True) (report problem span) := by
  intro table
  exact ⟨.refl table, fun _ => trivial, fun _ => .inl (by simp [report])⟩

def Quiet (c : Check α) : Prop :=
  ∀ table, ClassTable.Grows table (c table).table ∧ (c table).findings = []

theorem quiet_pure (a : α) : Quiet (pure a) := fun table => ⟨.refl table, rfl⟩

theorem quiet_bind {c : Check α} {f : α → Check β} (hc : Quiet c) (hf : ∀ a, Quiet (f a)) :
    Quiet (c >>= f) := by
  intro table
  obtain ⟨hg, hq⟩ := hc table
  obtain ⟨kg, kq⟩ := hf (c table).result (c table).table
  exact ⟨hg.trans kg, by rw [findings_bind, hq, kq, List.append_nil]⟩

theorem quiet_classes : Quiet classes := fun table => ⟨.refl table, rfl⟩

theorem honest_classes_bind {f : ClassTable → Check β}
    (h : ∀ table, (f table table).Honest table excuse before fails) :
    Honest excuse before fails (classes >>= f) := h

theorem quiet_resolve (name : String) : Quiet (resolve name) :=
  fun table => ⟨.resolve table name, rfl⟩

theorem quiet_forEach {f : α → Check β} (hf : ∀ a, Quiet (f a)) (items : List α) :
    Quiet (forEach f items) := by
  induction items with
  | nil => exact quiet_pure []
  | cons a items ih =>
    apply quiet_bind (hf a)
    intro b
    apply quiet_bind ih
    intro rest
    exact quiet_pure _

theorem honest_quiet {c : Check α} (h : Quiet c) : Honest excuse before (fun _ => before) c := by
  intro table
  refine ⟨(h table).1, ?_, fun hb => .inr (.inl hb)⟩
  rintro (hn | hb)
  · exact absurd (h table).2 hn
  · exact hb

theorem honest_fail (problem : Problem) (span : Span) :
    Honest excuse before (· = true) (fail problem span) := by
  apply honest_bind (honest_report problem span)
  intro _
  exact honest_pure (by simp)

theorem honest_failIf (condition : Bool) (problem : Problem) (span : Span) :
    Honest excuse False (· = true) (failIf condition problem span) := by
  unfold failIf
  split
  · exact honest_fail problem span
  · exact honest_pure (by simp)

theorem honest_refuse (problem : Problem) (span : Span) :
    Honest excuse before (· = (none : Option α)) (refuse problem span) := by
  apply honest_bind (honest_report problem span)
  intro _
  exact honest_pure (by simp)

theorem honest_resolve (m : Member) :
    Honest (.dangling m) False (· = none) (resolve m.declaredType.text) := by
  intro table
  refine ⟨.resolve table _, ?_, fun hn => .inr (.inr hn)⟩
  rintro (hn | hb)
  · exact absurd rfl hn
  · exact hb.elim

theorem honest_expectType (name : Ident) :
    Honest excuse False (· = none) (expectType name) := by
  apply honest_bind (honest_quiet (quiet_resolve name.text))
  intro ty
  cases ty with
  | none => exact honest_refuse _ _
  | some ty => exact honest_pure (by simp)

theorem honest_expectValueType (name : Ident) :
    Honest excuse False (· = none) (expectValueType name) := by
  apply honest_bind (honest_expectType name)
  intro ty
  split
  · exact honest_refuse _ _
  · exact honest_pure Iff.rfl

theorem honest_anyFails {f : α → Check Bool} {items : List α}
    (h : ∀ a ∈ items, Honest excuse False (· = true) (f a)) :
    Honest excuse False (· = true) (anyFails f items) := by
  induction items with
  | nil => exact honest_pure (by simp)
  | cons a items ih =>
    apply honest_bind (h a (by simp))
    intro failed
    apply honest_bind ((ih fun b hb => h b (by simp [hb])).after _)
    intro restFailed
    exact honest_pure (by simp)

end Check

end ClassLang
