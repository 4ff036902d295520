import ClassLang.Check.Access
import ClassLang.Check.Member
import ClassLang.Proofs.TableGrowth

namespace ClassLang

namespace ClassDef

variable {c : ClassDef} {m : Member}

theorem mem_fields {declarators : List Declarator} :
    (m, declarators) ∈ c.fields ↔ m ∈ c.members ∧ m.kind = .field declarators := by
  simp only [fields, List.mem_filterMap]
  constructor
  · rintro ⟨n, hn, he⟩
    split at he <;> cases he
    exact ⟨hn, ‹_›⟩
  · rintro ⟨hm, hk⟩
    exact ⟨m, hm, by rw [hk]⟩

theorem mem_methods {r : Routine} : (m, r) ∈ c.methods ↔ m ∈ c.members ∧ m.kind = .method r := by
  simp only [methods, List.mem_filterMap]
  constructor
  · rintro ⟨n, hn, he⟩
    split at he
    · next routine hk =>
      cases he
      exact ⟨hn, hk⟩
    · cases he
  · rintro ⟨hm, hk⟩
    exact ⟨m, hm, by rw [hk]⟩

theorem mem_of_mem_operators {r : Member × Routine} (h : r ∈ c.operators) : r.1 ∈ c.members := by
  obtain ⟨n, hn, he⟩ := List.mem_filterMap.mp h
  split at he <;> cases he
  exact hn

theorem mem_of_findMember? {name : String} (h : c.findMember? name = some m) : m ∈ c.members := by
  rw [findMember?, Option.or_eq_some_iff] at h
  obtain hf | ⟨-, hm⟩ := h
  · obtain ⟨r, hr, rfl⟩ := Option.map_eq_some_iff.mp hf
    exact (mem_fields.mp (List.mem_of_find?_eq_some hr)).1
  · obtain ⟨r, hr, rfl⟩ := Option.map_eq_some_iff.mp hm
    exact (mem_methods.mp (List.mem_of_find?_eq_some hr)).1

end ClassDef

namespace ClassTable

section Climbing

variable {table : ClassTable} {visited : List String} {name : String}

@[simp]
theorem climb_none (table : ClassTable) (visited : List String) :
    table.climb visited none = ⟨[], .root⟩ := by
  rw [climb]

theorem climb_of_mem (hv : name ∈ visited) :
    table.climb visited (some name) = ⟨[], .repeated name⟩ := by
  rw [climb, dif_pos hv]

theorem climb_of_get?_none (hv : name ∉ visited) (hc : table.get? name = none) :
    table.climb visited (some name) = ⟨[], .unknown name⟩ := by
  rw [climb, dif_neg hv]
  split
  case h_1 => rfl
  case h_2 c hs => rw [hc] at hs; cases hs

theorem climb_of_get?_some {c : ClassDef} (hv : name ∉ visited) (hc : table.get? name = some c) :
    table.climb visited (some name) =
      ⟨c :: (table.climb (name :: visited) c.baseName?).ancestors,
        (table.climb (name :: visited) c.baseName?).ending⟩ := by
  rw [climb, dif_neg hv]
  split
  case h_1 hn => rw [hc] at hn; cases hn
  case h_2 d hs => cases hc.symm.trans hs; rfl

end Climbing

theorem mem_classes_of_mem_climb {table : ClassTable} {visited : List String}
    {base : Option String} {a : ClassDef} (h : a ∈ (table.climb visited base).ancestors) :
    a ∈ table.classes := by
  fun_induction climb table visited base with
  | case1 | case2 | case3 => cases h
  | case4 visited name hv c hc rest ih =>
    obtain rfl | hm := List.mem_cons.mp h
    · exact mem_of_get? hc
    · exact ih hm

theorem lineage_of_get? {table : ClassTable} {name : String} {c : ClassDef}
    (h : table.get? name = some c) : table.lineage name = c :: table.ancestors c := by
  rw [lineage, h]

theorem mem_classes_of_mem_lineage {table : ClassTable} {name : String} {a : ClassDef}
    (h : a ∈ table.lineage name) : a ∈ table.classes := by
  unfold lineage at h
  split at h
  · next c hc =>
    obtain rfl | hm := List.mem_cons.mp h
    · exact mem_of_get? hc
    · exact mem_classes_of_mem_climb hm
  · cases h

theorem of_findMember? {table : ClassTable} {className name : String} {owner : ClassDef}
    {m : Member} (h : table.findMember? className name = some (owner, m)) :
    owner ∈ table.lineage className ∧ m ∈ owner.members := by
  obtain ⟨c, hc, hf⟩ := List.exists_of_findSome?_eq_some h
  obtain ⟨found, hfound, he⟩ := Option.map_eq_some_iff.mp hf
  cases he
  exact ⟨hc, ClassDef.mem_of_findMember? hfound⟩

theorem of_findMethod? {table : ClassTable} {className name : String} {owner : ClassDef}
    {m : Member} (h : table.findMethod? className name = some (owner, m)) :
    owner ∈ table.lineage className ∧ ∃ r, (m, r) ∈ owner.methods := by
  obtain ⟨c, hc, hf⟩ := List.exists_of_findSome?_eq_some h
  obtain ⟨found, hfound, he⟩ := Option.map_eq_some_iff.mp hf
  cases he
  obtain ⟨⟨n, r⟩, hr, hn⟩ := Option.map_eq_some_iff.mp hfound
  obtain rfl : n = m := hn
  exact ⟨hc, r, List.mem_of_find?_eq_some hr⟩

theorem of_mem_operatorCandidates {table : ClassTable} {className symbol : String} {count : Nat}
    {m : Member} (h : m ∈ table.operatorCandidates className symbol count) :
    ∃ owner ∈ table.lineage className, m ∈ owner.members := by
  obtain ⟨owner, ho, hm⟩ := List.mem_flatMap.mp h
  obtain ⟨r, hr, rfl⟩ := List.mem_map.mp hm
  exact ⟨owner, ho, ClassDef.mem_of_mem_operators (List.mem_filter.mp hr).1⟩

/-- Under the given names both tables hold the same classes, and the bases of these have such names
again. Whatever is looked up from such a name is the same in both tables. -/
structure SameOn (names : Set String) (table other : ClassTable) : Prop where
  get? : ∀ name ∈ names, other.get? name = table.get? name
  bases : ∀ name ∈ names, ∀ c, table.get? name = some c → ∀ base ∈ c.baseName?, base ∈ names

namespace SameOn

variable {names : Set String} {table other : ClassTable}

section Climbing

variable {base : Option String}

theorem climb (h : SameOn names table other) (visited : List String)
    (hb : ∀ name ∈ base, name ∈ names) :
    other.climb visited base = table.climb visited base := by
  fun_induction ClassTable.climb table visited base with
  | case1 visited => rw [climb_none]
  | case2 visited name hv => rw [climb_of_mem hv]
  | case3 visited name hv hc => rw [climb_of_get?_none hv ((h.get? name (hb name rfl)).trans hc)]
  | case4 visited name hv c hc rest ih =>
    have hd : other.get? name = some c := (h.get? name (hb name rfl)).trans hc
    rw [climb_of_get?_some hv hd, ih (h.bases name (hb name rfl) c hc)]

theorem name_mem_of_mem_climb (h : SameOn names table other) (visited : List String)
    (hb : ∀ name ∈ base, name ∈ names) {a : ClassDef}
    (ha : a ∈ (table.climb visited base).ancestors) : a.name ∈ names := by
  fun_induction ClassTable.climb table visited base with
  | case1 | case2 | case3 => cases ha
  | case4 visited name hv c hc rest ih =>
    have hn : name ∈ names := hb name rfl
    obtain rfl | hm := List.mem_cons.mp ha
    · rwa [get?_name hc]
    · exact ih (h.bases name hn c hc) hm

end Climbing

section Class

variable {c : ClassDef}

theorem chain (h : SameOn names table other) (hb : ∀ base ∈ c.baseName?, base ∈ names) :
    other.chain c = table.chain c := h.climb [c.name] hb

theorem ancestors (h : SameOn names table other) (hb : ∀ base ∈ c.baseName?, base ∈ names) :
    other.ancestors c = table.ancestors c := congrArg Chain.ancestors (h.chain hb)

theorem isCyclic (h : SameOn names table other) (hb : ∀ base ∈ c.baseName?, base ∈ names) :
    other.isCyclic c = table.isCyclic c := by
  rw [ClassTable.isCyclic, ClassTable.isCyclic, h.chain hb]

theorem hasOverridable (h : SameOn names table other) (hb : ∀ base ∈ c.baseName?, base ∈ names)
    (m : Member) : other.hasOverridable c m = table.hasOverridable c m := by
  rw [ClassTable.hasOverridable, ClassTable.hasOverridable, h.ancestors hb]

end Class

section Name

variable {name : String}

theorem lineage (h : SameOn names table other) (hn : name ∈ names) :
    other.lineage name = table.lineage name := by
  rw [ClassTable.lineage, ClassTable.lineage, h.get? name hn]
  cases hc : table.get? name with
  | none => rfl
  | some c => exact congrArg (c :: ·) (h.ancestors (h.bases name hn c hc))

theorem name_mem_of_mem_lineage (h : SameOn names table other) (hn : name ∈ names)
    {owner : ClassDef} (ho : owner ∈ table.lineage name) : owner.name ∈ names := by
  unfold ClassTable.lineage at ho
  split at ho
  · next c hc =>
    obtain rfl | hm := List.mem_cons.mp ho
    · rwa [get?_name hc]
    · exact h.name_mem_of_mem_climb [c.name] (h.bases name hn c hc) hm
  · cases ho

theorem isAncestor (h : SameOn names table other) (hn : name ∈ names) (ancestor : String) :
    other.isAncestor ancestor name = table.isAncestor ancestor name := by
  have hl (t : ClassTable) :
      t.isAncestor ancestor name = (t.lineage name).tail.any (fun a => a.name == ancestor) := by
    rw [ClassTable.isAncestor, ClassTable.lineage]
    cases t.get? name <;> rfl
  rw [hl, hl, h.lineage hn]

theorem findMember? (h : SameOn names table other) (hn : name ∈ names) (member : String) :
    other.findMember? name member = table.findMember? name member := by
  rw [ClassTable.findMember?, ClassTable.findMember?, h.lineage hn]

theorem findMethod? (h : SameOn names table other) (hn : name ∈ names) (method : String) :
    other.findMethod? name method = table.findMethod? name method := by
  rw [ClassTable.findMethod?, ClassTable.findMethod?, h.lineage hn]

theorem operatorCandidates (h : SameOn names table other) (hn : name ∈ names) (symbol : String)
    (count : Nat) :
    other.operatorCandidates name symbol count = table.operatorCandidates name symbol count := by
  rw [ClassTable.operatorCandidates, ClassTable.operatorCandidates, h.lineage hn]

end Name

theorem isAccessible (h : SameOn names table other) {scopes : ScopeStack}
    (hs : ∀ c ∈ scopes.currentClass?, c.name ∈ names) (owner : ClassDef) (m : Member) :
    other.isAccessible scopes owner m = table.isAccessible scopes owner m := by
  unfold ClassTable.isAccessible
  cases hc : scopes.currentClass? with
  | none => rfl
  | some c => simp only [Option.any_some, h.isAncestor (hs c hc)]

end SameOn

variable [Alphabet]

/-- No base of a registered class is a list whose class is yet to be made. -/
def BasesSettled (table : ClassTable) : Prop :=
  ∀ c ∈ table.classes, ∀ base ∈ c.baseName?, table.Settled base

theorem Grows.basesSettled {table grown : ClassTable} (h : table.Grows grown)
    (hb : table.BasesSettled) : grown.BasesSettled := by
  intro c hc base hbase
  obtain hs | ⟨element, -, rfl⟩ := h.get?_of_grown (get?_of_mem hc)
  · exact h.settled (hb c (mem_of_get? hs) base hbase)
  · cases hbase

structure Twins (table other : ClassTable) : Prop where
  alike : table.Alike other
  left : table.BasesSettled
  right : other.BasesSettled

theorem Settled.of_get?_eq {table other : ClassTable} {name : String} (h : table.Settled name)
    (hg : ∀ name, other.get? name = table.get? name) : other.Settled name := by
  intro element he
  rw [(alike_of_get?_eq hg).types] at he
  rw [contains, hg]
  exact h element he

theorem twins_of_get?_eq {table other : ClassTable}
    (hg : ∀ name, other.get? name = table.get? name) (hb : table.BasesSettled) :
    Twins table other := by
  refine ⟨alike_of_get?_eq hg, hb, fun c hc base hbase => ?_⟩
  have hm : c ∈ table.classes := mem_of_get? ((hg c.name).symm.trans (get?_of_mem hc))
  exact (hb c hm base hbase).of_get?_eq hg

namespace Twins

variable {table other : ClassTable}

theorem grow {grown grownOther : ClassTable} (h : Twins table other)
    (g : table.Grows grown) (k : other.Grows grownOther) : Twins grown grownOther :=
  ⟨(g.alike.symm.trans h.alike).trans k.alike, g.basesSettled h.left, k.basesSettled h.right⟩

theorem sameOn (h : Twins table other) :
    SameOn {name | table.Settled name ∧ other.Settled name} table other := by
  have hg (name : String) (hn : table.Settled name ∧ other.Settled name) :
      other.get? name = table.get? name := h.alike.get?_eq hn.1 hn.2
  refine ⟨hg, fun name hn c hc base hbase => ?_⟩
  have hd : other.get? name = some c := (hg name hn).trans hc
  exact ⟨h.left c (mem_of_get? hc) base hbase, h.right c (mem_of_get? hd) base hbase⟩

end Twins

end ClassTable

end ClassLang
