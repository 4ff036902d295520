import ClassLang.Proofs.Assignability
import ClassLang.Proofs.Resolution

namespace ClassLang.ClassTable

variable [Alphabet]

/-- The second table is like the first one and holds all its names, in whatever order. A class
behind a list has no base, so all it can do to the way up from another class is to stand at its end.
-/
structure Widens (table wide : ClassTable) : Prop where
  alike : table.Alike wide
  contains : ∀ name, table.contains name = true → wide.contains name = true

def Lacks (table : ClassTable) (c : ClassDef) : Prop :=
  table.contains c.name = false ∧ ∃ element, c = .listOf element

theorem resolveAll_append (table : ClassTable) (first second : List String) :
    table.resolveAll (first ++ second) = (table.resolveAll first).resolveAll second :=
  List.foldl_append

theorem resolve_resolveAll {names : List String} {name : String} (h : name ∈ names)
    (table : ClassTable) : ((table.resolveAll names).resolve name).2 = table.resolveAll names := by
  apply (Grows.resolve _ name).eq_of_contains
  intro other ho
  obtain ho | hnew := (contains_resolve _ name other).mp ho
  · exact ho
  · obtain ⟨before, after, rfl⟩ := List.append_of_mem h
    have hearly : table.Grows (table.resolveAll before) := ⟨before, rfl⟩
    have hlate : table.Grows (table.resolveAll (before ++ name :: after)) := ⟨_, rfl⟩
    -- what the name brought in when it was resolved is still there
    have hafter : ((table.resolveAll before).resolve name).2.Grows
        (table.resolveAll (before ++ name :: after)) := ⟨after, resolveAll_append table before _⟩
    rw [hlate.typeOf?, ← hearly.typeOf?] at hnew
    obtain ⟨c, hc⟩ := contains_iff.mp ((contains_resolve _ name other).mpr (.inr hnew))
    exact contains_of_get? (hafter.get?_of_some hc)

theorem resolveAll_resolveAll (table : ClassTable) (names : List String) :
    (table.resolveAll names).resolveAll names = table.resolveAll names := by
  have hagain (more : List String) (hsub : more ⊆ names) :
      (table.resolveAll names).resolveAll more = table.resolveAll names := by
    induction more with
    | nil => rfl
    | cons name more ih =>
      obtain ⟨hin, hsub⟩ := List.cons_subset.mp hsub
      rw [resolveAll, List.foldl_cons, resolve_resolveAll hin]
      exact ih hsub
  exact hagain names (List.Subset.refl names)

omit [Alphabet] in
theorem ancestors_listOf (table : ClassTable) (element : Ty) :
    table.ancestors (.listOf element) = [] := congrArg Chain.ancestors (climb_none ..)

namespace Widens

variable {table wide : ClassTable} {name : String} {c : ClassDef}

theorem refl (table : ClassTable) : table.Widens table := ⟨.refl table, fun _ h => h⟩

theorem typeOf? (h : table.Widens wide) (name : String) :
    wide.typeOf? name = table.typeOf? name := h.alike.types name

theorem get?_of_some (h : table.Widens wide) (hc : table.get? name = some c) :
    wide.get? name = some c := by
  have hin : table.contains name = true := contains_of_get? hc
  rw [h.alike.get?_eq (fun _ _ => hin) (fun _ _ => h.contains name hin), hc]

theorem lacks_of_get? (h : table.Widens wide) (hn : table.get? name = none)
    (hc : wide.get? name = some c) : table.Lacks c := by
  have hname := get?_name hc
  have hbehind : table.behind? name = some c := by
    rw [← h.alike.classes, ← get?_eq_behind? fun _ _ => contains_of_get? hc, hc]
  refine ⟨by rw [hname, contains_eq_false_iff, hn], ?_⟩
  unfold behind? at hbehind
  split at hbehind
  · next element ht =>
    have hlist : listName element.name = name := name_of_typeOf? ht
    rw [listClass, hlist, hn] at hbehind
    exact ⟨element, (Option.some.inj hbehind).symm⟩
  · rw [hn] at hbehind
    cases hbehind

theorem resolve (h : table.Widens wide) (name : String) :
    (table.resolve name).2.Widens (wide.resolve name).2 := by
  refine ⟨((Alike.resolve table name).symm.trans h.alike).trans (Alike.resolve wide name), ?_⟩
  intro other ho
  rw [contains_resolve] at ho ⊢
  rw [h.typeOf?]
  exact ho.imp_left (h.contains other)

theorem resolveAll (h : table.Widens wide) (names : List String) :
    (table.resolveAll names).Widens (wide.resolveAll names) := by
  induction names generalizing table wide with
  | nil => exact h
  | cons name names ih => exact ih (h.resolve name)

section Chains

/-- A chain in the wider table goes on by a class behind a list at most. -/
theorem climb (h : table.Widens wide) (visited : List String) (base : Option String) :
    ∃ more, (wide.climb visited base).ancestors = (table.climb visited base).ancestors ++ more ∧
      ∀ a ∈ more, table.Lacks a := by
  fun_induction ClassTable.climb table visited base with
  | case1 visited => exact ⟨[], by simp⟩
  | case2 visited name hv => exact ⟨[], by simp [climb_of_mem hv]⟩
  | case3 visited name hv hn =>
    cases hw : wide.get? name with
    | none => exact ⟨[], by simp [climb_of_get?_none hv hw]⟩
    | some c =>
      have hlacks := h.lacks_of_get? hn hw
      obtain ⟨element, rfl⟩ := hlacks.2
      have hroot : (ClassDef.listOf element).baseName? = none := rfl
      exact ⟨[.listOf element], by simp [climb_of_get?_some hv hw, hroot, hlacks]⟩
  | case4 visited name hv c hc rest ih =>
    obtain ⟨more, hmore, hlacks⟩ := ih
    refine ⟨more, ?_, hlacks⟩
    rw [climb_of_get?_some hv (h.get?_of_some hc), hmore, List.cons_append]

theorem ancestors (h : table.Widens wide) (c : ClassDef) :
    ∃ more, wide.ancestors c = table.ancestors c ++ more ∧ ∀ a ∈ more, table.Lacks a :=
  h.climb [c.name] c.baseName?

theorem lineage (h : table.Widens wide) (name : String) :
    ∃ more, wide.lineage name = table.lineage name ++ more ∧ ∀ a ∈ more, table.Lacks a := by
  unfold ClassTable.lineage
  cases hc : table.get? name with
  | some c =>
    rw [h.get?_of_some hc]
    obtain ⟨more, hmore, hlacks⟩ := h.ancestors c
    exact ⟨more, congrArg (c :: ·) hmore, hlacks⟩
  | none =>
    cases hw : wide.get? name with
    | none => exact ⟨[], by simp⟩
    | some c =>
      have hlacks := h.lacks_of_get? hc hw
      obtain ⟨element, rfl⟩ := hlacks.2
      exact ⟨[.listOf element], by simp [ancestors_listOf, hlacks]⟩

theorem findSome?_lineage {α : Type} (h : table.Widens wide) {f : ClassDef → Option α} {a : α}
    (hf : (table.lineage name).findSome? f = some a) :
    (wide.lineage name).findSome? f = some a := by
  obtain ⟨more, hmore, -⟩ := h.lineage name
  rw [hmore, List.findSome?_append, hf, Option.some_or]

theorem operatorCandidates (h : table.Widens wide) (name symbol : String) (count : Nat) :
    wide.operatorCandidates name symbol count = table.operatorCandidates name symbol count := by
  obtain ⟨more, hmore, hlacks⟩ := h.lineage name
  unfold ClassTable.operatorCandidates
  rw [hmore, List.flatMap_append, List.append_right_eq_self, List.flatMap_eq_nil_iff]
  intro a ha
  obtain ⟨-, element, rfl⟩ := hlacks a ha
  rfl

theorem isAncestor_of_isAncestor (h : table.Widens wide) {ancestor : String}
    (ha : table.isAncestor ancestor name = true) : wide.isAncestor ancestor name = true := by
  obtain ⟨c, d, hc, hd, hmem⟩ := isAncestor_iff.mp ha
  obtain ⟨more, hmore, -⟩ := h.ancestors c
  refine isAncestor_iff.mpr ⟨c, d, h.get?_of_some hc, h.get?_of_some hd, ?_⟩
  rw [hmore]
  exact List.mem_append_left more hmem

/-- A class that is registered already becomes an ancestor of no other. -/
theorem isAncestor (h : table.Widens wide) {ancestor : String}
    (hin : table.contains ancestor = true) (name : String) :
    wide.isAncestor ancestor name = table.isAncestor ancestor name := by
  rw [Bool.eq_iff_iff]
  refine ⟨fun ha => ?_, h.isAncestor_of_isAncestor⟩
  obtain ⟨c, d, hc, hd, hmem⟩ := isAncestor_iff.mp ha
  cases hold : table.get? name with
  | none =>
    obtain ⟨-, element, rfl⟩ := h.lacks_of_get? hold hc
    rw [ancestors_listOf] at hmem
    cases hmem
  | some c' =>
    obtain rfl : c' = c := Option.some.inj ((h.get?_of_some hold).symm.trans hc)
    obtain ⟨d', hd'⟩ := contains_iff.mp hin
    obtain rfl : d' = d := Option.some.inj ((h.get?_of_some hd').symm.trans hd)
    obtain ⟨more, hmore, hlacks⟩ := h.ancestors c'
    rw [hmore] at hmem
    obtain hmem | hmem := List.mem_append.mp hmem
    · exact isAncestor_iff.mpr ⟨c', d', hold, hd', hmem⟩
    · have hout := (hlacks d' hmem).1
      rw [get?_name hd', hin] at hout
      cases hout

end Chains

theorem isAccessible (h : table.Widens wide) {scopes : ScopeStack} {owner : ClassDef} {m : Member}
    (ha : table.isAccessible scopes owner m = true) :
    wide.isAccessible scopes owner m = true := by
  unfold ClassTable.isAccessible at ha ⊢
  cases hv : m.visibility with
  | everywhere => rfl
  | inClass => rwa [hv] at ha
  | inFamily =>
    rw [hv] at ha
    obtain ⟨c, hc, ha⟩ := (Option.any_eq_true _ _).mp ha
    refine (Option.any_eq_true _ _).mpr ⟨c, hc, ?_⟩
    rw [Bool.or_eq_true] at ha ⊢
    exact ha.imp_right h.isAncestor_of_isAncestor

theorem isInstantiable (h : table.Widens wide) {ty : Ty} (hi : table.isInstantiable ty = true) :
    wide.isInstantiable ty = true := by
  cases ty with
  | classRef name =>
    obtain ⟨c, hc, hi⟩ := (Option.any_eq_true _ _).mp hi
    exact (Option.any_eq_true _ _).mpr ⟨c, h.get?_of_some hc, hi⟩
  | primitive p | list element | void => exact hi

end Widens

theorem Grows.widens {table grown : ClassTable} (h : table.Grows grown) : table.Widens grown := by
  refine ⟨h.alike, fun name hin => ?_⟩
  obtain ⟨c, hc⟩ := contains_iff.mp hin
  exact contains_of_get? (h.get?_of_some hc)

end ClassLang.ClassTable

namespace ClassLang

/-- The class that a type refers to, be it from inside lists. -/
def Ty.reference? : Ty → Option String
  | .classRef name => some name
  | .list element => element.reference?
  | .primitive _ | .void => none

namespace ClassTable

variable {table wide : ClassTable} {source target : Ty}

def Registers (table : ClassTable) (ty : Ty) : Prop :=
  ∀ name ∈ ty.reference?, table.contains name = true

instance (table : ClassTable) (ty : Ty) : Decidable (table.Registers ty) :=
  inferInstanceAs (Decidable (∀ name ∈ ty.reference?, table.contains name = true))

variable [Alphabet]

theorem Widens.registers (h : table.Widens wide) (hr : table.Registers target) :
    wide.Registers target := fun name hn => h.contains name (hr name hn)

theorem contains_of_typeOf? {name : String} (h : table.typeOf? name = some (.classRef name)) :
    table.contains name = true := by
  have hclass (hn : table.typeOf? name = table.classType? name) : table.contains name = true := by
    rw [hn, classType?] at h
    split at h
    · assumption
    · cases h
  by_cases hv : name = "void"
  · rw [hv, typeOf?_void] at h
    cases h
  cases hp : Primitive.ofKeyword? name with
  | some p =>
    rw [table.typeOf?_primitive hv hp] at h
    cases h
  | none =>
    cases hl : listElement? name with
    | none => exact hclass (table.typeOf?_of_not_listElement hv hp hl)
    | some element =>
      obtain ⟨ty, -, -, ht⟩ | ⟨-, ht⟩ := table.typeOf?_of_listElement hl hv hp
      · cases ht.symm.trans h
      · exact hclass ht

theorem registers_of_typeOf? {name : String} {ty : Ty} (h : table.typeOf? name = some ty) :
    table.Registers ty := by
  obtain rfl := name_of_typeOf? h
  induction ty with
  | primitive p | void => simp [Registers, Ty.reference?]
  | list element ih => exact ih (typeOf?_eq_list_iff.mp h).2.1
  | classRef name =>
    rintro _ ⟨⟩
    exact contains_of_typeOf? h

/-- Whether a value fits a registered type does not change when classes behind lists come to the
table. -/
theorem Widens.isAssignable (h : table.Widens wide) (hr : table.Registers target) (source : Ty) :
    wide.isAssignable source target = table.isAssignable source target := by
  cases target with
  | classRef ancestor =>
    cases source with
    | classRef name =>
      rw [ClassTable.isAssignable, ClassTable.isAssignable, h.isAncestor (hr ancestor rfl)]
    | primitive p | list element | void => rfl
  | primitive p | list element | void => cases source <;> rfl

theorem Widens.builtinBinary (h : table.Widens wide) {left right : Ty}
    (hl : table.Registers left) (hr : table.Registers right) (symbol : String) :
    wide.builtinBinary symbol left right = table.builtinBinary symbol left right := by
  rw [ClassTable.builtinBinary, ClassTable.builtinBinary, h.isAssignable hl, h.isAssignable hr]

end ClassTable

end ClassLang
