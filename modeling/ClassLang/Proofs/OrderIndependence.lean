import ClassLang.Proofs.ClassAgreement
import ClassLang.Proofs.Verdict
import ClassLang.Types.WordChar

namespace ClassLang

variable [Alphabet]

/-- Twins are kin: names that are settled in both may be looked up, and all names resolved. -/
def Kinship.twins : Kinship where
  related := ClassTable.Twins
  allowed table other := {q | ∀ name, q = .find name → table.Settled name ∧ other.Settled name}
  get?_eq h name hn := h.sameOn.get? name (hn name rfl)
  exposed h name c hn hc := by
    have hs := hn name rfl
    rintro _ (⟨found, rfl | hb, rfl⟩ | ⟨resolved, -, rfl⟩) _ he
    · cases he
      rwa [ClassTable.get?_name hc]
    · cases he
      exact h.sameOn.bases name hs c hc found hb
    · cases he
  primitive h p := by
    have hs (table : ClassTable) : table.Settled p.keyword := by
      intro element he
      rw [ClassTable.typeOf?_primitive table (by cases p <;> decide)
        (Primitive.ofKeyword?_keyword p)] at he
      cases he
    rintro _ he
    cases he
    exact ⟨hs _, hs _⟩
  typeOf?_eq h name _ := h.alike.types name
  resolve h name _ := h.grow (.resolve _ name) (.resolve _ name)
  keeps h name _ := by
    intro q hq found he
    obtain ⟨ht, ho⟩ := hq found he
    have hgrows (t : ClassTable) := ClassTable.Grows.resolve t name
    exact ⟨(hgrows _).settled ht, (hgrows _).settled ho⟩
  resolved {table other} h name _ := by
    rintro q hq found rfl
    cases table.mentioned_typeOf? name hq
    exact ⟨table.settled_resolve name, other.settled_resolve name⟩

namespace Program

open ClassTable

variable {p q : Program}

def queries (p : Program) : Set Query := {q | ∃ c ∈ p.classes, q ∈ c.queries}

theorem agree_checkAlone {kin : Kinship} {c : ClassDef} (hc : c ∈ p.classes) :
    Check.Agree kin p.queries c.checkAlone := by
  have hq : c.queries ⊆ p.queries := fun _ hq => ⟨c, hc, hq⟩
  apply Check.agree_seq (ClassDef.agree_check hq subset_rfl (by simp))
  intro r
  exact Check.agree_pure (by simp)

/-- No class has a base that stands for a list type, unless the program declares a class of that
name itself. -/
def ListBasesDeclared (p : Program) : Prop :=
  ∀ c ∈ p.classes, ∀ base ∈ c.baseName?, ∀ element,
    p.registered.typeOf? base = some (.list element) → base ∈ p.classes.map ClassDef.name

theorem listBasesDeclared_iff :
    p.ListBasesDeclared ↔ ∀ c ∈ p.classes, ∀ base ∈ c.baseName?, p.registered.Settled base := by
  simp only [ListBasesDeclared, Settled, registered, contains_registerAll]

theorem listBasesDeclared_of_clean (h : (p.check .empty).findings = []) : p.ListBasesDeclared := by
  rw [check_empty] at h
  rw [listBasesDeclared_iff]
  exact fun c hc _ hb => (cleared_of_clean h c hc).settled_base hb

theorem ListBasesDeclared.basesSettled (h : p.ListBasesDeclared) : p.registered.BasesSettled :=
  fun c hc => listBasesDeclared_iff.mp h c (mem_of_mem_registered hc)

def headNames (p : Program) : Set String :=
  {name | ∃ c ∈ p.classes, name = c.name ∨ name ∈ c.baseName?}

theorem settled_of_mem_headNames (h : p.ListBasesDeclared) {name : String}
    (hn : name ∈ p.headNames) : p.registered.Settled name := by
  obtain ⟨c, hc, rfl | hb⟩ := hn
  · intro _ _
    rw [registered, contains_registerAll]
    exact List.mem_map_of_mem hc
  · exact listBasesDeclared_iff.mp h c hc name hb

theorem queries_subset_allowed {table other : ClassTable}
    (h : ∀ name ∈ p.headNames, table.Settled name ∧ other.Settled name) :
    p.queries ⊆ Kinship.twins.allowed table other := by
  rintro _ ⟨c, hc, ⟨name, hn, rfl⟩ | ⟨name, -, rfl⟩⟩ found he
  · cases he
    exact h name ⟨c, hc, hn⟩
  · cases he

/-- Each class reports what it would report if it were checked first, whatever comes before it. -/
theorem findings_anyFails {table other : ClassTable} {classes : List ClassDef}
    (hc : ∀ c ∈ classes, c ∈ p.classes) (ht : Twins table other)
    (hs : ∀ name ∈ p.headNames, table.Settled name ∧ other.Settled name) :
    (anyFails ClassDef.checkAlone classes other).findings =
      classes.flatMap fun c => (c.checkAlone table).findings := by
  induction classes generalizing other with
  | nil => rfl
  | cons c classes ih =>
    have hagree : Check.Agree Kinship.twins p.queries c.checkAlone :=
      agree_checkAlone (hc c (by simp))
    have hfirst := (hagree ht (queries_subset_allowed hs)).findings
    -- what the check of `c` adds to the table leaves it a twin of the first one
    have hg := (c.honest_checkAlone other).grows
    have hrest := ih (fun d hd => hc d (by simp [hd])) (ht.grow (.refl table) hg)
      fun name hn => ⟨(hs name hn).1, hg.settled (hs name hn).2⟩
    rw [Check.findings_anyFails_cons, hfirst, hrest, List.flatMap_cons]

section Permutation

variable (hn : (p.classes.map ClassDef.name).Nodup) (hq : q.classes.Perm p.classes)

include hn hq

omit [Alphabet] in
theorem nodup_names_of_perm : (q.classes.map ClassDef.name).Nodup :=
  (hq.map ClassDef.name).nodup_iff.mpr hn

omit [Alphabet] in
theorem get?_registered_of_perm (name : String) :
    q.registered.get? name = p.registered.get? name := by
  have hqn := nodup_names_of_perm hn hq
  apply Option.ext
  intro c
  rw [registered, registered, get?_registerAll_eq_some_iff hqn, get?_registerAll_eq_some_iff hn,
    hq.mem_iff]

theorem listBasesDeclared_of_perm (h : p.ListBasesDeclared) : q.ListBasesDeclared := by
  intro c hc base hb element he
  rw [(alike_of_get?_eq (get?_registered_of_perm hn hq)).types] at he
  exact (hq.map ClassDef.name).mem_iff.mpr (h c (hq.mem_iff.mp hc) base hb element he)

theorem findings_check_of_perm (h : p.ListBasesDeclared) :
    (q.check .empty).findings =
      q.classes.flatMap fun c => (c.checkAlone p.registered).findings := by
  have hget := get?_registered_of_perm hn hq
  have ht : Twins p.registered q.registered := twins_of_get?_eq hget h.basesSettled
  have hs : ∀ name ∈ p.headNames, p.registered.Settled name ∧ q.registered.Settled name :=
    fun name hname =>
      have hp := settled_of_mem_headNames h hname
      ⟨hp, hp.of_get?_eq hget⟩
  rw [check_empty]
  exact findings_anyFails (fun c hc => hq.mem_iff.mp hc) ht hs

theorem perm_findings_check (h : p.ListBasesDeclared) :
    (q.check .empty).findings.Perm (p.check .empty).findings := by
  rw [findings_check_of_perm hn hq h, findings_check_of_perm hn (.refl p.classes) h]
  exact hq.flatMap_right _

theorem findings_check_eq_nil_iff :
    (q.check .empty).findings = [] ↔ (p.check .empty).findings = [] := by
  by_cases h : p.ListBasesDeclared
  · rw [← List.isEmpty_iff, ← List.isEmpty_iff, (perm_findings_check hn hq h).isEmpty_eq]
  · have hqn := nodup_names_of_perm hn hq
    constructor
    · intro hc
      exact absurd (listBasesDeclared_of_perm hqn hq.symm (listBasesDeclared_of_clean hc)) h
    · intro hc
      exact absurd (listBasesDeclared_of_clean hc) h

end Permutation

/-- The order of the classes does not matter to whether an analysis succeeds. It does not matter to
what is reported either, unless a class inherits from a list whose class is not declared: that class
is made when the list is first met, and until then the chains of other classes lack it. A program
with such a class is never accepted. -/
theorem order_immaterial {p q : Program} (hn : (p.classes.map ClassDef.name).Nodup)
    (hq : q.classes.Perm p.classes) (file : String) :
    (q.analyze file).succeeded = (p.analyze file).succeeded ∧
      ((p.analyze file).succeeded = true → p.ListBasesDeclared) ∧
      (p.ListBasesDeclared →
        (Context.run { file } q.check).2.diagnostics.Perm
          (Context.run { file } p.check).2.diagnostics) := by
  refine ⟨?_, ?_, ?_⟩
  · rw [Bool.eq_iff_iff, succeeded_iff, succeeded_iff]
    exact findings_check_eq_nil_iff hn hq
  · intro h
    exact listBasesDeclared_of_clean ((p.succeeded_iff file).mp h)
  · intro h
    rw [diagnostics_run, diagnostics_run]
    exact (perm_findings_check hn hq h).map _

end Program

end ClassLang

namespace ClassLang

attribute [local instance] Alphabet.unicode

namespace Program

open ClassTable

section Lists

def simpleClass (name : String) (base : Option String) (members : List Member) : ClassDef where
  ident := .provided name
  base := base.map Ident.provided
  modifier := .normal
  label := .plain
  isBackend := false
  isPrimitive := false
  members := members
  span := .nowhere

def counter : ClassDef :=
  simpleClass "Counter" (some "Numbers") [{
    Member.provided "Counter" "Run" "void" [] with
    kind := .method ⟨.provided "Run", [],
      some ⟨[.expression (.call (.ident (.provided "Count")) [] .nowhere) .nowhere], .nowhere⟩⟩ }]

def numbers : ClassDef := simpleClass "Numbers" (some "int_list") []

def holder (typeName : String) : ClassDef :=
  simpleClass "Holder" none [{
    Member.provided "Holder" "items" typeName [] with
    kind := .field [⟨.provided "items", none, .nowhere⟩] }]

theorem order_immaterial_to_declared_lists :
    let p : Program := ⟨[counter, holder "unknown", numbers, simpleClass "int_list" none []]⟩
    let q : Program := ⟨p.classes.reverse⟩
    (p.classes.map ClassDef.name).Nodup ∧ q.classes.Perm p.classes ∧ p.ListBasesDeclared ∧
      (Context.run { file := "Main.lang" } p.check).2.diagnostics.map (fun d => d.problem) =
        [.identifierNotFound "Count", .typeNotFound "unknown"] ∧
      (Context.run { file := "Main.lang" } q.check).2.diagnostics.Perm
        (Context.run { file := "Main.lang" } p.check).2.diagnostics := by
  intro p q
  have hn : (p.classes.map ClassDef.name).Nodup := by decide
  have hq : q.classes.Perm p.classes := List.reverse_perm p.classes
  have hbases : ∀ c ∈ p.classes, ∀ base ∈ c.baseName?, base ∈ p.classes.map ClassDef.name := by
    decide
  have h : p.ListBasesDeclared := fun c hc base hb _ _ => hbases c hc base hb
  exact ⟨hn, hq, h, by decide +kernel, (order_immaterial hn hq "Main.lang").2.2 h⟩

/-- The list is first met in `Holder`: if that comes first, `Counter` finds what it calls. -/
theorem order_matters_to_list_heirs :
    let p : Program := ⟨[counter, holder "int_list", numbers]⟩
    let q : Program := ⟨[holder "int_list", counter, numbers]⟩
    (p.classes.map ClassDef.name).Nodup ∧ q.classes.Perm p.classes ∧
      (Context.run { file := "Main.lang" } p.check).2.diagnostics.map (fun d => d.problem) =
        [.identifierNotFound "Count", .concreteBase "Numbers" "int_list"] ∧
      (Context.run { file := "Main.lang" } q.check).2.diagnostics.map (fun d => d.problem) =
        [.concreteBase "Numbers" "int_list"] ∧
      ¬ (Context.run { file := "Main.lang" } q.check).2.diagnostics.Perm
        (Context.run { file := "Main.lang" } p.check).2.diagnostics := by
  refine ⟨by decide, .swap _ _ _, by decide +kernel, by decide +kernel, fun h => ?_⟩
  exact absurd h.length_eq (by decide +kernel)

end Lists

end Program

end ClassLang
