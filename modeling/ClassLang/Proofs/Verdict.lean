import ClassLang.Proofs.ClassFactoring
import ClassLang.Proofs.CleanClass

namespace ClassLang

variable [Alphabet]

namespace ClassDef

def checkAlone (c : ClassDef) : Check Bool := do return (← c.check []).1

theorem findings_checkAlone (c : ClassDef) (table : ClassTable) :
    (c.checkAlone table).findings = (c.check [] table).findings := List.append_nil _

theorem honest_checkAlone (c : ClassDef) :
    Check.Honest (.faulty none) False (· = true) c.checkAlone := by
  apply Check.honest_bind (c.honest_check.check [])
  intro r
  exact Check.honest_pure Iff.rfl

end ClassDef

namespace Program

/-- The classes of a program before any of them is checked. -/
def registered (p : Program) : ClassTable := ClassTable.empty.registerAll p.classes

omit [Alphabet] in
theorem mem_of_mem_registered {p : Program} {c : ClassDef} (h : c ∈ p.registered.classes) :
    c ∈ p.classes := ClassTable.mem_of_get?_registerAll (ClassTable.get?_of_mem h)

def checkClasses (p : Program) : Check Bool := anyFails ClassDef.checkAlone p.classes

theorem check_empty (p : Program) : p.check .empty = p.checkClasses p.registered := rfl

theorem honest_checkClasses (p : Program) :
    Check.Honest (.faulty none) False (· = true) p.checkClasses :=
  Check.honest_anyFails fun c _ => c.honest_checkAlone

/-- The classes of a program after all of them were checked. -/
def checkedTable (p : Program) : ClassTable := (p.check .empty).table

theorem grows_checkedTable (p : Program) : p.registered.Grows p.checkedTable :=
  (p.honest_checkClasses p.registered).grows

def tableAfter (p : Program) (checked : List ClassDef) : ClassTable :=
  (anyFails ClassDef.checkAlone checked p.registered).table

theorem grows_tableAfter (p : Program) (checked : List ClassDef) :
    p.registered.Grows (p.tableAfter checked) :=
  (Check.honest_anyFails (fun c _ => c.honest_checkAlone) p.registered).grows

theorem cleared_of_clean {p : Program} {table : ClassTable}
    (h : (p.checkClasses table).findings = []) : ∀ c ∈ p.classes, c.Cleared table := by
  intro c hc
  obtain ⟨after, hg, hn⟩ :=
    Check.exists_of_anyFails_clean (fun c t => (c.honest_checkAlone t).grows) h c hc
  rw [ClassDef.findings_checkAlone] at hn
  exact (ClassDef.cleared_of_clean hn).earlier hg

/-- A declared type that stands for nothing does not excuse a failure: it is reported itself. -/
theorem findings_ne_nil_of_faulty {p : Program} (h : p.registered.Faulty none) :
    (p.checkClasses p.registered).findings ≠ [] := by
  intro hn
  obtain ⟨m, hd, hm | ⟨c, hc, r, hr⟩⟩ := h
  · cases hm
  -- the class that declares the method is checked in the same run, early or late
  · exact (cleared_of_clean hn c (mem_of_mem_registered hc)).not_dangling hr hd

theorem fails_iff_findings_ne_nil (p : Program) :
    (p.check .empty).result = true ↔ (p.check .empty).findings ≠ [] := by
  rw [check_empty]
  have hk := p.honest_checkClasses p.registered
  constructor
  · intro hf
    obtain hn | hb | he := hk.accounted hf
    · exact hn
    · exact hb.elim
    · exact findings_ne_nil_of_faulty he
  · intro hn
    exact hk.told (.inl hn)

theorem diagnostics_run (p : Program) (file : String) :
    (Context.run { file } p.check).2.diagnostics =
      (p.check .empty).findings.map (fun f => f.inFile file) := List.nil_append _

theorem succeeded_iff (p : Program) (file : String) :
    (p.analyze file).succeeded = true ↔ (p.check .empty).findings = [] := by
  rw [analyze_eq, Analysis.succeeded, List.isEmpty_iff, List.map_eq_nil_iff]

/-- The check of a program fails exactly if it leaves a diagnostic, so an analysis succeeds exactly
if no class fails. -/
theorem fails_iff_diagnosed (p : Program) (file : String) :
    ((Context.run { file } p.check).1 = true ↔
      (Context.run { file } p.check).2.diagnostics ≠ []) ∧
    ((p.analyze file).succeeded = true ↔ (Context.run { file } p.check).1 = false) := by
  have hr : (Context.run { file } p.check).1 = (p.check .empty).result := rfl
  constructor
  · rw [hr, diagnostics_run, ne_eq, List.map_eq_nil_iff]
    exact p.fails_iff_findings_ne_nil
  · rw [hr, succeeded_iff, Bool.eq_false_iff, ne_eq, p.fails_iff_findings_ne_nil, not_not]

end Program

end ClassLang
