import ClassLang.Proofs.Hierarchy
import ClassLang.Proofs.Resolution
import ClassLang.Types.WordChar

namespace ClassLang

variable [Alphabet]

namespace ClassTable

omit [Alphabet] in
theorem register_of_get? {table : ClassTable} {c : ClassDef} (h : table.get? c.name = some c) :
    table.register c = table := by
  have hc : c.name ∈ table.names := mem_names_iff.mpr (contains_of_get? h)
  have hsame : ∀ d ∈ table.classes, (if d.name = c.name then c else d) = d := by
    intro d hd
    split
    case isTrue hn =>
      have hfound := get?_of_mem hd
      rw [hn, h] at hfound
      exact Option.some.inj hfound
    case isFalse => rfl
  have hreplace : replace c table.classes = table.classes := by
    rw [replace, List.map_congr_left hsame, List.map_id']
  apply ClassTable.ext
  rw [register, dif_pos hc]
  exact hreplace

omit [Alphabet] in
theorem registerAll_of_get? {table : ClassTable} {classes : List ClassDef}
    (h : ∀ c ∈ classes, table.get? c.name = some c) : table.registerAll classes = table := by
  rw [registerAll]
  induction classes with
  | nil => rfl
  | cons c classes ih =>
    rw [List.foldl_cons, register_of_get? (h c (by simp))]
    exact ih fun d hd => h d (by simp [hd])

theorem Alike.get?_eq_of_contains {table other : ClassTable} (h : table.Alike other)
    (hc : ∀ name, other.contains name = true ↔ table.contains name = true) (name : String) :
    other.get? name = table.get? name := by
  by_cases hin : table.contains name = true
  · exact h.get?_eq (fun _ _ => hin) (fun _ _ => (hc name).mpr hin)
  · have hout : ¬ other.contains name = true := fun ho => hin ((hc name).mp ho)
    rw [contains_eq_false_iff.mp (Bool.eq_false_iff.mpr hin),
      contains_eq_false_iff.mp (Bool.eq_false_iff.mpr hout)]

end ClassTable

open ClassTable

/-- Twins of which the second holds exactly the names of `start` and those of the first. A run on
the first table then tells which names a run on the second brings in. -/
def Kinship.abreast (start : Set String) : Kinship :=
  Kinship.twins.along
    (fun table other => ∀ name,
      other.contains name = true ↔ name ∈ start ∨ table.contains name = true)
    fun {table other resolved} ht _ hstart name => by
      have htype : other.typeOf? resolved = table.typeOf? resolved := ht.alike.types resolved
      rw [contains_resolve, contains_resolve, htype, hstart, or_assoc]

namespace Program

variable {p q : Program}

section Names

variable {table other : ClassTable}

theorem contains_checkAlone {c : ClassDef} (hc : c ∈ p.classes) (ht : Twins table other)
    (hs : ∀ name ∈ p.headNames, table.Settled name ∧ other.Settled name)
    (hsub : ∀ name, table.contains name = true → other.contains name = true) (name : String) :
    (c.checkAlone other).table.contains name = true ↔
      other.contains name = true ∨ (c.checkAlone table).table.contains name = true := by
  have hagree : Check.Agree (Kinship.abreast {name | other.contains name = true}) p.queries
      c.checkAlone := agree_checkAlone hc
  have hstart (name : String) : other.contains name = true ↔
      other.contains name = true ∨ table.contains name = true :=
    (or_iff_left_of_imp (hsub name)).symm
  exact (hagree ⟨ht, hstart⟩ (queries_subset_allowed hs)).related.2 name

theorem contains_anyFails {classes : List ClassDef} (hc : ∀ c ∈ classes, c ∈ p.classes)
    (ht : Twins table other)
    (hs : ∀ name ∈ p.headNames, table.Settled name ∧ other.Settled name)
    (hsub : ∀ name, table.contains name = true → other.contains name = true) (name : String) :
    (anyFails ClassDef.checkAlone classes other).table.contains name = true ↔
      other.contains name = true ∨
        ∃ c ∈ classes, (c.checkAlone table).table.contains name = true := by
  induction classes generalizing other with
  | nil => simp [anyFails]
  | cons c classes ih =>
    have hfirst := contains_checkAlone (hc c (by simp)) ht hs hsub
    -- the check of `c` leaves a twin of the table that is larger still
    have hg := (c.honest_checkAlone other).grows
    have hrest := ih (fun d hd => hc d (by simp [hd])) (ht.grow (.refl table) hg)
      (fun name hn => ⟨(hs name hn).1, hg.settled (hs name hn).2⟩)
      fun name hin => (hfirst name).mpr (.inl (hsub name hin))
    rw [Check.table_anyFails_cons, hrest, hfirst, or_assoc]
    simp only [List.mem_cons, exists_eq_or_imp]

end Names

section Clean

variable (hn : (p.classes.map ClassDef.name).Nodup) (hq : q.classes.Perm p.classes)
  (h : (p.check .empty).findings = [])

include hn hq h

/-- On every table in which the classes of an accepted program are settled, all of them pass in any
order, and bring in what they bring in one by one. -/
theorem checkClasses_of_perm {table : ClassTable} (ht : Twins p.registered table)
    (hs : ∀ name ∈ p.headNames, table.Settled name)
    (hsub : ∀ name, p.registered.contains name = true → table.contains name = true) :
    (q.checkClasses table).findings = [] ∧
      ∀ name, (q.checkClasses table).table.contains name = true ↔
        table.contains name = true ∨
          ∃ c ∈ p.classes, (c.checkAlone p.registered).table.contains name = true := by
  have hdeclared := listBasesDeclared_of_clean h
  have hmem : ∀ c ∈ q.classes, c ∈ p.classes := fun c hc => hq.mem_iff.mp hc
  have hboth : ∀ name ∈ p.headNames, p.registered.Settled name ∧ table.Settled name :=
    fun name hname => ⟨settled_of_mem_headNames hdeclared hname, hs name hname⟩
  constructor
  · have hsum := findings_anyFails hmem ht hboth
    have hown := findings_check_of_perm hn (.refl p.classes) hdeclared
    rw [h, eq_comm, List.flatMap_eq_nil_iff] at hown
    rw [checkClasses, hsum, List.flatMap_eq_nil_iff]
    exact fun c hc => hown c (hmem c hc)
  · intro name
    rw [checkClasses, contains_anyFails hmem ht hboth hsub]
    simp only [hq.mem_iff]

theorem contains_checkedTable_of_perm (name : String) :
    q.checkedTable.contains name = true ↔
      p.registered.contains name = true ∨
        ∃ c ∈ p.classes, (c.checkAlone p.registered).table.contains name = true := by
  have hdeclared := listBasesDeclared_of_clean h
  have hget := get?_registered_of_perm hn hq
  have ht : Twins p.registered q.registered := twins_of_get?_eq hget hdeclared.basesSettled
  have hcontains (name : String) : q.registered.contains name = p.registered.contains name := by
    rw [contains, contains, hget]
  have hrun := (checkClasses_of_perm hn hq h ht
    (fun name hname => (settled_of_mem_headNames hdeclared hname).of_get?_eq hget)
    (fun name hin => (hcontains name).trans hin)).2 name
  rwa [hcontains] at hrun

theorem get?_checkedTable_of_perm (name : String) :
    q.checkedTable.get? name = p.checkedTable.get? name := by
  have halike : p.registered.Alike q.registered :=
    alike_of_get?_eq (get?_registered_of_perm hn hq)
  have hfinal : p.checkedTable.Alike q.checkedTable :=
    (p.grows_checkedTable.alike.symm.trans halike).trans q.grows_checkedTable.alike
  refine hfinal.get?_eq_of_contains (fun name => ?_) name
  rw [contains_checkedTable_of_perm hn hq h, contains_checkedTable_of_perm hn (.refl _) h]

theorem check_checkedTable :
    (q.check p.checkedTable).findings = [] ∧ (q.check p.checkedTable).table = p.checkedTable := by
  have hdeclared := listBasesDeclared_of_clean h
  have hgrown := p.grows_checkedTable
  have hfound : ∀ c ∈ q.classes, p.checkedTable.get? c.name = some c := fun c hc =>
    hgrown.get?_of_some (get?_registerAll_of_mem hn (hq.mem_iff.mp hc))
  have hcheck : q.check p.checkedTable = q.checkClasses (p.checkedTable.registerAll q.classes) :=
    rfl
  have htwins : Twins p.registered p.checkedTable :=
    (twins_of_get?_eq (fun _ => rfl) hdeclared.basesSettled).grow (.refl _) hgrown
  have hkept (name : String) (hin : p.registered.contains name = true) :
      p.checkedTable.contains name = true := by
    obtain ⟨c, hc⟩ := contains_iff.mp hin
    exact contains_of_get? (hgrown.get?_of_some hc)
  obtain ⟨hclean, hnames⟩ := checkClasses_of_perm hn hq h htwins
    (fun name hname => hgrown.settled (settled_of_mem_headNames hdeclared hname)) hkept
  rw [hcheck, registerAll_of_get? hfound]
  refine ⟨hclean, (q.honest_checkClasses p.checkedTable).grows.eq_of_contains fun name hin => ?_⟩
  obtain hin | hnew := (hnames name).mp hin
  · exact hin
  · exact (contains_checkedTable_of_perm hn (.refl _) h name).mpr (.inr hnew)

end Clean

/-- A program that was accepted is accepted in every order of its classes, on its own and once more
after the first check. Each time the same names have the same classes in the end; the second check
leaves the table of the first as it is. -/
theorem success_stable {p q : Program} (hn : (p.classes.map ClassDef.name).Nodup)
    (hq : q.classes.Perm p.classes) {file : String}
    (h : (Context.run { file } p.check).2.diagnostics = []) (other : String) :
    let first := (Context.run { file } p.check).2
    let fresh := (Context.run { file := other } q.check).2
    let again := (first.run q.check).2
    fresh.diagnostics = [] ∧ again.diagnostics = [] ∧
      (∀ name, fresh.classes.get? name = first.classes.get? name) ∧
      again.classes = first.classes := by
  intro first fresh again
  have hclean : (p.check .empty).findings = [] := by
    rwa [diagnostics_run, List.map_eq_nil_iff] at h
  obtain ⟨hfindings, htable⟩ := check_checkedTable hn hq hclean
  have hagain : again.diagnostics =
      first.diagnostics ++ (q.check p.checkedTable).findings.map (fun f => f.inFile file) := rfl
  refine ⟨?_, ?_, get?_checkedTable_of_perm hn hq hclean, htable⟩
  · rw [diagnostics_run, List.map_eq_nil_iff]
    exact (findings_check_eq_nil_iff hn hq).mpr hclean
  · rw [hagain, h, hfindings]
    rfl

def gallery : Program := ⟨holder "Shape_list_list" :: shapes.classes⟩

end Program

end ClassLang

namespace ClassLang

open ClassTable

attribute [local instance] Alphabet.unicode

namespace Program

theorem success_stable_of_gallery :
    let q : Program := ⟨gallery.classes.reverse⟩
    let first := (Context.run { file := "Main.lang" } gallery.check).2
    let fresh := (Context.run { file := "Main.lang" } q.check).2
    (gallery.classes.map ClassDef.name).Nodup ∧ q.classes.Perm gallery.classes ∧
      first.diagnostics = [] ∧
      first.classes.names = ["Holder", "Circle", "Figure", "Shape", "Home", "int", "Shape_list",
        "Shape_list_list"] ∧
      fresh.classes.names = ["int", "Home", "Shape", "Figure", "Circle", "Holder", "Shape_list",
        "Shape_list_list"] ∧
      fresh.diagnostics = [] ∧ (first.run q.check).2.diagnostics = [] ∧
      (∀ name, fresh.classes.get? name = first.classes.get? name) ∧
      (first.run q.check).2.classes = first.classes := by
  intro q first fresh
  have hn : (gallery.classes.map ClassDef.name).Nodup := by decide
  have hq : q.classes.Perm gallery.classes := List.reverse_perm gallery.classes
  have h : first.diagnostics = [] := by decide +kernel
  exact ⟨hn, hq, h, by decide +kernel, by decide +kernel, success_stable hn hq h "Main.lang"⟩

end Program

end ClassLang
