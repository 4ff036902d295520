import ClassLang.Proofs.OrderIndependence
import ClassLang.Types.WordChar

namespace ClassLang

namespace ClassTable

variable {table : ClassTable}

/-- The way up from a base name: each name is registered, and the last class has no base. -/
inductive Ascends (table : ClassTable) : Option String → List ClassDef → Prop
  | root : Ascends table none []
  | step {name : String} {c : ClassDef} {rest : List ClassDef} (hc : table.get? name = some c)
      (hr : Ascends table c.baseName? rest) : Ascends table (some name) (c :: rest)

theorem Ascends.unique {base : Option String} {first second : List ClassDef}
    (h : table.Ascends base first) (k : table.Ascends base second) : first = second := by
  induction h generalizing second with
  | root =>
    cases k
    rfl
  | step hc _ ih =>
    cases k with
    | step hd kr =>
      cases hc.symm.trans hd
      rw [ih kr]

theorem Ascends.rest {base : Option String} {line rest : List ClassDef} {a : ClassDef}
    (h : table.Ascends base line) (hs : a :: rest <:+ line) : table.Ascends a.baseName? rest := by
  induction h with
  | root => simp at hs
  | step hc hr ih =>
    obtain he | hs := List.suffix_cons_iff.mp hs
    · cases he
      exact hr
    · exact ih hs

theorem ascends_climb {visited : List String} {base : Option String}
    (h : (table.climb visited base).ending = .root) :
    table.Ascends base (table.climb visited base).ancestors := by
  fun_induction climb table visited base with
  | case1 => exact .root
  | case2 | case3 => cases h
  | case4 visited name hv c hc rest ih => exact .step hc (ih h)

theorem nodup_climb (visited : List String) (base : Option String) :
    ((table.climb visited base).ancestors.map ClassDef.name).Nodup ∧
      ∀ a ∈ (table.climb visited base).ancestors, a.name ∉ visited := by
  fun_induction climb table visited base with
  | case1 | case2 | case3 => simp
  | case4 visited name hv c hc rest ih =>
    obtain ⟨hn, hfresh⟩ := ih
    have hname := get?_name hc
    refine ⟨?_, ?_⟩
    · rw [List.map_cons, List.nodup_cons, hname]
      refine ⟨fun hm => ?_, hn⟩
      obtain ⟨a, ha, he⟩ := List.mem_map.mp hm
      exact hfresh a ha (by simp [he])
    · intro a ha
      obtain rfl | ha := List.mem_cons.mp ha
      · rwa [hname]
      · exact fun hm => hfresh a ha (List.mem_cons_of_mem name hm)

theorem nodup_ancestors (table : ClassTable) (c : ClassDef) :
    ((c :: table.ancestors c).map ClassDef.name).Nodup := by
  obtain ⟨hn, hfresh⟩ := table.nodup_climb [c.name] c.baseName?
  rw [List.map_cons, List.nodup_cons]
  refine ⟨fun hm => ?_, hn⟩
  obtain ⟨a, ha, he⟩ := List.mem_map.mp hm
  exact hfresh a ha (by simp [he])

/-- What every registered base inherits holds of all classes on the way up, and that ends at a class
without a base or where it began to repeat. -/
theorem climb_of_inherited {P : ClassDef → Prop} (visited : List String) {base : Option String}
    (hstep : ∀ c, P c → ∀ name ∈ c.baseName?, ∃ parent, table.get? name = some parent ∧ P parent)
    (hbase : ∀ name ∈ base, ∃ parent, table.get? name = some parent ∧ P parent) :
    (∀ a ∈ (table.climb visited base).ancestors, P a) ∧
      ∀ name, (table.climb visited base).ending ≠ .unknown name := by
  fun_induction climb table visited base with
  | case1 | case2 => simp
  | case3 visited name hv hc =>
    obtain ⟨parent, hp, -⟩ := hbase name rfl
    rw [hc] at hp
    cases hp
  | case4 visited name hv c hc rest ih =>
    obtain ⟨parent, hp, hP⟩ := hbase name rfl
    cases hc.symm.trans hp
    obtain ⟨hall, hend⟩ := ih (hstep c hP)
    refine ⟨fun a ha => ?_, hend⟩
    obtain rfl | ha := List.mem_cons.mp ha
    · exact hP
    · exact hall a ha

end ClassTable

namespace Program

open ClassTable

variable [Alphabet]

section Clean

variable {p : Program} {c : ClassDef} (h : (p.check .empty).findings = []) (hc : c ∈ p.classes)

include h hc

/-- If nothing is reported, what one class saw on its way up is what is there in the end. -/
theorem exists_sameOn_checkedTable {after : ClassTable} (hg : p.registered.Grows after) :
    ∃ names, SameOn names after p.checkedTable ∧ ∀ base ∈ c.baseName?, base ∈ names := by
  have hd := listBasesDeclared_of_clean h
  have ht : Twins p.registered p.registered := twins_of_get?_eq (fun _ => rfl) hd.basesSettled
  refine ⟨_, (ht.grow hg p.grows_checkedTable).sameOn, fun base hb => ?_⟩
  have hs := listBasesDeclared_iff.mp hd c hc base hb
  exact ⟨hg.settled hs, p.grows_checkedTable.settled hs⟩

theorem ancestors_checkedTable {after : ClassTable} (hg : p.registered.Grows after) :
    p.checkedTable.ancestors c = after.ancestors c := by
  obtain ⟨names, hsame, hbases⟩ := exists_sameOn_checkedTable h hc hg
  exact hsame.ancestors hbases

theorem exists_parent {base : Ident} (hb : c.base = some base) :
    c.label ≠ .screen ∧ p.checkedTable.isCyclic c = false ∧
      ∃ parent, p.checkedTable.get? base.text = some parent ∧ parent ∈ p.classes ∧
        parent.modifier ≠ .concrete := by
  obtain ⟨hl, after, parent, hg, -, hp, hm, ha⟩ := (cleared_of_clean h c hc).parent hb
  obtain ⟨names, hsame, hbases⟩ := exists_sameOn_checkedTable h hc hg
  have hn : base.text ∈ c.baseName? := by rw [ClassDef.baseName?, hb]; rfl
  refine ⟨hl, ?_, parent, ?_, ?_, hm⟩
  · rw [hsame.isCyclic hbases, ha]
  · rw [hsame.get? base.text (hbases base.text hn), hp]
  · obtain hs | ⟨element, -, rfl⟩ := hg.get?_of_grown hp
    · exact mem_of_get?_registerAll hs
    · exact absurd rfl hm

theorem isCyclic_checkedTable : p.checkedTable.isCyclic c = false := by
  cases hb : c.base with
  | none => rw [isCyclic, chain, ClassDef.baseName?, hb, Option.map_none, climb_none]
  | some base => exact (exists_parent h hc hb).2.1

theorem ascends_ancestors :
    p.checkedTable.Ascends c.baseName? (p.checkedTable.ancestors c) ∧
      ∀ a ∈ p.checkedTable.ancestors c, a ∈ p.classes ∧ a.modifier ≠ .concrete := by
  have hparent (d : ClassDef) (hd : d ∈ p.classes) : ∀ name ∈ d.baseName?,
      ∃ parent, p.checkedTable.get? name = some parent ∧ parent ∈ p.classes ∧
        parent.modifier ≠ .concrete := by
    intro name hn
    obtain ⟨base, hb, rfl⟩ := Option.map_eq_some_iff.mp hn
    exact (exists_parent h hd hb).2.2
  obtain ⟨hall, hend⟩ := climb_of_inherited [c.name] (fun d hd => hparent d hd.1) (hparent c hc)
  have hcyclic := isCyclic_checkedTable h hc
  refine ⟨ascends_climb ?_, hall⟩
  cases he : (p.checkedTable.climb [c.name] c.baseName?).ending with
  | root => rfl
  | unknown name => exact absurd he (hend name)
  | repeated name =>
    rw [isCyclic, chain, he] at hcyclic
    cases hcyclic

theorem screen_or_backend :
    (c.label = .screen → c.base = none ∧ c.modifier = .normal) ∧
      (c.isBackend = true → isBackendName c.name = true) := by
  have hcleared := cleared_of_clean h c hc
  refine ⟨fun hs => ⟨?_, hcleared.label hs⟩, hcleared.backend⟩
  cases hb : c.base with
  | none => rfl
  | some base => exact absurd hs (exists_parent h hc hb).1

end Clean

/-- If the analysis of a program finds nothing wrong, then from each of its classes the base names
lead through registered classes to one without a base and never repeat. None of the classes on the
way is concrete, screens stand alone and are normal, and backend classes have known names. -/
theorem hierarchy_of_success {p : Program} {file : String}
    (h : (Context.run { file } p.check).2.diagnostics = []) {c : ClassDef} (hc : c ∈ p.classes)
    (hr : (Context.run { file } p.check).2.classes.get? c.name = some c) :
    let table := (Context.run { file } p.check).2.classes
    table.Ascends (some c.name) (c :: table.ancestors c) ∧
      ((c :: table.ancestors c).map ClassDef.name).Nodup ∧
      (∀ a ∈ table.ancestors c, a.modifier ≠ .concrete) ∧
      ∀ a ∈ c :: table.ancestors c,
        (a.label = .screen → a.base = none ∧ a.modifier = .normal) ∧
          (a.isBackend = true → isBackendName a.name = true) := by
  intro table
  rw [diagnostics_run, List.map_eq_nil_iff] at h
  obtain ⟨hup, hall⟩ := ascends_ancestors h hc
  refine ⟨.step hr hup, table.nodup_ancestors c, fun a ha => (hall a ha).2, fun a ha => ?_⟩
  obtain rfl | ha := List.mem_cons.mp ha
  · exact screen_or_backend h hc
  · exact screen_or_backend h (hall a ha).1

end Program

end ClassLang

namespace ClassLang

attribute [local instance] Alphabet.unicode

namespace Program

open ClassTable

section Shapes

def area (owner : String) (modifier : MemberModifier) (body : Option Block) : Member :=
  { Member.provided owner "Area" "int" [] with
    modifier := modifier
    kind := .method ⟨.provided "Area", [], body⟩ }

def returning (number : String) : Option Block :=
  some ⟨[.ret (some (.literal .integer number .nowhere)) .nowhere], .nowhere⟩

def circle : ClassDef :=
  simpleClass "Circle" (some "Figure") [area "Circle" .override (returning "2")]

def shapes : Program where
  classes := [
    circle,
    simpleClass "Figure" (some "Shape") [area "Figure" .override (returning "1")],
    { simpleClass "Shape" none [area "Shape" .abstract none] with modifier := .abstract },
    { simpleClass "Home" none [] with label := .screen },
    { simpleClass "int" none [] with isBackend := true }]

theorem shapes_clean : (Context.run { file := "Main.lang" } shapes.check).2.diagnostics = [] := by
  decide +kernel

theorem circle_mem : circle ∈ shapes.classes := List.mem_cons_self

theorem hierarchy_of_shapes :
    let table := (Context.run { file := "Main.lang" } shapes.check).2.classes
    (Context.run { file := "Main.lang" } shapes.check).2.diagnostics = [] ∧
      circle ∈ shapes.classes ∧ table.get? circle.name = some circle ∧
      table.Ascends (some "Circle") (circle :: table.ancestors circle) ∧
      (table.ancestors circle).map ClassDef.name = ["Figure", "Shape"] := by
  intro table
  have hr : table.get? circle.name = some circle :=
    shapes.grows_checkedTable.get?_of_some (get?_registerAll_of_mem (by decide) circle_mem)
  refine ⟨shapes_clean, circle_mem, hr, ?_, by decide +kernel⟩
  exact (hierarchy_of_success shapes_clean circle_mem hr).1

end Shapes

end Program

end ClassLang
