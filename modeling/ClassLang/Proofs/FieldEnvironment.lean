import ClassLang.Proofs.CleanVisits
import ClassLang.Proofs.Hierarchy

namespace ClassLang

variable [Alphabet]

namespace ClassTable

variable (table : ClassTable)

def fieldVariables (field : Member × List Declarator) : List Variable :=
  (table.typeOf? field.1.declaredType.text).elim [] fun ty =>
    field.2.map fun d => ⟨d.name.text, ty, true⟩

def ownVariables (c : ClassDef) : List Variable := c.fields.flatMap table.fieldVariables

def environment (c : ClassDef) : List Variable :=
  (table.ancestors c).reverse.flatMap table.ownVariables ++ c.this :: table.ownVariables c

variable {table}

theorem mem_fieldVariables {field : Member × List Declarator} {x : Variable} :
    x ∈ table.fieldVariables field ↔ ∃ ty, table.typeOf? field.1.declaredType.text = some ty ∧
      ∃ d ∈ field.2, x = ⟨d.name.text, ty, true⟩ := by
  rw [fieldVariables]
  cases table.typeOf? field.1.declaredType.text with
  | none => simp
  | some ty => simp [eq_comm]

theorem mem_environment {c owner : ClassDef} (ho : owner ∈ c :: table.ancestors c) {x : Variable}
    (hx : x ∈ table.ownVariables owner) : x ∈ table.environment c := by
  rw [environment, List.mem_append, List.mem_cons]
  obtain rfl | ho := List.mem_cons.mp ho
  · exact .inr (.inr hx)
  · exact .inl (List.mem_flatMap.mpr ⟨owner, List.mem_reverse.mpr ho, hx⟩)

theorem sublist_environment (table : ClassTable) (c : ClassDef) :
    ((c :: table.ancestors c).reverse.flatMap table.ownVariables).Sublist
      (table.environment c) := by
  rw [environment, List.reverse_cons, List.flatMap_append, List.flatMap_singleton]
  exact (List.Sublist.refl _).append (List.sublist_cons_self c.this _)

end ClassTable

/-- Made on a table grown from the given one, the check adds the variables to the innermost scope if
it reports nothing. Then its answer is as required. -/
structure Scoped.Adds {α : Type} (start : ClassTable) (added : List Variable) (required : α → Prop)
    (c : Scoped α) : Prop where
  of_clean : ∀ scopes table, start.Grows table → (c scopes table).findings = [] →
    start.Grows (c scopes table).table ∧ required (c scopes table).result.1 ∧
      (c scopes table).result.2 = scopes.extend added

namespace Scoped

variable {α β : Type} {start : ClassTable} {added : List Variable} {required : α → Prop}

theorem adds_pure {a : α} (h : required a) : Adds start [] required (pure a) :=
  ⟨fun scopes _ ht _ => ⟨ht, h, scopes.extend_nil.symm⟩⟩

theorem adds_bind {first second : List Variable} {wanted : β → Prop} {c : Scoped β}
    {f : β → Scoped α} (hc : Adds start first wanted c)
    (hf : ∀ b, wanted b → Adds start second required (f b)) :
    Adds start (first ++ second) required (c >>= f) := by
  refine ⟨fun scopes table ht h => ?_⟩
  rw [findings_bind, List.append_eq_nil_iff] at h
  obtain ⟨hg, hb, hs⟩ := hc.of_clean scopes table ht h.1
  obtain ⟨hgrown, ha, hscopes⟩ := (hf _ hb).of_clean _ _ hg h.2
  exact ⟨hgrown, ha, hscopes.trans (by rw [hs, ScopeStack.extend_extend])⟩

theorem adds_lift_bind {wanted : β → Prop} {c : Check β} {f : β → Scoped α}
    (hc : c.Yields start wanted) (hf : ∀ b, wanted b → Adds start added required (f b)) :
    Adds start added required (liftM c >>= f) := by
  have hlift : Adds start [] wanted (liftM c : Scoped β) := by
    refine ⟨fun scopes table ht _ => ?_⟩
    obtain ⟨hg, hb⟩ := hc table ht
    exact ⟨hg, hb, scopes.extend_nil.symm⟩
  exact adds_bind hlift hf

theorem adds_declare (v : Variable) (span : Span) :
    Adds start [v] (· = false) (declare v span) := by
  refine ⟨fun scopes table ht h => ?_⟩
  unfold declare at h ⊢
  cases hd : scopes.declare v with
  | error problem =>
    rw [hd] at h
    cases h
  | ok inner => exact ⟨ht, rfl, ScopeStack.eq_extend_of_declare hd⟩

theorem adds_both {first second : List Variable} {c d : Scoped Bool}
    (hc : Adds start first (· = false) c) (hd : Adds start second (· = false) d) :
    Adds start (first ++ second) (· = false) (do
      let failed ← c
      let alsoFailed ← d
      return failed || alsoFailed) := by
  apply adds_bind hc
  rintro _ rfl
  have hlast : Adds start (second ++ []) (· = false) (do
      let alsoFailed ← d
      return false || alsoFailed) := adds_bind hd fun _ h => adds_pure h
  rwa [List.append_nil] at hlast

theorem adds_anyFails {f : β → Scoped Bool} {each : β → List Variable} {items : List β}
    (h : ∀ b ∈ items, Adds start (each b) (· = false) (f b)) :
    Adds start (items.flatMap each) (· = false) (anyFails f items) := by
  induction items with
  | nil => exact adds_pure rfl
  | cons b items ih => exact adds_both (h b (by simp)) (ih fun b hb => h b (by simp [hb]))

theorem adds_failsAt {f : β → Scoped Bool} {each : β → List Variable}
    (h : ∀ b, Adds start (each b) (· = false) (f b)) (items : List β) :
    Adds start (items.flatMap each) (· = false) (failsAt f items) := by
  induction items with
  | nil => exact adds_pure rfl
  | cons b items ih =>
    apply adds_bind (h b)
    rintro _ rfl
    exact ih

end Scoped

open Scoped

theorem Check.yields_valueType (start : ClassTable) (name : Ident) :
    (expectValueType name).Yields start fun found =>
      ∀ ty ∈ found, start.typeOf? name.text = some ty :=
  yields_expectValueType fun _ hty => (Option.mem_filter_iff.mp hty).1

theorem Check.adds_expectValueType (start : ClassTable) (name : Ident) :
    Adds start [] (fun found => ∃ ty, found = some ty ∧ start.typeOf? name.text = some ty)
      (liftM (expectValueType name)) := by
  refine ⟨fun scopes table ht h => ?_⟩
  have hh : Honest .never False (· = none) (expectValueType name) := honest_expectValueType name
  obtain ⟨hg, hfound⟩ := yields_valueType start name table ht
  obtain ⟨ty, hty⟩ := Option.ne_none_iff_exists'.mp
    (Site.not_fails_of_clean_lift (s := ⟨scopes, table⟩) hh h)
  exact ⟨hg, ⟨ty, hty, hfound ty hty⟩, scopes.extend_nil.symm⟩

namespace ClassDef

variable {start : ClassTable}

theorem adds_declareInherited (field : Member × List Declarator) :
    Adds start (start.fieldVariables field) (· = false) (declareInherited field) := by
  have hr : (Check.resolve field.1.declaredType.text).Yields start
      (· = start.typeOf? field.1.declaredType.text) := Check.yields_resolve rfl
  apply adds_lift_bind hr
  rintro _ rfl
  rw [ClassTable.fieldVariables]
  cases start.typeOf? field.1.declaredType.text with
  | none => exact adds_pure rfl
  | some ty =>
    rw [Option.elim_some, List.map_eq_flatMap]
    exact adds_anyFails fun d _ => adds_declare _ d.name.span

theorem adds_declareOwn (field : Member × List Declarator) :
    Adds start (start.fieldVariables field) (· = false) (declareOwn field) := by
  rw [← List.nil_append (start.fieldVariables field)]
  apply adds_bind (Check.adds_expectValueType start field.1.declaredType)
  rintro _ ⟨ty, rfl, ht⟩
  rw [ClassTable.fieldVariables, ht, Option.elim_some, List.map_eq_flatMap]
  exact adds_failsAt (fun d => adds_declare _ d.name.span) field.2

/-- The names of a class, provided that its ancestors stay the same while the table grows. -/
theorem adds_declareNames {c : ClassDef}
    (hc : ∀ table, start.Grows table → table.ancestors c = start.ancestors c) :
    Adds start (start.environment c) (· = some false) c.declareNames := by
  have hinherited : Adds start ((start.ancestors c).reverse.flatMap start.ownVariables) (· = false)
      c.declareInheritedFields := by
    have hclasses : Check.classes.Yields start fun table => table.ancestors c = start.ancestors c :=
      Check.yields_classes hc
    apply adds_lift_bind hclasses
    intro table htable
    rw [htable]
    exact adds_anyFails fun ancestor _ => adds_anyFails fun field _ => adds_declareInherited field
  have hown : Adds start (start.ownVariables c) (· = false) c.declareOwnFields :=
    adds_failsAt adds_declareOwn c.fields
  apply adds_bind hinherited
  rintro _ rfl
  have hthis : Adds start [c.this] (· = false) c.declareThis := adds_declare c.this c.ident.span
  apply adds_bind hthis
  rintro _ rfl
  rw [← List.append_nil (c.fields.flatMap start.fieldVariables)]
  apply adds_bind hown
  rintro _ rfl
  exact adds_pure rfl

end ClassDef

namespace Program

variable {p : Program} {c : ClassDef}

/-- Where the members of a class are checked: in the scope of the class, once its names are
declared, one member after the other. -/
inductive MembersAt (p : Program) (c : ClassDef) : Site → Prop
  | opened {before after : List ClassDef} (items : p.classes = before ++ c :: after) :
      p.MembersAt c ((c.entered ⟨[], p.tableAfter before⟩).after c.declareNames)
  | checked {s : Site} {m : Member} (reached : p.MembersAt c s) (member : m ∈ c.members) :
      p.MembersAt c (s.after (m.check c))

theorem MembersAt.mem {s : Site} (hs : p.MembersAt c s) : c ∈ p.classes := by
  induction hs with
  | opened items => simp [items]
  | checked reached member ih => exact ih

theorem ancestors_registered (h : (p.check .empty).findings = []) (hc : c ∈ p.classes)
    {table : ClassTable} (hg : p.registered.Grows table) :
    table.ancestors c = p.registered.ancestors c := by
  rw [← ancestors_checkedTable h hc hg, ancestors_checkedTable h hc (.refl p.registered)]

theorem scopes_of_opened (h : (p.check .empty).findings = []) {before after : List ClassDef}
    (items : p.classes = before ++ c :: after) :
    let s := (c.entered ⟨[], p.tableAfter before⟩).after c.declareNames
    p.registered.Grows s.table ∧
      s.scopes = [⟨.classBody, .classDef c, p.registered.environment c⟩] ∧ s.scopes.Distinct := by
  have hc : c ∈ p.classes := by simp [items]
  have hclass := clean_of_reaches h (.classDef items)
  obtain ⟨-, hbody⟩ := ClassDef.body_of_clean hclass
  obtain ⟨hnames, -, -⟩ := ClassDef.names_of_clean hbody
  have hbase : Check.Honest .never False (· ≠ some false) c.checkBase := c.honest_checkBase
  have hentered : p.registered.Grows (c.entered ⟨[], p.tableAfter before⟩).table :=
    (p.grows_tableAfter before).trans (hbase (p.tableAfter before)).grows
  have hadds := ClassDef.adds_declareNames fun _ hg => ancestors_registered h hc hg
  obtain ⟨hgrows, -, hscopes⟩ := hadds.of_clean _ _ hentered hnames
  have hempty : (c.entered ⟨[], p.tableAfter before⟩).scopes.Distinct := List.nodup_nil
  exact ⟨hgrows, hscopes, Site.distinct_after c.scriptedNames hempty⟩

theorem nodup_environment (h : (p.check .empty).findings = []) (hc : c ∈ p.classes) :
    ((p.registered.environment c).map Variable.name).Nodup := by
  obtain ⟨before, after, items⟩ := List.append_of_mem hc
  obtain ⟨-, hscopes, hdistinct⟩ := scopes_of_opened h items
  rw [ScopeStack.Distinct, hscopes] at hdistinct
  simpa [ScopeStack.liveNames] using hdistinct

theorem MembersAt.scopes (h : (p.check .empty).findings = []) {s : Site} (hs : p.MembersAt c s) :
    p.registered.Grows s.table ∧
      s.scopes = [⟨.classBody, .classDef c, p.registered.environment c⟩] ∧ s.scopes.Distinct := by
  induction hs with
  | opened items => exact scopes_of_opened h items
  | @checked s m reached member ih =>
    obtain ⟨hg, hscopes, hdistinct⟩ := ih
    have hrestored : (s.after (m.check c)).scopes = s.scopes := m.restores_check c s.scopes s.table
    rw [hrestored]
    exact ⟨hg.trans ((m.honest_check c).check s.scopes s.table).grows, hscopes, hdistinct⟩

theorem exists_type_of_field (h : (p.check .empty).findings = []) (hc : c ∈ p.classes) {m : Member}
    {declarators : List Declarator} (hm : (m, declarators) ∈ c.fields) :
    ∃ ty, p.registered.typeOf? m.declaredType.text = some ty := by
  obtain ⟨hmem, hk⟩ := ClassDef.mem_fields.mp hm
  obtain ⟨s, hs⟩ := reaches_member h hc hmem
  obtain ⟨-, ty, hty⟩ := Member.field_of_clean hk (clean_of_reaches h hs)
  have hy := Check.yields_valueType p.registered m.declaredType s.table (grows_of_reaches hs)
  exact ⟨ty, hy.2 ty hty⟩

end Program

end ClassLang
