import ClassLang.Proofs.FieldEnvironment
import ClassLang.Types.WordChar

namespace ClassLang

def ClassDef.fieldNames (c : ClassDef) : List (String × String) :=
  c.fields.flatMap fun field => field.2.map fun d => (d.name.text, field.1.declaredType.text)

abbrev Entry := String × Option Ty × Bool

def Variable.entry (v : Variable) : Entry := (v.name, some v.ty, v.assignable)

variable [Alphabet]

def ClassTable.fieldEntry (table : ClassTable) (field : String × String) : Entry :=
  (field.1, table.typeOf? field.2, true)

namespace ClassTable

variable {table other : ClassTable}

theorem fieldEntry_congr (h : ∀ name, other.typeOf? name = table.typeOf? name) :
    other.fieldEntry = table.fieldEntry := by
  funext field
  rw [fieldEntry, fieldEntry, h]

theorem entries_ownVariables {c : ClassDef}
    (h : ∀ field ∈ c.fields, ∃ ty, table.typeOf? field.1.declaredType.text = some ty) :
    (table.ownVariables c).map Variable.entry = c.fieldNames.map table.fieldEntry := by
  rw [ownVariables, ClassDef.fieldNames, List.map_flatMap, List.map_flatMap]
  apply List.flatMap_congr
  intro field hf
  obtain ⟨ty, hty⟩ := h field hf
  rw [fieldVariables, hty, Option.elim_some, List.map_map, List.map_map]
  apply List.map_congr_left
  intro d _
  simp [Variable.entry, fieldEntry, hty]

end ClassTable

namespace Program

variable {p : Program} {c : ClassDef}

theorem MembersAt.checkedAll {s : Site} (hs : p.MembersAt c s) {before : List Member}
    (hb : ∀ m ∈ before, m ∈ c.members) :
    p.MembersAt c (s.after (anyFails (Member.check c) before)) := by
  induction before generalizing s with
  | nil => exact hs
  | cons m before ih =>
    obtain ⟨hm, hrest⟩ := List.forall_mem_cons.mp hb
    exact ih (hs.checked hm) hrest

theorem membersAt_of_reaches {m : Member} {s : Site} (h : p.Reaches ⟨.member c m, s⟩) :
    p.MembersAt c s := by
  obtain ⟨outer, reached, leads⟩ := exists_of_reaches_member h
  obtain ⟨earlier, later, classes, rfl⟩ := exists_of_reaches_classDef reached
  cases leads with
  | member base names unique items =>
    exact (MembersAt.opened classes).checkedAll fun m hm => by simp [items, hm]

section Passing

variable (h : (p.check .empty).findings = []) (hc : c ∈ p.classes)

include h hc

/-- In a program that passes, the variables of a class are told by the names that the fields
declare, whatever lists the table has come to hold. -/
theorem entries_environment {table : ClassTable} (hg : p.registered.Grows table) :
    (p.registered.environment c).map Variable.entry =
      ((table.ancestors c).reverse.flatMap ClassDef.fieldNames).map table.fieldEntry ++
        c.this.entry :: c.fieldNames.map table.fieldEntry := by
  have hown (a : ClassDef) (ha : a ∈ p.classes) : (p.registered.ownVariables a).map Variable.entry =
      a.fieldNames.map p.registered.fieldEntry :=
    ClassTable.entries_ownVariables fun _ hf => exists_type_of_field h ha hf
  have hancestor : ∀ a ∈ (p.registered.ancestors c).reverse, a ∈ p.classes := by
    intro a ha
    rw [List.mem_reverse, ← ancestors_registered h hc p.grows_checkedTable] at ha
    exact ((ascends_ancestors h hc).2 a ha).1
  rw [ancestors_registered h hc hg, ClassTable.fieldEntry_congr hg.typeOf?, ClassTable.environment,
    List.map_append, List.map_cons, hown c hc, List.map_flatMap, List.map_flatMap,
    List.flatMap_congr fun a ha => hown a (hancestor a ha)]

end Passing

/-- In a program that passes, the scope that the members of a class are checked in holds the fields
of its ancestors, those of the oldest first, then `this`, which can not be assigned to, and then the
fields of its own, all of them with the types that their declared types stand for in the end. No two
of the names are the same. -/
theorem class_scope_of_success {file : String}
    (h : (Context.run { file } p.check).2.diagnostics = []) (hc : c ∈ p.classes) :
    let table := (Context.run { file } p.check).2.classes
    let inherited := (table.ancestors c).reverse.flatMap ClassDef.fieldNames
    (∃ held : List Variable,
      (∀ s, p.MembersAt c s → s.scopes = [⟨.classBody, .classDef c, held⟩]) ∧
      held.map Variable.entry = inherited.map table.fieldEntry ++
        ("this", some (.classRef c.name), false) :: c.fieldNames.map table.fieldEntry ∧
      (held.map Variable.name).Nodup) ∧
    (∀ m ∈ c.members, ∃ s, p.Reaches ⟨.member c m, s⟩) ∧
    (∀ m s, p.Reaches ⟨.member c m, s⟩ → p.MembersAt c s) ∧
    (inherited.map Prod.fst ++ "this" :: c.fieldNames.map Prod.fst).Nodup := by
  intro table inherited
  rw [diagnostics_run, List.map_eq_nil_iff] at h
  have hentries := entries_environment h hc p.grows_checkedTable
  have hnodup := nodup_environment h hc
  refine ⟨⟨p.registered.environment c, fun s hs => (hs.scopes h).2.1, hentries, hnodup⟩,
    fun m hm => reaches_member h hc hm, fun m s hs => membersAt_of_reaches hs, ?_⟩
  have hnames := congrArg (List.map Prod.fst) hentries
  rw [List.map_append, List.map_cons, List.map_map, List.map_map, List.map_map] at hnames
  exact hnames ▸ hnodup

end Program

end ClassLang

namespace ClassLang

attribute [local instance] Alphabet.unicode

namespace Program

section Library

def fieldsOf (owner type : String) (names : List String) : Member :=
  { Member.provided owner "" type [] with
    kind := .field (names.map fun name => ⟨.provided name, none, .nowhere⟩) }

def novel : ClassDef := simpleClass "Novel" (some "Book") [fieldsOf "Novel" "Shelf" ["shelf"]]

def library : Program where
  classes := [
    novel,
    simpleClass "Book" (some "Item") [fieldsOf "Book" "string" ["title", "author"]],
    simpleClass "Item" none
      [fieldsOf "Item" "int" ["number"], fieldsOf "Item" "Book_list" ["sequels"]],
    simpleClass "Shelf" none []]

theorem class_scope_of_novel :
    (Context.run { file := "Main.lang" } library.check).2.diagnostics = [] ∧
      novel ∈ library.classes ∧
      ∃ s, library.Reaches ⟨.member novel (fieldsOf "Novel" "Shelf" ["shelf"]), s⟩ ∧
        s.scopes.map (fun scope => scope.declared.map Variable.entry) =
          [[("number", some (.primitive .int), true),
            ("sequels", some (.list (.classRef "Book")), true),
            ("title", some (.primitive .string), true),
            ("author", some (.primitive .string), true),
            ("this", some (.classRef "Novel"), false),
            ("shelf", some (.classRef "Shelf"), true)]] := by
  have h : (Context.run { file := "Main.lang" } library.check).2.diagnostics = [] := by
    decide +kernel
  have hc : novel ∈ library.classes := List.mem_cons_self
  obtain ⟨⟨held, hscopes, hentries, -⟩, hreaches, hmembers, -⟩ := class_scope_of_success h hc
  obtain ⟨s, hs⟩ := hreaches _ List.mem_cons_self
  refine ⟨h, hc, s, hs, ?_⟩
  rw [hscopes s (hmembers _ s hs), List.map_singleton, hentries]
  decide +kernel

end Library

end Program

end ClassLang
