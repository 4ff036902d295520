import ClassLang.Proofs.FieldEnvironment
import ClassLang.Proofs.TypeIdentity
import ClassLang.Types.WordChar
import Mathlib.Data.List.Pairwise
import Mathlib.Data.List.TakeWhile

namespace ClassLang

theorem eq_of_nodup_flatMap {α β γ : Type} {lists : List α} {f : α → List β} {mark : β → γ}
    (h : ((lists.flatMap f).map mark).Nodup) {a b : α} (ha : a ∈ lists) (hb : b ∈ lists) {x y : β}
    (hx : x ∈ f a) (hy : y ∈ f b) (he : mark x = mark y) : a = b := by
  rw [List.map_flatMap, List.nodup_flatMap] at h
  have : Std.Symm (Function.onFun List.Disjoint fun a => (f a).map mark) :=
    ⟨fun _ _ hd _ hx hy => hd hy hx⟩
  by_contra hne
  exact h.2.forall ha hb hne (List.mem_map_of_mem hx) (he ▸ List.mem_map_of_mem hy)

namespace ClassDef

variable {c : ClassDef} {name : String}

theorem findMember?_of_no_field
    (h : ∀ field ∈ c.fields, ∀ d ∈ field.2, d.name.text ≠ name) :
    c.findMember? name = c.findMethod? name := by
  have hnone : c.fields.find? (fun field => field.2.any fun d => d.name.text == name) = none := by
    rw [List.find?_eq_none]
    intro field hf hany
    obtain ⟨d, hd, he⟩ := List.any_eq_true.mp hany
    exact h field hf d hd (by simpa using he)
  rw [findMember?]
  simp only [hnone]
  rfl

theorem findMember?_of_field {field : Member × List Declarator} (hf : field ∈ c.fields)
    {d : Declarator} (hd : d ∈ field.2) (hn : d.name.text = name)
    (h : ∀ other ∈ c.fields, ∀ e ∈ other.2, e.name.text = name → other = field) :
    c.findMember? name = some field.1 := by
  have hsome : c.fields.find? (fun field => field.2.any fun d => d.name.text == name) =
      some field := by
    have hs : (c.fields.find? fun field => field.2.any fun d => d.name.text == name).isSome :=
      List.find?_isSome.mpr ⟨field, hf, List.any_eq_true.mpr ⟨d, hd, by simpa using hn⟩⟩
    obtain ⟨found, hfound⟩ := Option.isSome_iff_exists.mp hs
    have hany := List.find?_some hfound
    obtain ⟨e, he, hname⟩ := List.any_eq_true.mp hany
    rw [hfound, h found (List.mem_of_find?_eq_some hfound) e he (by simpa using hname)]
  rw [findMember?]
  simp only [hsome]
  rfl

end ClassDef

namespace ClassTable

variable {table : ClassTable} {c owner : ClassDef}

/-- The classes on the way up from a class to one of its ancestors, without that one. -/
def nearer (table : ClassTable) (c owner : ClassDef) : List ClassDef :=
  (c :: table.ancestors c).takeWhile fun a => a.name != owner.name

theorem of_mem_nearer {a : ClassDef} (h : a ∈ table.nearer c owner) :
    a ∈ c :: table.ancestors c ∧ a.name ≠ owner.name :=
  ⟨(List.takeWhile_sublist _).subset h, by simpa using List.mem_takeWhile_imp h⟩

theorem exists_older (h : owner ∈ c :: table.ancestors c) :
    ∃ older, c :: table.ancestors c = table.nearer c owner ++ owner :: older := by
  obtain ⟨before, older, he⟩ := List.append_of_mem h
  have hn := table.nodup_ancestors c
  rw [he, List.map_append, List.map_cons] at hn
  have hne : ∀ a ∈ before, (a.name != owner.name) = true := by
    intro a ha
    have hd : a.name ∉ owner.name :: older.map ClassDef.name :=
      List.disjoint_of_nodup_append hn (List.mem_map_of_mem ha)
    simpa using List.ne_of_not_mem_cons hd
  refine ⟨older, ?_⟩
  rw [nearer, he, List.takeWhile_append_of_pos hne, List.takeWhile_cons_of_neg (by simp),
    List.append_nil]

theorem findMember?_eq_or {name : String} {m : Member} (hr : table.get? c.name = some c)
    (ho : owner ∈ c :: table.ancestors c) (hm : owner.findMember? name = some m) :
    table.findMember? c.name name =
      ((table.nearer c owner).findSome? fun a =>
        (a.findMember? name).map fun n => (a, n)).or (some (owner, m)) := by
  obtain ⟨older, he⟩ := exists_older ho
  rw [findMember?, lineage_of_get? hr, he, List.findSome?_append, List.findSome?_cons, hm]
  rfl

/-- `this` leads from a class to a field of the given name: the field is not static, not private to
an ancestor, and no nearer class has a method of that name. -/
structure Exposes (table : ClassTable) (c owner : ClassDef) (m : Member) (name : String) :
    Prop where
  unshared : m.isStatic = false
  visible : m.visibility = .inClass → owner.name = c.name
  unhidden : ∀ a ∈ table.nearer c owner, a.findMethod? name = none

section Search

variable {name : String} {m : Member} (hr : table.get? c.name = some c)
  (ho : owner ∈ c :: table.ancestors c) (hm : owner.findMember? name = some m)
  (hn : ∀ a ∈ table.nearer c owner, a.findMember? name = a.findMethod? name)

include hr ho hm hn

theorem findMember?_of_unhidden (h : ∀ a ∈ table.nearer c owner, a.findMethod? name = none) :
    table.findMember? c.name name = some (owner, m) := by
  have hnone : ((table.nearer c owner).findSome? fun a =>
      (a.findMember? name).map fun n => (a, n)) = none := by
    rw [List.findSome?_eq_none_iff]
    intro a ha
    rw [hn a ha, h a ha]
    rfl
  rw [findMember?_eq_or hr ho hm, hnone, Option.none_or]

theorem of_findMember?_field {found : ClassDef} {n : Member} {declarators : List Declarator}
    (hf : table.findMember? c.name name = some (found, n)) (hk : n.kind = .field declarators) :
    (found = owner ∧ n = m) ∧ ∀ a ∈ table.nearer c owner, a.findMethod? name = none := by
  rw [findMember?_eq_or hr ho hm, Option.or_eq_some_iff] at hf
  obtain hnear | ⟨hnone, hlast⟩ := hf
  · obtain ⟨a, ha, he⟩ := List.exists_of_findSome?_eq_some hnear
    rw [hn a ha, Option.map_eq_some_iff] at he
    obtain ⟨method, hmethod, he⟩ := he
    cases he
    -- what is found on the way up to the field is a method
    obtain ⟨r, hr, rfl⟩ := Option.map_eq_some_iff.mp hmethod
    have hmethods := ClassDef.mem_methods.mp (List.mem_of_find?_eq_some hr)
    rw [hk] at hmethods
    cases hmethods.2
  · cases hlast
    refine ⟨⟨rfl, rfl⟩, fun a ha => ?_⟩
    rw [← hn a ha]
    exact Option.map_eq_none_iff.mp (List.findSome?_eq_none_iff.mp hnone a ha)

end Search

theorem isAccessible_iff {m : Member} {scopes : ScopeStack} (hs : scopes.currentClass? = some c)
    (hr : table.get? c.name = some c) (ho : owner ∈ c :: table.ancestors c) :
    table.isAccessible scopes owner m = true ↔ (m.visibility = .inClass → owner.name = c.name) := by
  have hfamily : (c.name == owner.name || table.isAncestor owner.name c.name) = true := by
    rw [isAncestor, hr]
    obtain rfl | ha := List.mem_cons.mp ho
    · simp
    · rw [Bool.or_eq_true, List.any_eq_true]
      exact .inr ⟨owner, ha, by simp⟩
  rw [isAccessible, hs]
  cases m.visibility with
  | everywhere => simp
  | inClass =>
    simp only [Option.any_some, beq_iff_eq, forall_const]
    exact eq_comm
  | inFamily => simpa using hfamily

end ClassTable

variable [Alphabet]

namespace Check

variable {scopes : ScopeStack} {table : ClassTable} {className : String} {name : Ident}

theorem memberOfType_of_field {owner : ClassDef} {m : Member} {declarators : List Declarator}
    {ty : Ty} (hm : table.findMember? className name.text = some (owner, m))
    (ha : table.isAccessible scopes owner m = true) (hs : m.isStatic = false)
    (hk : m.kind = .field declarators) (ht : table.typeOf? m.declaredType.text = some ty) :
    (memberOfType scopes (.classRef className) false name table).result = some (.value ty true) ∧
      (memberOfType scopes (.classRef className) false name table).findings = [] := by
  have hr : resolve m.declaredType.text table =
      ⟨some ty, (table.resolve m.declaredType.text).2, []⟩ := Outcome.ext ht rfl rfl
  rw [memberOfType, classes_bind_apply]
  simp only [Ty.className?, Ty.name, Option.bind_some, hm, ha, hs, hk]
  simp [expectType, hr]

theorem of_memberOfType_value {ty : Ty} {assignable : Bool}
    (h : (memberOfType scopes (.classRef className) false name table).result =
      some (.value ty assignable)) :
    ∃ owner m, table.findMember? className name.text = some (owner, m) ∧
      table.isAccessible scopes owner m = true ∧ m.isStatic = false ∧
      ∃ declarators, m.kind = .field declarators := by
  rw [memberOfType, classes_bind_apply] at h
  simp only [Ty.className?, Ty.name, Option.bind_some] at h
  cases hm : table.findMember? className name.text with
  | none =>
    rw [hm] at h
    cases h
  | some found =>
    obtain ⟨owner, m⟩ := found
    rw [hm] at h
    refine ⟨owner, m, rfl, ?_⟩
    cases ha : table.isAccessible scopes owner m with
    | false =>
      simp only [ha] at h
      cases h
    | true =>
      cases hs : m.isStatic with
      | true =>
        simp only [ha, hs] at h
        cases h
      | false =>
        refine ⟨rfl, rfl, ?_⟩
        cases hk : m.kind with
        | field declarators => exact ⟨declarators, rfl⟩
        | method r | operator r =>
          simp only [ha, hs, hk] at h
          cases h

end Check

namespace Program

variable {p : Program} {c : ClassDef}

section Lineage

variable (h : (p.check .empty).findings = []) {s : Site} (hs : p.MembersAt c s)

include h hs

theorem mem_of_lineage {a : ClassDef} (ha : a ∈ c :: s.table.ancestors c) : a ∈ p.classes := by
  obtain ⟨hg, -, -⟩ := hs.scopes h
  obtain rfl | ha := List.mem_cons.mp ha
  · exact hs.mem
  · rw [← ancestors_checkedTable h hs.mem hg] at ha
    exact ((ascends_ancestors h hs.mem).2 a ha).1

theorem lookup?_field {owner : ClassDef} (ho : owner ∈ c :: s.table.ancestors c) {m : Member}
    {declarators : List Declarator} (hm : (m, declarators) ∈ owner.fields) {d : Declarator}
    (hd : d ∈ declarators) {ty : Ty} (ht : s.table.typeOf? m.declaredType.text = some ty) :
    s.scopes.lookup? d.name.text = some ⟨d.name.text, ty, true⟩ := by
  obtain ⟨hg, hscopes, hdistinct⟩ := hs.scopes h
  rw [ancestors_registered h hs.mem hg] at ho
  rw [hg.typeOf?] at ht
  have hx : ⟨d.name.text, ty, true⟩ ∈ p.registered.environment c :=
    ClassTable.mem_environment ho (List.mem_flatMap.mpr
      ⟨(m, declarators), hm, ClassTable.mem_fieldVariables.mpr ⟨ty, ht, d, hd, rfl⟩⟩)
  have hlive : ⟨d.name.text, ty, true⟩ ∈ s.scopes.live := by
    rw [hscopes]
    simpa [ScopeStack.live] using hx
  exact ScopeStack.lookup?_of_mem_live hdistinct hlive

theorem lookup?_this : s.scopes.lookup? "this" = some c.this := by
  obtain ⟨-, hscopes, hdistinct⟩ := hs.scopes h
  have hlive : c.this ∈ s.scopes.live := by
    rw [hscopes]
    simp [ScopeStack.live, ClassTable.environment]
  exact ScopeStack.lookup?_of_mem_live hdistinct hlive

theorem eq_of_field_name {a b : ClassDef} (ha : a ∈ c :: s.table.ancestors c)
    (hb : b ∈ c :: s.table.ancestors c) {field other : Member × List Declarator}
    (hf : field ∈ a.fields) (ho : other ∈ b.fields) {d e : Declarator} (hd : d ∈ field.2)
    (he : e ∈ other.2) (hname : d.name.text = e.name.text) : a = b ∧ field = other := by
  obtain ⟨hg, -, -⟩ := hs.scopes h
  obtain ⟨ty, hty⟩ := exists_type_of_field h (mem_of_lineage h hs ha) hf
  obtain ⟨otherTy, hother⟩ := exists_type_of_field h (mem_of_lineage h hs hb) ho
  rw [ancestors_registered h hs.mem hg, ← List.mem_reverse] at ha hb
  have hx := ClassTable.mem_fieldVariables.mpr ⟨ty, hty, d, hd, rfl⟩
  have hy := ClassTable.mem_fieldVariables.mpr ⟨otherTy, hother, e, he, rfl⟩
  have hfields := (nodup_environment h hs.mem).sublist
    ((p.registered.sublist_environment c).map Variable.name)
  obtain rfl := eq_of_nodup_flatMap hfields ha hb (List.mem_flatMap.mpr ⟨field, hf, hx⟩)
    (List.mem_flatMap.mpr ⟨other, ho, hy⟩) hname
  rw [List.map_flatMap, List.nodup_flatMap] at hfields
  exact ⟨rfl, eq_of_nodup_flatMap (hfields.1 a ha) hf ho hx hy hname⟩

theorem findMember?_owner {owner : ClassDef} (ho : owner ∈ c :: s.table.ancestors c) {m : Member}
    {declarators : List Declarator} (hm : (m, declarators) ∈ owner.fields) {d : Declarator}
    (hd : d ∈ declarators) : owner.findMember? d.name.text = some m :=
  ClassDef.findMember?_of_field hm hd rfl fun _ hother _ he hn =>
    (eq_of_field_name h hs ho ho hother hm he hd hn).2

theorem findMember?_nearer {owner : ClassDef} (ho : owner ∈ c :: s.table.ancestors c) {m : Member}
    {declarators : List Declarator} (hm : (m, declarators) ∈ owner.fields) {d : Declarator}
    (hd : d ∈ declarators) :
    ∀ a ∈ s.table.nearer c owner, a.findMember? d.name.text = a.findMethod? d.name.text := by
  intro a ha
  obtain ⟨hup, hne⟩ := ClassTable.of_mem_nearer ha
  apply ClassDef.findMember?_of_no_field
  intro field hf e he hn
  obtain ⟨rfl, -⟩ := eq_of_field_name h hs hup ho hf hm he hd hn
  exact hne rfl

end Lineage

theorem denote_through_this {scopes : ScopeStack} (h : scopes.lookup? "this" = some c.this)
    (name : Ident) (place span : Span) :
    (Expr.member (.ident ⟨"this", place⟩) name span).denote scopes =
      Check.memberOfType scopes (.classRef c.name) false name := by
  rw [Expr.denote, denote_this h]
  rfl

/-- In a program that passes, the members of a class see the fields of the class and its ancestors
by their names alone, and a field is the same through `this` exactly if it is not static, not
private to an ancestor and not behind a method of its name. -/
theorem field_through_this {file : String}
    (h : (Context.run { file } p.check).2.diagnostics = []) {s : Site} (hs : p.MembersAt c s)
    (hr : s.table.get? c.name = some c) {owner : ClassDef} (ho : owner ∈ s.table.lineage c.name)
    {m : Member} {declarators : List Declarator} (hm : (m, declarators) ∈ owner.fields)
    {d : Declarator} (hd : d ∈ declarators) (place thisPlace span : Span) :
    let bare := Expr.ident ⟨d.name.text, place⟩
    let qualified := Expr.member (.ident ⟨"this", thisPlace⟩) ⟨d.name.text, place⟩ span
    ∃ ty, s.table.typeOf? m.declaredType.text = some ty ∧
      s.answer bare.meaning = some (.value ty true) ∧ s.findings bare.meaning = [] ∧
      (s.answer qualified.meaning = s.answer bare.meaning ↔
        s.table.Exposes c owner m d.name.text) ∧
      (s.table.Exposes c owner m d.name.text → s.findings qualified.meaning = []) := by
  intro bare qualified
  rw [diagnostics_run, List.map_eq_nil_iff] at h
  rw [ClassTable.lineage_of_get? hr] at ho
  obtain ⟨hg, hscopes, -⟩ := hs.scopes h
  obtain ⟨ty, ht⟩ := exists_type_of_field h (mem_of_lineage h hs ho) hm
  rw [← hg.typeOf?] at ht
  have hbare : bare.denote s.scopes = pure (some (.value ty true)) :=
    Expr.denote_variable (v := ⟨_, ty, true⟩) (lookup?_field h hs ho hm hd ht) place
  have hqualified := denote_through_this (lookup?_this h hs) ⟨d.name.text, place⟩ thisPlace span
  have hanswer : s.answer bare.meaning = some (.value ty true) :=
    congrArg (fun c : Check (Option Meaning) => (c s.table).result) hbare
  have hcurrent : s.scopes.currentClass? = some c := by rw [hscopes]; rfl
  have howner := findMember?_owner h hs ho hm hd
  have hnearer := findMember?_nearer h hs ho hm hd
  have hk := (ClassDef.mem_fields.mp hm).2
  have hexposed (he : s.table.Exposes c owner m d.name.text) :
      (qualified.denote s.scopes s.table).result = some (.value ty true) ∧
        (qualified.denote s.scopes s.table).findings = [] := by
    rw [hqualified]
    exact Check.memberOfType_of_field
      (ClassTable.findMember?_of_unhidden hr ho howner hnearer he.unhidden)
      ((ClassTable.isAccessible_iff hcurrent hr ho).mpr he.visible) he.unshared hk ht
  refine ⟨ty, ht, hanswer, ?_, ⟨fun hsame => ?_, fun he => ?_⟩, fun he => ?_⟩
  · rw [s.findings_meaning, hbare]
    rfl
  · have hvalue : (qualified.denote s.scopes s.table).result = some (.value ty true) :=
      hsame.trans hanswer
    rw [hqualified] at hvalue
    obtain ⟨found, n, hfound, ha, hstatic, _, hfield⟩ := Check.of_memberOfType_value hvalue
    obtain ⟨⟨rfl, rfl⟩, hunhidden⟩ :=
      ClassTable.of_findMember?_field hr ho howner hnearer hfound hfield
    exact ⟨hstatic, (ClassTable.isAccessible_iff hcurrent hr ho).mp ha, hunhidden⟩
  · exact (hexposed he).1.trans hanswer.symm
  · rw [s.findings_meaning]
    exact (hexposed he).2

end Program

end ClassLang

namespace ClassLang

attribute [local instance] Alphabet.unicode

namespace Program

section Pets

def legs (visibility : Visibility) (isStatic : Bool) : Member :=
  { Member.provided "Animal" "legs" "int" [] with
    visibility := visibility
    isStatic := isStatic
    kind := .field [⟨.provided "legs", none, .nowhere⟩] }

def animal (fields : List Member) : ClassDef := simpleClass "Animal" none fields

def dog (method : String) : ClassDef :=
  simpleClass "Dog" (some "Animal")
    [{ Member.provided "Dog" method "int" [] with
      kind := .method ⟨.provided method, [],
        some ⟨[.ret (some (.ident (.provided "legs"))) .nowhere], .nowhere⟩⟩ }]

def bareLegs : Expr := .ident (.provided "legs")

def thisLegs : Expr := .member (.ident (.provided "this")) (.provided "legs") .nowhere

def bodyOf (before : List ClassDef) (c : ClassDef) (after : List ClassDef) : Site :=
  (c.entered ⟨[], (mk (before ++ c :: after)).tableAfter before⟩).after c.declareNames

theorem membersAt_bodyOf (before : List ClassDef) (c : ClassDef) (after : List ClassDef) :
    (mk (before ++ c :: after)).MembersAt c (bodyOf before c after) := .opened rfl

theorem field_through_this_in_dog :
    let field := legs .inFamily false
    let p := mk [animal [field], dog "Count"]
    let s := bodyOf [animal [field]] (dog "Count") []
    (Context.run { file := "Main.lang" } p.check).2.diagnostics = [] ∧
      p.MembersAt (dog "Count") s ∧ s.table.get? "Dog" = some (dog "Count") ∧
      animal [field] ∈ s.table.lineage "Dog" ∧
      s.table.Exposes (dog "Count") (animal [field]) field "legs" ∧
      s.answer thisLegs.meaning = s.answer bareLegs.meaning ∧ s.findings thisLegs.meaning = [] := by
  intro field p s
  have h : (Context.run { file := "Main.lang" } p.check).2.diagnostics = [] := by decide +kernel
  have hs : p.MembersAt (dog "Count") s := membersAt_bodyOf [animal [field]] (dog "Count") []
  have hclean : (p.check .empty).findings = [] := by
    rwa [diagnostics_run, List.map_eq_nil_iff] at h
  have hnames : (p.classes.map ClassDef.name).Nodup := by decide
  have hget (c : ClassDef) (hc : c ∈ p.classes) : s.table.get? c.name = some c :=
    (hs.scopes hclean).1.get?_of_some (ClassTable.get?_registerAll_of_mem hnames hc)
  have hdog : s.table.get? "Dog" = some (dog "Count") := hget (dog "Count") (by simp [p])
  have hanimal : s.table.get? "Animal" = some (animal [field]) :=
    hget (animal [field]) (by simp [p])
  have hup : s.table.ancestors (dog "Count") = [animal [field]] := by
    have hroot := s.table.climb_none ["Animal", "Dog"]
    have hstep : s.table.climb ["Dog"] (some "Animal") = ⟨[animal [field]], .root⟩ := by
      rw [ClassTable.climb_of_get?_some (by decide) hanimal]
      exact congrArg (fun rest : Chain => Chain.mk (_ :: rest.ancestors) rest.ending) hroot
    exact congrArg Chain.ancestors hstep
  have howner : animal [field] ∈ s.table.lineage "Dog" := by
    rw [ClassTable.lineage, hdog]
    simp [hup]
  have hexposed : s.table.Exposes (dog "Count") (animal [field]) field "legs" := by
    refine ⟨rfl, by decide, ?_⟩
    rw [ClassTable.nearer, hup]
    decide
  obtain ⟨ty, -, -, -, hsame, hquiet⟩ := field_through_this h hs hdog howner
    (d := ⟨.provided "legs", none, .nowhere⟩) List.mem_cons_self List.mem_cons_self .nowhere
    .nowhere .nowhere
  exact ⟨h, hs, hdog, howner, hexposed, hsame.mpr hexposed, hquiet hexposed⟩

/-- The program passes, and where the members of the class are checked `legs` denotes the field by
its name alone, but something else or nothing through `this`. -/
def LegsDiffer (before : List ClassDef) (c : ClassDef) (after : List ClassDef)
    (through : Option Meaning) : Prop :=
  (Context.run { file := "Main.lang" } (mk (before ++ c :: after)).check).2.diagnostics = [] ∧
    (bodyOf before c after).answer bareLegs.meaning = some (.value (.primitive .int) true) ∧
    (bodyOf before c after).answer thisLegs.meaning = through

/-- A field that is private to an ancestor, a static one, one behind a method, and one of a class
that another one of its name takes the place of. -/
theorem fields_not_through_this :
    LegsDiffer [animal [legs .inClass false]] (dog "Count") [] none ∧
      LegsDiffer [animal [legs .everywhere true]] (dog "Count") [] none ∧
      LegsDiffer [animal [legs .everywhere false]] (dog "legs") []
        (some (.method "Dog" "legs" false)) ∧
      LegsDiffer [] (animal [legs .everywhere false]) [animal []] none := by
  refine ⟨⟨?_, ?_, ?_⟩, ⟨?_, ?_, ?_⟩, ⟨?_, ?_, ?_⟩, ⟨?_, ?_, ?_⟩⟩ <;> decide +kernel

end Pets

end Program

end ClassLang
