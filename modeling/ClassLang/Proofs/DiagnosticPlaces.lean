import ClassLang.Proofs.ClassFactoring
import ClassLang.Proofs.DeclaredTypes
import ClassLang.Proofs.MemberUniqueness
import ClassLang.Proofs.PlainFindings
import ClassLang.Tree.Layout
import ClassLang.Types.WordChar

namespace ClassLang

variable {start : ClassTable} {places : Set Span}

variable [Alphabet]

namespace Scoped

variable {α β : Type} {S : Set Finding}

/-- All that the check finds inside a method or operator is in the set. It only adds variables to
the innermost scope. -/
structure FindsInMember (start : ClassTable) (S : Set Finding) (c : Scoped α) : Prop where
  finds : ∀ scopes, scopes.currentMember? ≠ none → (c scopes).Finds start S
  scopes : ∀ scopes table, ∃ added, (c scopes table).result.2 = scopes.extend added

theorem Finds.inMember {c : Scoped α} (h : Finds start S c) (script : Scripted c) :
    FindsInMember start S c := by
  refine ⟨fun scopes _ => h scopes, fun scopes table => ?_⟩
  have hs := script.script.scopes_run scopes table
  rwa [script.run_script] at hs

theorem inMember_reading {c : ScopeStack → Check α}
    (h : ∀ scopes, scopes.currentMember? ≠ none → (c scopes).Finds start S) :
    FindsInMember start S (reading c) :=
  ⟨fun scopes hm => Check.finds_bind (h scopes hm) fun _ => Check.finds_pure _,
    fun scopes _ => ⟨[], scopes.extend_nil.symm⟩⟩

theorem inMember_bind {c : Scoped α} {f : α → Scoped β} (hc : FindsInMember start S c)
    (hf : ∀ a, FindsInMember start S (f a)) : FindsInMember start S (c >>= f) := by
  refine ⟨fun scopes hm table ht => ?_, fun scopes table =>
    extends_bind scopes table hc.scopes fun a => (hf a).scopes⟩
  obtain ⟨added, ha⟩ := hc.scopes scopes table
  obtain ⟨hg, hfound⟩ := hc.finds scopes hm table ht
  have hstill : (c scopes table).result.2.currentMember? ≠ none := by
    rwa [ha, ScopeStack.currentMember?_extend]
  obtain ⟨kg, kfound⟩ := (hf (c scopes table).result.1).finds _ hstill _ hg
  exact ⟨kg, List.forall_mem_append.mpr ⟨hfound, kfound⟩⟩

theorem inMember_both {c d : Scoped Bool} (hc : FindsInMember start S c)
    (hd : FindsInMember start S d) :
    FindsInMember start S (do
      let failed ← c
      let alsoFailed ← d
      return failed || alsoFailed) :=
  inMember_bind hc fun _ => inMember_bind hd fun _ => (finds_pure _).inMember (.pure _)

theorem inMember_code {kind : ScopeKind} {c : Scoped α} (h : FindsInMember start S c) :
    FindsInMember start S (within kind .code c) := by
  refine ⟨fun scopes hm => ?_, fun scopes table =>
    extends_within scopes table kind .code h.scopes⟩
  exact Check.finds_bind (h.finds (scopes.push kind .code) hm) fun _ => Check.finds_pure _

theorem FindsInMember.within {kind : ScopeKind} {m : Member} {c : Scoped α}
    (h : FindsInMember start S c) : Finds start S (within kind (.member m) c) := by
  intro scopes
  have hm : (scopes.push kind (.member m)).currentMember? ≠ none := Option.some_ne_none m
  exact Check.finds_bind (h.finds _ hm) fun _ => Check.finds_pure _

end Scoped

open Scoped

namespace Stmt

mutual

theorem finds_check {s : Stmt} (h : s.Placed places) :
    FindsInMember start (insideAt places) s.check := by
  cases s with
  | block statements span => exact inMember_code (finds_checkAll h.1)
  | continueLoop span | breakLoop span =>
    exact inMember_reading fun _ _ => Check.finds_failIf_inside rfl h _
  | ret value span => exact inMember_reading fun _ hm => (finds_checkReturn h.1 h.2 hm).inside
  | declaration d => exact (Declaration.finds_check h).inside.inMember d.scripted
  | whileLoop condition body span | ifThen condition body span =>
    exact inMember_both ((finds_condition h.1).inside.inMember (.reading _))
      (inMember_code (finds_check h.2.1))
  | doLoop body condition span =>
    exact inMember_both (inMember_code (finds_check h.1))
      ((finds_condition h.2.1).inside.inMember (.reading _))
  | ifElse condition thenBranch elseBranch span =>
    obtain ⟨hc, ht, he, -⟩ := h
    apply inMember_bind ((finds_condition hc).inside.inMember (.reading _))
    intro conditionFailed
    apply inMember_bind (inMember_code (finds_check ht))
    intro thenFailed
    apply inMember_bind (inMember_code (finds_check he))
    intro elseFailed
    exact (finds_pure _).inMember (.pure _)
  | forLoop init condition step body span =>
    obtain ⟨hi, hc, hs, hb, -⟩ := h
    have hinit : Scoped.Finds start (insideAt places) (checkOptional ForInit.check init) :=
      finds_checkOptional fun i h => (ForInit.finds_check (hi i h)).inside
    have hcondition : Scoped.Finds start (insideAt places)
        (checkOptional (fun e => Scoped.reading e.checkCondition) condition) :=
      finds_checkOptional fun e h => (finds_condition (hc e h)).inside
    have hstep : Scoped.Finds start (insideAt places)
        (checkOptional (fun e => Scoped.reading e.checkDenotes) step) :=
      finds_checkOptional fun e h => (finds_denotes (hs e h)).inside
    apply inMember_code
    apply inMember_bind (hinit.inMember (.checkOptional ForInit.scripted init))
    intro initFailed
    apply inMember_bind (hcondition.inMember (.checkOptional (fun e => .reading _) condition))
    intro conditionFailed
    apply inMember_bind (hstep.inMember (.checkOptional (fun e => .reading _) step))
    intro stepFailed
    apply inMember_bind (finds_check hb)
    intro bodyFailed
    exact (finds_pure _).inMember (.pure _)
  | expression e span => exact (finds_denotes h.1).inside.inMember (.reading _)

theorem finds_checkAll {statements : List Stmt} (h : AllPlaced places statements) :
    FindsInMember start (insideAt places) (checkAll statements) := by
  cases statements with
  | nil => exact (finds_pure false).inMember (.pure false)
  | cons s rest =>
    apply inMember_bind (finds_check h.1)
    intro failed
    split
    · cases rest with
      | nil => exact (finds_pure failed).inMember (.pure failed)
      | cons next rest =>
        have hfail : Check.Finds start (insideAt places) (.fail .unreachableCode next.span) :=
          Check.finds_fail ⟨h.2.1.span, rfl⟩
        exact (finds_lift hfail).inMember (.lift _)
    · apply inMember_bind (finds_checkAll h.2)
      intro restFailed
      exact (finds_pure _).inMember (.pure _)

end

end Stmt

theorem Parameter.finds_check {p : Parameter} (h : p.Placed places) :
    Scoped.Finds start (insideAt places) p.check := by
  apply finds_bind (finds_lift (Check.finds_expectValueType h.typeName).inside)
  intro ty
  cases ty with
  | none => exact finds_pure true
  | some ty => exact (finds_declare h.name _).inside

theorem Routine.finds_check {r : Routine} (h : r.Placed places) {m : Member}
    (hm : m.span ∈ places) (returnType : Ty) :
    Scoped.Finds start (insideAt places) (r.check m returnType) := by
  have hparameters : Scoped.Finds start (insideAt places) (failsAt Parameter.check r.parameters) :=
    finds_failsAt fun p hp => Parameter.finds_check (h.parameters p hp)
  apply FindsInMember.within
  apply inMember_bind (hparameters.inMember (.failsAt Parameter.scripted r.parameters))
  intro failed
  split
  · exact (finds_pure true).inMember (.pure true)
  · cases hb : r.body with
    | none => exact (finds_pure false).inMember (.pure false)
    | some b =>
      have hbody : b.toStmt.Placed places := ⟨(h.body b hb).statements, (h.body b hb).span⟩
      exact inMember_both (Stmt.finds_check hbody)
        ((finds_lift (Check.finds_failIf_inside rfl hm _)).inMember (.lift _))

namespace Member

variable {m : Member}

theorem finds_checkField (h : m.Placed places) {declarators : List Declarator}
    (hd : ∀ d ∈ declarators, d.Placed places) :
    Scoped.Finds start (insideAt places) (m.checkField declarators) := by
  apply finds_reading
  intro scopes
  split
  · exact Check.finds_fail ⟨h.span, rfl⟩
  · apply Check.finds_bind (Check.finds_expectValueType h.declaredType).inside
    intro ty
    cases ty with
    | none => exact Check.finds_pure true
    | some ty =>
      apply Check.finds_anyFails
      intro e he
      obtain ⟨d, hmem, hv⟩ := List.mem_filterMap.mp he
      exact (Expr.finds_checkInitializer ((hd d hmem).value e hv) scopes ty).inside

theorem finds_checkMethodHeader {r : Routine} (hr : r.name.span ∈ places) (c : ClassDef)
    (m : Member) : Check.Finds start (insideAt places) (m.checkMethodHeader c r) := by
  apply Check.finds_bind (Check.finds_failIf_inside rfl hr _)
  intro staticFailed
  apply Check.finds_bind (Check.finds_failIf_inside rfl hr _)
  intro placeFailed
  apply Check.finds_bind (Check.finds_failIf_inside rfl hr _)
  intro surplusFailed
  apply Check.finds_bind (Check.finds_failIf_inside rfl hr _)
  intro missingFailed
  apply Check.finds_bind (Check.finds_quiet Check.quiet_classes)
  intro table
  apply Check.finds_bind (Check.finds_failIf_inside rfl hr _)
  intro overrideFailed
  exact Check.finds_pure _

theorem finds_checkMethod (h : m.Placed places) {r : Routine} (hr : r.Placed places)
    (c : ClassDef) : Scoped.Finds start (insideAt places) (m.checkMethod c r) := by
  apply finds_bind (finds_lift (Check.finds_expectType h.declaredType).inside)
  intro returnType
  cases returnType with
  | none => exact finds_pure true
  | some returnType =>
    exact finds_both (finds_lift (finds_checkMethodHeader hr.name c m))
      (Routine.finds_check hr h.span returnType)

theorem finds_checkOperator (h : m.Placed places) {r : Routine} (hr : r.Placed places)
    (c : ClassDef) : Scoped.Finds start (insideAt places) (m.checkOperator c r) := by
  apply finds_bind (finds_lift (Check.finds_failIf_inside rfl hr.name _))
  intro modifierFailed
  apply finds_bind (finds_lift (Check.finds_failIf_inside rfl hr.name _))
  intro countFailed
  apply finds_bind (finds_lift (Check.finds_expectType h.declaredType).inside)
  intro returnType
  cases returnType with
  | none => exact finds_pure true
  | some returnType =>
    apply finds_bind (finds_lift (Check.finds_failIf_inside rfl hr.name _))
    intro missingFailed
    exact finds_bind (Routine.finds_check hr h.span returnType) fun _ => finds_pure _

theorem finds_check (h : m.Placed places) (c : ClassDef) :
    Scoped.Finds start (insideAt places) (m.check c) := by
  have hk := h.kind
  unfold Member.check
  split
  · next declarators hd =>
    rw [hd] at hk
    exact finds_checkField h hk
  · next r hr =>
    rw [hr] at hk
    exact finds_checkMethod h hk c
  · next r hr =>
    rw [hr] at hk
    exact finds_checkOperator h hk c

end Member

namespace ClassDef

variable {c : ClassDef}

omit [Alphabet] in
theorem Placed.declarator (h : c.Placed places) {field : Member × List Declarator}
    (hf : field ∈ c.fields) {d : Declarator} (hd : d ∈ field.2) : d.name.span ∈ places := by
  obtain ⟨m, declarators⟩ := field
  obtain ⟨hm, hk⟩ := mem_fields.mp hf
  have hp := (h.members m hm).kind
  rw [hk] at hp
  exact (hp d hd).name

omit [Alphabet] in
theorem Placed.key (h : c.Placed places) {item : MemberKey × Ident} (hi : item ∈ c.memberKeys) :
    item.2.span ∈ places := by
  obtain ⟨m, hm, hi⟩ := List.mem_flatMap.mp hi
  have hk := (h.members m hm).kind
  unfold Member.keys at hi
  split at hi
  · next declarators hd =>
    rw [hd] at hk
    obtain ⟨d, hmem, rfl⟩ := List.mem_map.mp hi
    exact (hk d hmem).name
  · next r hr =>
    rw [hr] at hk
    rw [List.mem_singleton.mp hi]
    exact hk.name
  · next r hr =>
    rw [hr] at hk
    rw [List.mem_singleton.mp hi]
    exact hk.name

theorem finds_checkUnique (h : c.Placed places) :
    Check.Finds start (insideAt places) c.checkUnique := by
  unfold checkUnique
  split
  · next name hn =>
    obtain ⟨before, key, after, hkeys, -⟩ := exists_of_firstDuplicate? hn
    have hi : (key, name) ∈ c.memberKeys := by simp [hkeys]
    exact Check.finds_fail ⟨h.key hi, rfl⟩
  · exact Check.finds_pure false

theorem finds_checkBase (h : c.Placed places) : Check.Finds start (foundAt places) c.checkBase := by
  unfold checkBase
  split
  · exact Check.finds_pure _
  · next base hb =>
    have hbase : base.span ∈ places := h.base base hb
    apply Check.finds_bind (Check.finds_quiet (Check.quiet_resolve base.text))
    intro _
    apply Check.finds_bind (Check.finds_quiet Check.quiet_classes)
    intro table
    split
    · exact Check.finds_refuse ⟨hbase, rfl⟩
    · split
      · exact Check.finds_refuse ⟨h.ident, rfl⟩
      · next parent hp hc =>
        have hm : Check.Finds start (foundAt places) (c.checkBaseModifier base parent) := by
          unfold checkBaseModifier
          split
          · exact Check.finds_fail ⟨hbase, rfl⟩
          · exact Check.finds_failIf (S := foundAt places) ⟨hbase, rfl⟩ _
        exact Check.finds_bind hm fun _ => Check.finds_pure _

theorem finds_declareInherited {field : Member × List Declarator}
    (h : ∀ d ∈ field.2, d.name.span ∈ places) :
    Scoped.Finds start (insideAt places) (declareInherited field) := by
  apply finds_bind (finds_lift (Check.finds_quiet (Check.quiet_resolve _)))
  intro ty
  cases ty with
  | none => exact finds_pure false
  | some ty => exact finds_anyFails fun d hd => (finds_declare (h d hd) _).inside

theorem finds_declareInheritedFields (hs : ∀ a ∈ start.classes, a.Placed places) (c : ClassDef) :
    Scoped.Finds start (insideAt places) c.declareInheritedFields := by
  apply finds_classes_bind
  intro table ht
  apply finds_anyFails
  intro ancestor ha
  apply finds_anyFails
  intro field hf
  have hmem := ClassTable.mem_classes_of_mem_climb (List.mem_reverse.mp ha)
  have hancestor := hs ancestor (ht.mem_of_field hmem hf)
  exact finds_declareInherited fun d hd => hancestor.declarator hf hd

theorem finds_declareOwn {field : Member × List Declarator}
    (ht : field.1.declaredType.span ∈ places) (hd : ∀ d ∈ field.2, d.name.span ∈ places) :
    Scoped.Finds start (insideAt places) (declareOwn field) := by
  apply finds_bind (finds_lift (Check.finds_expectValueType ht).inside)
  intro ty
  cases ty with
  | none => exact finds_pure true
  | some ty => exact finds_failsAt fun d hmem => (finds_declare (hd d hmem) _).inside

theorem finds_declareNames (hs : ∀ a ∈ start.classes, a.Placed places) (h : c.Placed places) :
    Scoped.Finds start (insideAt places) c.declareNames := by
  apply finds_bind (finds_declareInheritedFields hs c)
  intro inheritedFailed
  apply finds_bind (finds_declare h.ident _).inside
  intro thisFailed
  split
  · exact finds_pure none
  · apply finds_bind
    · apply finds_failsAt
      intro field hf
      have hm := (mem_fields.mp hf).1
      exact finds_declareOwn (h.members field.1 hm).declaredType fun d hd => h.declarator hf hd
    · intro ownFailed
      split
      · exact finds_pure none
      · exact finds_pure _

theorem finds_checkContract (h : c.Placed places) :
    Check.Finds start (insideAt places) c.checkContract := by
  have himplements (required : Member) :
      Check.Finds start (insideAt places) (c.checkImplements required) := by
    unfold checkImplements
    split
    · exact Check.finds_fail ⟨h.ident, rfl⟩
    · next m r hr =>
      obtain ⟨hm, hk⟩ := mem_methods.mp (List.mem_of_find?_eq_some hr)
      have hp := (h.members m hm).kind
      rw [hk] at hp
      exact Check.finds_failIf_inside rfl hp.name _
  unfold checkContract
  split
  · apply Check.finds_bind (Check.finds_quiet Check.quiet_classes)
    intro table
    exact Check.finds_anyFails fun required _ => himplements required
  · exact Check.finds_pure false

theorem finds_checkBody (hs : ∀ a ∈ start.classes, a.Placed places) (h : c.Placed places) :
    Scoped.Finds start (insideAt places) c.checkBody := by
  apply finds_bind (finds_declareNames hs h)
  intro names
  cases names with
  | none => exact finds_pure true
  | some inheritedFailed =>
    apply finds_bind (finds_lift (finds_checkUnique h))
    intro duplicate
    split
    · exact finds_pure true
    · apply finds_bind (finds_anyFails fun m hm => Member.finds_check (h.members m hm) c)
      intro membersFailed
      apply finds_bind (finds_lift (finds_checkContract h))
      intro contractFailed
      exact finds_pure _

theorem finds_check (hs : ∀ a ∈ start.classes, a.Placed places) (h : c.Placed places) :
    Scoped.Finds start (foundAt places) c.check := by
  have hfound : insideAt places ⊆ foundAt places := by
    intro f hf
    exact ⟨hf.1, by simpa using (Bool.and_eq_true_iff.mp hf.2).2⟩
  have hbackend : Check.Finds start (foundAt places) c.checkBackend :=
    Check.finds_failIf (S := foundAt places) ⟨h.ident, rfl⟩ _
  have hlabel : Check.Finds start (foundAt places) c.checkLabel :=
    Check.finds_failIf (S := foundAt places) ⟨h.ident, rfl⟩ _
  apply finds_bind (finds_lift hbackend)
  intro backendFailed
  apply finds_bind (finds_lift (finds_checkBase h))
  intro base
  cases base with
  | none => exact finds_pure true
  | some baseFailed =>
    apply finds_bind (finds_lift hlabel)
    intro labelFailed
    apply finds_bind (finds_within ((finds_checkBody hs h).mono hfound))
    intro bodyFailed
    exact finds_pure _

end ClassDef

namespace Program

/-- The classes of a program are checked on tables that hold, besides lists, only these classes. -/
theorem findings_found {p : Program} (h : ∀ c ∈ p.classes, c.Placed places) :
    ∀ f ∈ (p.check .empty).findings, f ∈ foundAt places := by
  have hs : ∀ a ∈ p.registered.classes, a.Placed places := fun a ha =>
    h a (mem_of_mem_registered ha)
  have hc : Check.Finds p.registered (foundAt places) p.checkClasses := by
    apply Check.finds_anyFails
    intro c hc
    exact Check.finds_bind (ClassDef.finds_check hs (h c hc) []) fun _ => Check.finds_pure _
  rw [check_empty]
  exact (hc p.registered (.refl _)).2

theorem findings_placed {p : Program} (h : ∀ c ∈ p.classes, c.Placed places) :
    ∀ f ∈ (p.check .empty).findings, f.span ∈ places := fun f hf => (findings_found h f hf).1

theorem findings_not_stray (p : Program) :
    ∀ f ∈ (p.check .empty).findings, f.problem ≠ .returnOutsideFunction := by
  intro f hf he
  have hstray := (findings_found (fun c _ => c.placed_univ) f hf).2
  rw [he] at hstray
  cases hstray

end Program

/-- A tree that stands for a program is analyzed, and every diagnostic is filed under the given name
at the place of a node of the tree. -/
theorem diagnostics_point_into_tree {t : Tree} {p : Program} (h : Program.ofTree t = .ok p)
    (file : String) :
    ∃ a, analyze t file = .ok a ∧
      ∀ d ∈ a.diagnostics, d.file = file ∧ ∃ node ∈ t.nodes, d.span = node.span := by
  let places : Set Span := {span | ∃ node ∈ t.nodes, span = node.span}
  have ht : t.Inside places := fun node hn => ⟨node, hn, rfl⟩
  have ha : analyze t file = .ok (p.analyze file) := by
    rw [analyze, h]
    rfl
  refine ⟨_, ha, fun d hd => ?_⟩
  rw [Program.analyze_eq] at hd
  obtain ⟨f, hf, rfl⟩ := List.mem_map.mp hd
  exact ⟨rfl, Program.findings_placed ((Program.gives_ofTree ht).of_ok p h) f hf⟩

def strayClass : Tree :=
  Layout.program [(Layout.classDefinition { name := "Stray", base := some "Missing" } [] 0).1]

end ClassLang

namespace ClassLang

open Scoped

attribute [local instance] Alphabet.unicode

theorem diagnostics_point_into_strayClass :
    ∃ p a, Program.ofTree strayClass = .ok p ∧ analyze strayClass "Main.lang" = .ok a ∧
      a.diagnostics.map (fun d => (d.problem, d.span)) =
        [(.typeNotFound "Missing", ⟨⟨0, 1, 1⟩, ⟨0, 1, 1⟩⟩)] ∧
      ∀ d ∈ a.diagnostics,
        d.file = "Main.lang" ∧ ∃ node ∈ strayClass.nodes, d.span = node.span := by
  have hp : Program.ofTree strayClass = .ok _ := rfl
  obtain ⟨a, ha, hd⟩ := diagnostics_point_into_tree hp "Main.lang"
  have hm : (analyze strayClass "Main.lang").toOption.map (fun a =>
      a.diagnostics.map fun d => (d.problem, d.span)) =
        some [(.typeNotFound "Missing", ⟨⟨0, 1, 1⟩, ⟨0, 1, 1⟩⟩)] := by decide +kernel
  rw [ha] at hm
  exact ⟨_, a, hp, ha, Option.some.inj hm, hd⟩

end ClassLang
