import ClassLang.Proofs.CleanVisits
import ClassLang.Proofs.OrderIndependence
import ClassLang.Proofs.ValueSources
import ClassLang.Proofs.VoidOperands
import ClassLang.Types.WordChar

namespace ClassLang

variable [Alphabet]

namespace Expr

variable {s : Site} {meaning : Meaning} {span : Span}

theorem of_answer_member {target : Expr} {name : Ident}
    (h : s.answer (member target name span).meaning = some meaning) :
    ∃ m, s.answer target.meaning = some m ∧ m.NotVoid := by
  have h : ((member target name span).denote s.scopes s.table).result = some meaning := h
  rw [denote] at h
  obtain ⟨m, hm, h⟩ := Check.exists_of_result_bind (fun _ => rfl) h
  exact ⟨m, hm, Check.not_void_of_memberMeaning h⟩

theorem of_answer_unary {operator : String} {operand : Expr}
    (h : s.answer (unary operator operand span).meaning = some meaning) :
    ∃ m, s.answer operand.meaning = some m ∧ m.NotVoid := by
  have h : ((unary operator operand span).denote s.scopes s.table).result = some meaning := h
  rw [denote] at h
  obtain ⟨m, hm, h⟩ := Check.exists_of_result_bind (fun _ => rfl) h
  exact ⟨m, hm, Check.not_void_of_unaryMeaning h⟩

theorem of_answer_binary {left right : Expr} {operator : String}
    (h : s.answer (binary left operator right span).meaning = some meaning) :
    (∃ m, s.answer left.meaning = some m ∧ m.NotVoid) ∧
      ∃ m, (s.after left.meaning).answer right.meaning = some m ∧ m.NotVoid := by
  have h : ((binary left operator right span).denote s.scopes s.table).result = some meaning := h
  rw [denote] at h
  obtain ⟨leftMeaning, hl, h⟩ := Check.exists_of_result_bind (fun _ => rfl) h
  obtain ⟨rightMeaning, hr, h⟩ := Check.exists_of_result_bind (fun _ => rfl) h
  obtain ⟨hleft, hright⟩ := Check.not_void_of_binaryMeaning h
  exact ⟨⟨leftMeaning, hl, hleft⟩, rightMeaning, hr, hright⟩

theorem of_answer_assign {target value : Expr} {operator : String}
    (h : s.answer (assign target operator value span).meaning = some meaning) :
    ∃ ty, s.answer target.meaning = some (.value ty true) ∧
      ∃ m, (s.after target.meaning).answer value.meaning = some m ∧ (ty ≠ .void → m.NotVoid) := by
  have h : ((assign target operator value span).denote s.scopes s.table).result = some meaning := h
  rw [denote] at h
  obtain ⟨targetMeaning, ht, h⟩ := Check.exists_of_result_bind (fun _ => rfl) h
  obtain ⟨valueMeaning, hv, h⟩ := Check.exists_of_result_bind (fun _ => rfl) h
  obtain ⟨ty, rfl, hvalue⟩ := Check.of_assignMeaning h
  exact ⟨ty, ht, valueMeaning, hv, hvalue⟩

theorem answer_mem_meanings (before : List Expr) (e : Expr) (after : List Expr) (s : Site) :
    (s.after (meanings before)).answer e.meaning ∈ s.answer (meanings (before ++ e :: after)) := by
  obtain ⟨scopes, table⟩ := s
  induction before generalizing table with
  | nil => exact List.mem_cons_self
  | cons b before ih => exact List.mem_cons_of_mem _ (ih (b.denote scopes table).table)

end Expr

/-- No registered class and no variable in sight has anything to do with `void`. -/
structure Site.VoidFree (s : Site) : Prop where
  table : s.table.VoidFree
  scopes : s.scopes.Typed (· ≠ .void)

namespace Site.VoidFree

variable {s t : Site}

theorem advance (h : s.VoidFree) (ha : s.Advances s.table (· ≠ .void) t) : t.VoidFree := by
  have hs : s.Typed s.table (· ≠ .void) := ⟨.refl _, h.scopes⟩
  have ht := hs.advance ha
  exact ⟨ht.grows.voidFree h.table, ht.scopes⟩

theorem not_void_of_assignable (h : s.VoidFree) {e : Expr} {ty : Ty}
    (he : s.answer e.meaning = some (.value ty true)) : ty ≠ .void := by
  have hsource : (Meaning.value ty true).Sourced s.table s.scopes :=
    ((e.yields_denote s.scopes) s.table (.refl _)).2 _ he
  cases hsource with
  | live live => exact h.scopes _ live
  | field registered declared type => exact h.table.admits.field _ registered _ declared ty type

theorem of_answer_call (h : s.VoidFree) {callee : Expr} {arguments : List Expr} {span : Span}
    {meaning : Meaning} (hc : s.answer (Expr.call callee arguments span).meaning = some meaning) :
    (∃ m, s.answer callee.meaning = some m ∧ m.NotVoid) ∧
      ∀ a ∈ (s.after callee.meaning).answer (Expr.meanings arguments),
        ∃ m, a = some m ∧ m.NotVoid := by
  obtain ⟨method, called, hresult⟩ := Expr.of_answer_call hc
  have hfree : ((s.after callee.meaning).after (Expr.meanings arguments)).VoidFree :=
    h.advance (Leads.advances_meanings (Leads.advances_meaning .refl callee) arguments)
  obtain ⟨hm, ha⟩ := Check.of_callResult hfree.table hresult
  exact ⟨⟨method, called, hm⟩, ha⟩

end Site.VoidFree

/-- The visit is that of an expression, with no `void` around it, and it denotes something other
than a `void`. -/
inductive Visit.Solid : Visit → Prop
  | expression {use : Use} {e : Expr} {s : Site} {meaning : Meaning} (free : s.VoidFree)
      (denotes : s.answer e.meaning = some meaning) (solid : meaning.NotVoid) :
      Solid ⟨.expression use e, s⟩

namespace Leads

variable {use : Use} {e : Expr} {s : Site} {meaning : Meaning} {w : Visit}

theorem solid (free : s.VoidFree) (h : s.answer e.meaning = some meaning)
    (leads : Leads ⟨.expression use e, s⟩ w) : w.Solid := by
  have hfree : w.site.VoidFree := free.advance leads.advances_expression
  cases leads with
  | receiver =>
    obtain ⟨m, hm, hv⟩ := Expr.of_answer_member h
    exact .expression hfree hm hv
  | callee =>
    obtain ⟨⟨m, hm, hv⟩, -⟩ := free.of_answer_call h
    exact .expression hfree hm hv
  | @argument _ callee _ before after f _ _ method called items =>
    subst items
    obtain ⟨-, ha⟩ := free.of_answer_call h
    obtain ⟨m, hm, hv⟩ := ha _ (Expr.answer_mem_meanings before f after _)
    exact .expression hfree hm hv
  | newArgument type instantiable items =>
    obtain rfl := Expr.of_answer_new h
    simp at items
  | unaryOperand =>
    obtain ⟨m, hm, hv⟩ := Expr.of_answer_unary h
    exact .expression hfree hm hv
  | leftOperand =>
    obtain ⟨⟨m, hm, hv⟩, -⟩ := Expr.of_answer_binary h
    exact .expression hfree hm hv
  | rightOperand =>
    obtain ⟨-, m, hm, hv⟩ := Expr.of_answer_binary h
    exact .expression hfree hm hv
  | target =>
    obtain ⟨ty, ht, -⟩ := Expr.of_answer_assign h
    have hv := free.not_void_of_assignable ht
    exact .expression hfree ht (by simpa [Meaning.NotVoid, Meaning.valueType?] using hv)
  | assigned =>
    obtain ⟨ty, ht, m, hm, hv⟩ := Expr.of_answer_assign h
    exact .expression hfree hm (hv (free.not_void_of_assignable ht))

open Relation (TransGen)

theorem solid_of_transGen (free : s.VoidFree) (h : s.answer e.meaning = some meaning)
    (way : TransGen Leads ⟨.expression use e, s⟩ w) : w.Solid := by
  induction way with
  | single leads => exact leads.solid free h
  | tail _ leads ih =>
    obtain ⟨free, denotes, -⟩ := ih
    exact leads.solid free denotes

theorem exists_of_holds (free : s.VoidFree) (h : s.answer e.meaning = some meaning) {inner : Use}
    {f : Expr} (holds : e.Holds inner f) :
    ∃ t, TransGen Leads ⟨.expression use e, s⟩ ⟨.expression inner f, t⟩ := by
  induction holds with
  | part inner =>
    obtain ⟨t, leads⟩ := exists_part h inner
    exact ⟨t, .single leads⟩
  | inside outer inner ih =>
    obtain ⟨t, way⟩ := ih
    obtain ⟨-, denotes, -⟩ := solid_of_transGen free h way
    obtain ⟨r, leads⟩ := exists_part denotes inner
    exact ⟨r, way.tail leads⟩

end Leads

namespace Expr

variable {scopes : ScopeStack} {table : ClassTable} {e : Expr} {meaning : Meaning}

theorem not_void_of_checkInitializer {declared : Ty} (hd : declared ≠ .void)
    (hm : (e.denote scopes table).result = some meaning)
    (h : (e.checkInitializer scopes declared table).findings = []) : meaning.NotVoid := by
  intro hv
  rw [checkInitializer, Check.findings_bind, hm] at h
  cases meaning with
  | value ty assignable =>
    obtain rfl : ty = .void := Option.some.inj hv
    have hlast := (List.append_eq_nil_iff.mp h).2
    dsimp only at hlast
    rw [Check.classes_bind_apply, ClassTable.isAssignable_void hd] at hlast
    cases hlast
  | typeName ty => cases hv
  | method className name throughType => cases hv

theorem not_void_of_checkCondition (hm : (e.denote scopes table).result = some meaning)
    (h : (e.checkCondition scopes table).findings = []) : meaning.NotVoid := by
  intro hv
  rw [checkCondition, Check.findings_bind, hm] at h
  have hlast := (List.append_eq_nil_iff.mp h).2
  dsimp only at hlast
  rw [hv] at hlast
  cases hlast

end Expr

theorem Stmt.not_void_of_checkReturn {scopes : ScopeStack} {table : ClassTable} {e : Expr}
    {span : Span} {m : Member} {expected : Ty} {meaning : Meaning}
    (hc : scopes.currentMember? = some m)
    (ht : (Check.resolve m.declaredType.text table).result = some expected)
    (hm : (e.denote scopes (Check.resolve m.declaredType.text table).table).result = some meaning)
    (h : (checkReturn (some e) span scopes table).findings = []) : meaning.NotVoid := by
  intro hv
  rw [checkReturn, hc] at h
  dsimp only at h
  rw [Check.findings_bind, ht] at h
  have hvalue := (List.append_eq_nil_iff.mp h).2
  dsimp only at hvalue
  rw [Check.findings_bind, hm] at hvalue
  have hlast := (List.append_eq_nil_iff.mp hvalue).2
  dsimp only at hlast
  rw [Check.classes_bind_apply, hv, Option.any_some] at hlast
  by_cases hx : expected = .void
  · subst hx
    cases hlast
  · rw [ClassTable.isAssignable_void hx, Bool.and_false] at hlast
    cases hlast

theorem Site.not_void_of_expectValueType {s : Site} {name : Ident} {ty : Ty}
    (h : s.answer (liftM (Check.expectValueType name)) = some ty) :
    name.text ≠ "void" ∧ ty ≠ .void := by
  have h : (Check.expectValueType name s.table).result = some ty := h
  rw [Check.result_expectValueType] at h
  obtain ⟨ht, hv⟩ := Option.filter_eq_some_iff.mp h
  have hty : ty ≠ .void := by simpa [Ty.isVoid] using hv
  refine ⟨fun hn => hty ?_, hty⟩
  rw [hn, ClassTable.typeOf?_void] at ht
  exact (Option.some.inj ht).symm

theorem Parameter.not_void_of_passes {parameters : List Parameter} {s : Site}
    (h : s.answer (failsAt check parameters) = false) :
    ∀ x ∈ parameters, x.typeName.text ≠ "void" := by
  induction parameters generalizing s with
  | nil => simp
  | cons x parameters ih =>
    rw [failsAt, Site.answer_bind] at h
    cases hx : s.answer x.check with
    | true =>
      rw [hx] at h
      cases h
    | false =>
      rw [hx] at h
      refine List.forall_mem_cons.mpr ⟨?_, ih h⟩
      rw [check, Site.answer_bind] at hx
      cases ht : s.answer (liftM (Check.expectValueType x.typeName)) with
      | none =>
        rw [ht] at hx
        cases hx
      | some ty => exact (Site.not_void_of_expectValueType ht).1

namespace Leads

variable {use : Use} {e : Expr} {s t : Site} {meaning : Meaning}

theorem not_void_of_condition (hm : s.answer e.meaning = some meaning)
    (h : s.findings (Scoped.reading e.checkCondition) = []) : meaning.NotVoid := by
  rw [s.findings_reading] at h
  exact Expr.not_void_of_checkCondition hm h

theorem not_void_member {c : ClassDef} {m : Member} (h : s.findings (m.check c) = [])
    (hm : t.answer e.meaning = some meaning)
    (leads : Leads ⟨.member c m, s⟩ ⟨.expression use e, t⟩) : meaning.NotVoid := by
  cases leads with
  | fieldValue kind modifier type items =>
    have hi := Member.infix_fieldValue (c := c) kind modifier type items
    rw [h, List.infix_nil, Site.findings_reading] at hi
    exact Expr.not_void_of_checkInitializer (Site.not_void_of_expectValueType type).2 hm hi

/-- What a statement needs the value of is no `void`, if the statement passes. -/
theorem not_void_statement {u : Stmt} (h : s.findings u.check = [])
    (hm : t.answer e.meaning = some meaning)
    (leads : Leads ⟨.statement u, s⟩ ⟨.expression use e, t⟩) :
    meaning.NotVoid ∨ use.isIdle = true := by
  cases leads with
  | returned current type =>
    rw [Stmt.check, s.findings_reading] at h
    exact .inl (Stmt.not_void_of_checkReturn current type hm h)
  | whileCondition | ifCondition | choiceCondition =>
    exact .inl (not_void_of_condition hm (Site.findings_bind_eq_nil.mp h).1)
  | doCondition =>
    have hrest := (Site.findings_bind_eq_nil.mp h).2
    exact .inl (not_void_of_condition hm (Site.findings_bind_eq_nil.mp hrest).1)
  | forCondition =>
    rw [Stmt.check, s.findings_within] at h
    have hrest := (Site.findings_bind_eq_nil.mp h).2
    exact .inl (not_void_of_condition hm (Site.findings_bind_eq_nil.mp hrest).1)
  | forInit | forStep | expression => exact .inr rfl

theorem not_void_declarator {ty : Ty} {x : Declarator} (hty : ty ≠ .void)
    (h : s.findings (x.check ty) = []) (hm : t.answer e.meaning = some meaning)
    (leads : Leads ⟨.declarator ty x, s⟩ ⟨.expression use e, t⟩) : meaning.NotVoid := by
  cases leads with
  | initialValue value =>
    rw [Declarator.check, value] at h
    have hvalue := (Site.findings_bind_eq_nil.mp h).1
    rw [s.findings_reading] at hvalue
    exact Expr.not_void_of_checkInitializer hty hm hvalue

end Leads

namespace Program

variable {p : Program}

theorem voidFree_of_clean (hp : (p.check .empty).findings = []) : p.registered.VoidFree := by
  intro c hc
  have hclass := mem_of_mem_registered hc
  constructor
  · rintro ⟨m, declarators⟩ hf
    obtain ⟨hm, kind⟩ := ClassDef.mem_fields.mp hf
    obtain ⟨s, hs⟩ := reaches_member hp hclass hm
    obtain ⟨-, ty, type⟩ := Member.field_of_clean kind (clean_of_reaches hp hs)
    exact (Site.not_void_of_expectValueType type).1
  · intro m hm hv
    obtain ⟨x, hx, hn⟩ := List.mem_map.mp hv
    obtain ⟨s, hs⟩ := reaches_member hp hclass hm
    cases kind : m.routine? with
    | none =>
      rw [Member.parameters, kind] at hx
      cases hx
    | some r =>
      obtain ⟨ty, -, parameters⟩ := Member.routine_of_clean kind (clean_of_reaches hp hs)
      rw [Member.parameters, kind] at hx
      exact Parameter.not_void_of_passes parameters x hx hn

theorem voidFree_of_reaches (hp : (p.check .empty).findings = []) {v : Visit} (h : p.Reaches v) :
    v.site.VoidFree := by
  have hfree := voidFree_of_clean hp
  have ht := typed_of_reaches hfree.admits (fun _ _ => by simp) h
  exact ⟨ht.grows.voidFree hfree, ht.scopes⟩

theorem not_void_of_reaches_declarator {ty : Ty} {x : Declarator} {s : Site}
    (h : p.Reaches ⟨.declarator ty x, s⟩) : ty ≠ .void := by
  generalize hv : (⟨.declarator ty x, s⟩ : Visit) = v at h
  cases h with
  | classDef items => cases hv
  | step reached leads =>
    subst hv
    cases leads with
    | declarator type items => exact (Site.not_void_of_expectValueType type).2

/-- In a program that passes only the value of an expression that is dropped may be a `void`. -/
theorem not_void_of_reaches (hp : (p.check .empty).findings = []) {use : Use} {e : Expr} {s : Site}
    (h : p.Reaches ⟨.expression use e, s⟩) :
    ∃ meaning, s.answer e.meaning = some meaning ∧ (meaning.NotVoid ∨ use.isIdle = true) := by
  obtain ⟨meaning, hm⟩ := denotes_of_reaches hp h
  refine ⟨meaning, hm, ?_⟩
  generalize hv : (⟨.expression use e, s⟩ : Visit) = w at h
  cases h with
  | classDef items => cases hv
  | @step v _ reached leads =>
    subst hv
    have hclean := clean_of_reaches hp reached
    obtain ⟨node, outer⟩ := v
    cases node with
    | classDef c => cases leads
    | member c m => exact .inl (leads.not_void_member hclean hm)
    | statement u => exact leads.not_void_statement hclean hm
    | declarator ty x =>
      exact .inl (leads.not_void_declarator (not_void_of_reaches_declarator reached) hclean hm)
    | expression outerUse f =>
      obtain ⟨found, denotes⟩ := denotes_of_reaches hp reached
      obtain ⟨-, hfound, hsolid⟩ := leads.solid (voidFree_of_reaches hp reached) denotes
      rw [hm] at hfound
      cases hfound
      exact .inl hsolid

end Program

open Relation (TransGen)

/-- Where no field, parameter or variable is a `void`, an expression that denotes something has no
`void` below it. In a program that passes there is no such field, parameter or variable, so that
an expression of type `void` is only ever a statement, or the start or step of a `for` loop. -/
theorem void_never_flows :
    (∀ (s : Site) (outer : Use) (e : Expr) (meaning : Meaning), s.VoidFree →
      s.answer e.meaning = some meaning →
      (∀ use f, e.Holds use f →
        ∃ t, TransGen Leads ⟨.expression outer e, s⟩ ⟨.expression use f, t⟩) ∧
      ∀ use f t, TransGen Leads ⟨.expression outer e, s⟩ ⟨.expression use f, t⟩ →
        ∃ m, t.answer f.meaning = some m ∧ m.valueType? ≠ some .void) ∧
    ∀ (p : Program) (file : String), (Context.run { file } p.check).2.diagnostics = [] →
      (∀ scopes, p.Moment scopes → ∀ x ∈ scopes.live, x.ty ≠ .void) ∧
      (∀ use e, p.Uses use e → ∃ s, p.Reaches ⟨.expression use e, s⟩) ∧
      ∀ use e s, p.Reaches ⟨.expression use e, s⟩ →
        ∃ m, s.answer e.meaning = some m ∧ (m.valueType? = some .void → use.isIdle = true) := by
  constructor
  · intro s outer e meaning free h
    refine ⟨fun use f holds => Leads.exists_of_holds free h holds, fun use f t way => ?_⟩
    obtain ⟨-, denotes, solid⟩ := Leads.solid_of_transGen free h way
    exact ⟨_, denotes, solid⟩
  · intro p file hp
    rw [p.diagnostics_run, List.map_eq_nil_iff] at hp
    refine ⟨fun scopes moment => ?_, fun use e uses => p.reaches_of_uses hp uses,
      fun use e s reached => ?_⟩
    · exact p.typed_of_moment (p.voidFree_of_clean hp).admits (fun _ _ => by simp) moment
    · obtain ⟨m, hm, hv⟩ := p.not_void_of_reaches hp reached
      exact ⟨m, hm, fun hvoid => hv.resolve_left fun hn => hn hvoid⟩

end ClassLang

namespace ClassLang

open Relation (TransGen)

attribute [local instance] Alphabet.unicode

section Bell

def Expr.oneMore : Expr :=
  .binary (.ident (.provided "times")) "+" (.literal .integer "1" .nowhere) .nowhere

/-- `Ring(times + 1)`, which gives no value. -/
def Expr.ring : Expr := .call (.ident (.provided "Ring")) [oneMore] .nowhere

def ClassDef.bell : ClassDef :=
  Program.simpleClass "Bell" none
    [{ Member.provided "Bell" "Ring" "void" [.provided "int" "times"] with
      kind := .method ⟨.provided "Ring", [.provided "int" "times"],
        some ⟨[.expression .ring .nowhere], .nowhere⟩⟩ }]

theorem void_never_flows_in_bell :
    let p : Program := ⟨[.bell]⟩
    let times : Variable := ⟨"times", .primitive .int, true⟩
    let s : Site := ⟨[⟨.classBody, .classDef .bell, [times]⟩], p.registered⟩
    (Context.run { file := "Main.lang" } p.check).2.diagnostics = [] ∧
      (∃ t, p.Reaches ⟨.expression .statement .ring, t⟩) ∧
      s.VoidFree ∧ s.answer Expr.ring.meaning = some (.result .void) ∧
      ∃ t m, TransGen Leads ⟨.expression .statement .ring, s⟩
          ⟨.expression .operand (.ident (.provided "times")), t⟩ ∧
        t.answer (Expr.ident (.provided "times")).meaning = some m ∧
        m.valueType? ≠ some .void := by
  intro p times s
  have hclean : (Context.run { file := "Main.lang" } p.check).2.diagnostics = [] := by
    decide +kernel
  obtain ⟨-, hreaches, -⟩ := void_never_flows.2 p "Main.lang" hclean
  have hbody : p.Holds (.block [.expression .ring .nowhere] .nowhere) :=
    .body (c := .bell) (by simp [p]) (List.mem_singleton.mpr rfl) rfl
  have hfree : s.VoidFree := by
    rw [p.diagnostics_run, List.map_eq_nil_iff] at hclean
    exact ⟨p.voidFree_of_clean hclean, by simp [s, times, ScopeStack.Typed, ScopeStack.live]⟩
  have hring : s.answer Expr.ring.meaning = some (.result .void) := by decide +kernel
  obtain ⟨hway, hsolid⟩ := void_never_flows.1 s .statement .ring _ hfree hring
  have hargument : (.argument, .oneMore) ∈ Expr.ring.parts := by
    simp [Expr.ring, Expr.parts]
  obtain ⟨t, way⟩ := hway .operand (.ident (.provided "times"))
    (.inside (.part hargument) (by simp [Expr.oneMore, Expr.parts]))
  obtain ⟨m, hm, hv⟩ := hsolid _ _ t way
  refine ⟨hclean, hreaches .statement .ring ?_, hfree, hring, t, m, way, hm, hv⟩
  exact .statement (.inside hbody (List.mem_singleton.mpr rfl)) (List.mem_singleton.mpr rfl)

end Bell

end ClassLang
