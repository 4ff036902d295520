import ClassLang.Proofs.CleanVisits
import ClassLang.Proofs.DiagnosticPlaces
import ClassLang.Proofs.FieldAccess
import ClassLang.Proofs.ListMethods
import ClassLang.Types.WordChar

namespace ClassLang

open Scoped (Scripted)

inductive Member.Holds (m : Member) : Stmt → Prop
  | body {b : Block} (present : m.body? = some b) : m.Holds b.toStmt
  | inside {t u : Stmt} (outer : m.Holds t) (inner : u ∈ t.statements) : m.Holds u

namespace Script

variable {α : Type}

/-- The scopes at every moment at which the script declares a variable, in order. -/
def declarations {α : Type} : Script α → ScopeStack → ClassTable → List ScopeStack
  | .done _, _, _ => []
  | .look c next, scopes, table =>
    (next (c scopes table).result).declarations scopes (c scopes table).table
  | .declare v span next, scopes, table =>
    let declared := Scoped.declare v span scopes table
    scopes :: (next declared.result.1).declarations declared.result.2 declared.table
  | .enter kind owner inner next, scopes, table =>
    let entered := scopes.push kind owner
    let left := inner.run entered table
    inner.declarations entered table ++
      (next left.result.1).declarations left.result.2.pop left.table

theorem ne_nil_of_mem_declarations (script : Script α) {scopes : ScopeStack} (h : scopes ≠ [])
    (table : ClassTable) : ∀ moment ∈ script.declarations scopes table, moment ≠ [] := by
  have hextend {scopes : ScopeStack} (h : scopes ≠ []) (added : List Variable) :
      scopes.extend added ≠ [] := by
    cases scopes with
    | nil => exact absurd rfl h
    | cons s outer => exact List.cons_ne_nil _ _
  induction script generalizing scopes table with
  | done a => exact fun _ hm => absurd hm List.not_mem_nil
  | look c next ih => exact ih _ h _
  | declare v span next ih =>
    have hnext : (Scoped.declare v span scopes table).result.2 ≠ [] := by
      rw [Scoped.scopes_declare]
      exact hextend h _
    exact List.forall_mem_cons.mpr ⟨h, ih _ hnext _⟩
  | enter kind owner inner next hinner ih =>
    have hentered : scopes.push kind owner ≠ [] := List.cons_ne_nil _ _
    have hleft : (inner.run (scopes.push kind owner) table).result.2.pop = scopes := by
      obtain ⟨added, hin⟩ := inner.scopes_run (scopes.push kind owner) table
      rw [hin, ScopeStack.pop_extend_push]
    refine List.forall_mem_append.mpr ⟨hinner hentered table, ih _ ?_ _⟩
    rwa [hleft]

end Script

theorem Scoped.Scripted.ne_nil_of_lift_bind {α β : Type} {c : Check α} {f : α → Scoped β}
    {next : ∀ a, Scripted (f a)} {scopes : ScopeStack}
    (h : ∀ a table, ∀ moment ∈ (next a).script.declarations scopes table, moment ≠ [])
    (table : ClassTable) :
    ∀ moment ∈ ((lift c).bind next).script.declarations scopes table, moment ≠ [] :=
  h (c table).result (c table).table

namespace ClassTable

variable {table : ClassTable} {className name : String} {owner : ClassDef} {m : Member}

theorem declared_of_findMethod? (h : table.findMethod? className name = some (owner, m)) :
    owner ∈ table.classes ∧ owner.findMethod? name = some m := by
  obtain ⟨c, hc, hf⟩ := List.exists_of_findSome?_eq_some h
  obtain ⟨found, hfound, he⟩ := Option.map_eq_some_iff.mp hf
  cases he
  exact ⟨mem_classes_of_mem_lineage hc, hfound⟩

theorem declared_of_findMember? (h : table.findMember? className name = some (owner, m))
    (hk : ∀ declarators, m.kind ≠ .field declarators) :
    owner ∈ table.classes ∧ owner.findMethod? name = some m := by
  obtain ⟨c, hc, hf⟩ := List.exists_of_findSome?_eq_some h
  obtain ⟨found, hfound, he⟩ := Option.map_eq_some_iff.mp hf
  cases he
  refine ⟨mem_classes_of_mem_lineage hc, ?_⟩
  rw [ClassDef.findMember?, Option.or_eq_some_iff] at hfound
  obtain hfield | ⟨-, hmethod⟩ := hfound
  · obtain ⟨⟨n, declarators⟩, hn, rfl⟩ := Option.map_eq_some_iff.mp hfield
    have hkind := (ClassDef.mem_fields.mp (List.mem_of_find?_eq_some hn)).2
    exact absurd hkind (hk declarators)
  · exact hmethod

end ClassTable

namespace Check

variable {α : Type}

/-- Whatever the check denotes is a value that can not be assigned to. -/
def Computes (c : Check (Option Meaning)) : Prop :=
  ∀ table, ∀ meaning ∈ (c table).result, ∃ ty, meaning = .result ty

theorem computes_none : Computes (pure none) := fun _ _ hm => absurd hm (Option.not_mem_none _)

theorem computes_refuse (problem : Problem) (span : Span) : Computes (refuse problem span) :=
  fun _ _ hm => absurd hm (Option.not_mem_none _)

theorem computes_map (ty : Option Ty) : Computes (pure (ty.map Meaning.result)) := by
  intro table meaning hm
  obtain ⟨t, -, rfl⟩ := Option.map_eq_some_iff.mp hm
  exact ⟨t, rfl⟩

theorem computes_result (ty : Ty) : Computes (pure (some (.result ty))) := computes_map (some ty)

theorem computes_bind (c : Check α) {f : α → Check (Option Meaning)} (h : ∀ a, Computes (f a)) :
    Computes (c >>= f) := fun table => h (c table).result (c table).table

theorem computes_typed (problem : Problem) (span : Span) (result : Option Ty) :
    Computes
      (match result with
        | some ty => return some (Meaning.result ty)
        | none => refuse problem span) := by
  cases result with
  | some ty => exact computes_result ty
  | none => exact computes_refuse problem span

end Check

variable [Alphabet]

namespace Leads

variable {s inner : Site}

theorem statement_mem {t u : Stmt} (h : Leads ⟨.statement t, s⟩ ⟨.statement u, inner⟩) :
    u ∈ t.statements := by
  cases h with
  | inBlock items live => simp [Stmt.statements, items]
  | whileBody | doBody | ifThen | choiceThen => exact List.mem_cons_self
  | choiceElse => exact List.mem_cons_of_mem _ List.mem_cons_self
  | forDeclaration => exact List.mem_cons_self
  | forBody => exact List.mem_append_right _ List.mem_cons_self

theorem currentMember?_statement {t u : Stmt}
    (h : Leads ⟨.statement t, s⟩ ⟨.statement u, inner⟩) :
    inner.scopes.currentMember? = s.scopes.currentMember? := by
  have hcondition (e : Expr) : (s.after (Scoped.reading e.checkCondition)).scopes.currentMember? =
      s.scopes.currentMember? := s.currentMember?_after (.reading e.checkCondition)
  cases h with
  | @inBlock _ before =>
    exact (s.push .block .code).currentMember?_after (Stmt.scriptedAll before)
  | whileBody | ifThen | choiceThen => exact hcondition _
  | doBody | forDeclaration => rfl
  | @choiceElse condition thenBranch =>
    exact (Site.currentMember?_after _ (.within thenBranch.scripted)).trans (hcondition condition)
  | @forBody init condition step =>
    have hinit := (s.push .loop .code).currentMember?_after (.checkOptional ForInit.scripted init)
    refine (Site.currentMember?_after _ (.checkOptional (fun e => .reading _) step)).trans ?_
    exact (Site.currentMember?_after _ (.checkOptional (fun e => .reading _) condition)).trans hinit

end Leads

namespace Program

variable {p : Program} {t : Stmt} {s : Site}

/-- The check of the program comes to the statement from the member whose body holds it. -/
structure ChecksIn (p : Program) (c : ClassDef) (m : Member) (t : Stmt) (s : Site) : Prop where
  holds : m.Holds t
  comes : ∃ outer, p.Reaches ⟨.member c m, outer⟩ ∧
    Relation.TransGen Leads ⟨.member c m, outer⟩ ⟨.statement t, s⟩

theorem checksIn_of_reaches (h : p.Reaches ⟨.statement t, s⟩) :
    ∃ c m, p.ChecksIn c m t s ∧ s.scopes.currentMember? = some m := by
  generalize hv : (⟨.statement t, s⟩ : Visit) = v at h
  induction h generalizing t s with
  | classDef items => cases hv
  | @step v w reached leads ih =>
    subst hv
    obtain ⟨node, outer⟩ := v
    cases node with
    | classDef c | declarator ty d | expression use e => cases leads
    | member c m =>
      refine ⟨c, m, ⟨?_, outer, reached, .single leads⟩, ?_⟩
      · cases leads with
        | body kind type parameters present => exact .body (by simp [Member.body?, kind, present])
      · cases leads with
        | @body _ _ _ r =>
          exact (m.entered outer).currentMember?_after (.failsAt Parameter.scripted r.parameters)
    | statement u =>
      obtain ⟨c, m, ⟨hu, start, hstart, hway⟩, hm⟩ := ih rfl
      exact ⟨c, m, ⟨hu.inside leads.statement_mem, start, hstart, hway.tail leads⟩,
        leads.currentMember?_statement.trans hm⟩

theorem resolves_of_reaches {v : Visit} (h : p.Reaches v) {m : Member}
    (hm : v.site.scopes.currentMember? = some m) :
    ∃ ty, v.site.answer (liftM (Check.resolve m.declaredType.text)) = some ty := by
  have hn : p.registered.typeOf? m.declaredType.text ≠ none := not_dangling_of_reaches h m hm
  rw [← (grows_of_reaches h).typeOf?] at hn
  exact Option.ne_none_iff_exists'.mp hn

end Program

theorem ClassDef.ne_nil_of_mem_declarations (c : ClassDef) (scopes : ScopeStack)
    (table : ClassTable) : ∀ moment ∈ c.scripted.script.declarations scopes table, moment ≠ [] := by
  apply Scoped.Scripted.ne_nil_of_lift_bind
  intro backendFailed
  apply Scoped.Scripted.ne_nil_of_lift_bind
  intro base table
  cases base with
  | none => exact fun _ hm => absurd hm List.not_mem_nil
  | some baseFailed =>
    apply Scoped.Scripted.ne_nil_of_lift_bind
    intro labelFailed table
    have hentered : scopes.push .classBody (.classDef c) ≠ [] := List.cons_ne_nil _ _
    have hbody := c.scriptedBody.script.ne_nil_of_mem_declarations hentered table
    exact List.forall_mem_append.mpr ⟨hbody, fun _ hm => absurd hm List.not_mem_nil⟩

namespace ClassTable

variable {table grown : ClassTable} {className name : String} {owner : ClassDef} {m : Member}

/-- Once a class is registered, its own methods are found under its name, however the table may
grow. -/
theorem Grows.findMethod?_own (h : table.Grows grown) (ho : owner ∈ table.classes)
    (hm : owner.findMethod? name = some m) :
    grown.findMethod? owner.name name = some (owner, m) := by
  have hg : grown.get? owner.name = some owner := h.get?_of_some (get?_of_mem ho)
  rw [findMethod?, lineage_of_get? hg, List.findSome?_cons, hm]
  rfl

end ClassTable

/-- The expression names a method that a look-up finds: from the class around the site, or from the
class of what stands before the point. -/
inductive Expr.LooksUp (s : Site) : Expr → ClassDef → Member → Prop
  | name {name : Ident} {c owner : ClassDef} {m : Member}
      (current : s.scopes.currentClass? = some c)
      (found : (s.after (liftM (Check.resolve name.text))).table.findMethod? c.name name.text =
        some (owner, m)) :
      LooksUp s (.ident name) owner m
  | throughValue {target : Expr} {name : Ident} {span : Span} {ty : Ty} {assignable : Bool}
      {className : String} {owner : ClassDef} {m : Member}
      (receiver : s.answer target.meaning = some (.value ty assignable))
      (type : ty.className? = some className)
      (found : (s.after target.meaning).table.findMember? className name.text = some (owner, m)) :
      LooksUp s (.member target name span) owner m
  | throughType {target : Expr} {name : Ident} {span : Span} {ty : Ty} {className : String}
      {owner : ClassDef} {m : Member} (receiver : s.answer target.meaning = some (.typeName ty))
      (type : ty.className? = some className)
      (found : (s.after target.meaning).table.findMember? className name.text = some (owner, m)) :
      LooksUp s (.member target name span) owner m

namespace Check

theorem computes_unaryMeaning (operator : String) (operand : Meaning) (span : Span) :
    Computes (unaryMeaning operator operand span) := by
  unfold unaryMeaning
  split
  · exact computes_bind _ (computes_typed _ span)
  · exact computes_bind _ (computes_typed _ span)

theorem computes_binaryMeaning (operator : String) (left right : Meaning) (span : Span) :
    Computes (binaryMeaning operator left right span) := by
  unfold binaryMeaning
  split
  · exact computes_bind _ (computes_typed _ span)
  · exact computes_bind _ (computes_typed _ span)

theorem computes_assignMeaning (operator : String) (target value : Meaning)
    (targetSpan valueSpan span : Span) :
    Computes (assignMeaning operator target value targetSpan valueSpan span) := by
  unfold assignMeaning
  split
  · split
    · exact computes_refuse _ valueSpan
    · apply computes_bind
      intro stored
      cases stored with
      | none => exact computes_none
      | some stored =>
        apply computes_bind
        intro table
        split
        · exact computes_result _
        · exact computes_refuse _ valueSpan
  · exact computes_refuse _ targetSpan

theorem computes_methodResult (className name : String) (arguments : List Meaning)
    (callee span : Span) : Computes (methodResult className name arguments callee span) := by
  apply computes_bind
  intro table
  split
  · exact computes_refuse _ callee
  · next method _ =>
    have hlast (matched : Bool) : Computes
        (if matched then do return (← resolve method.declaredType.text).map Meaning.result
          else refuse (.argumentsDoNotMatch name) span) := by
      split
      · exact computes_bind _ computes_map
      · exact computes_refuse _ span
    split
    · exact computes_bind _ hlast
    · exact computes_bind _ hlast

theorem computes_callResult (callee : Meaning) (arguments : List (Option Meaning))
    (calleeSpan span : Span) : Computes (callResult callee arguments calleeSpan span) := by
  cases callee with
  | method className name throughType =>
    unfold callResult
    dsimp only
    split
    · exact computes_methodResult className name _ calleeSpan span
    · exact computes_none
  | value ty assignable | typeName ty => exact computes_refuse _ calleeSpan

section Named

variable {scopes : ScopeStack} {table : ClassTable} {name : Ident} {className method : String}
  {throughType : Bool}

theorem of_nameMeaning_method
    (h : (nameMeaning scopes name table).result = some (.method className method throughType)) :
    (nameMeaning scopes name table).table = (table.resolve name.text).2 ∧ method = name.text ∧
      ∃ c owner m, scopes.currentClass? = some c ∧ className = owner.name ∧
        (table.resolve name.text).2.findMethod? c.name name.text = some (owner, m) := by
  unfold nameMeaning at h ⊢
  cases hl : scopes.lookup? name.text with
  | some v =>
    rw [hl] at h
    cases h
  | none =>
    rw [hl] at h
    dsimp only at h ⊢
    rw [resolve_bind_apply, classes_bind_apply] at h ⊢
    cases hf : (table.resolve name.text).1.filter (fun ty => !ty.isVoid) with
    | some ty =>
      rw [hf] at h
      cases h
    | none =>
      rw [hf] at h
      dsimp only at h ⊢
      cases hm : scopes.currentClass?.bind fun c =>
          (table.resolve name.text).2.findMethod? c.name name.text with
      | none =>
        rw [hm] at h
        cases h
      | some found =>
        rw [hm] at h
        cases h
        obtain ⟨c, hc, hfound⟩ := Option.bind_eq_some_iff.mp hm
        exact ⟨rfl, rfl, c, found.1, found.2, hc, rfl, hfound⟩

theorem of_memberOfType_method {ty : Ty} {through : Bool}
    (h : (memberOfType scopes ty through name table).result =
      some (.method className method throughType)) :
    (memberOfType scopes ty through name table).table = table ∧ method = name.text ∧
      ∃ receiver owner m, ty.className? = some receiver ∧ className = owner.name ∧
        (∀ declarators, m.kind ≠ .field declarators) ∧
        table.findMember? receiver name.text = some (owner, m) := by
  rw [memberOfType, classes_bind_apply] at h ⊢
  cases hm : ty.className?.bind fun receiver => table.findMember? receiver name.text with
  | none =>
    rw [hm] at h
    cases h
  | some found =>
    obtain ⟨owner, m⟩ := found
    rw [hm] at h
    dsimp only at h ⊢
    split at h
    · cases h
    · next ha =>
      split at h
      · cases h
      · next hs =>
        rw [if_neg ha, if_neg hs]
        obtain ⟨receiver, hr, hfound⟩ := Option.bind_eq_some_iff.mp hm
        cases hk : m.kind with
        | field declarators =>
          rw [hk] at h
          obtain ⟨fieldType, -, h⟩ := exists_of_result_bind (fun _ => rfl) h
          cases h
        | method r | operator r =>
          rw [hk] at h
          cases h
          exact ⟨rfl, rfl, receiver, owner, m, hr, rfl, by simp [hk], hfound⟩

end Named

end Check

/-- At the site the expression names a method of a class: the one that a look-up finds, which is
among the class's own. -/
structure Expr.Names (s : Site) (e : Expr) (className name : String) (owner : ClassDef)
    (m : Member) : Prop where
  lookup : e.LooksUp s owner m
  className : className = owner.name
  registered : owner ∈ (s.after e.meaning).table.classes
  declared : owner.findMethod? name = some m

namespace Expr

open Check

variable {s : Site} {className name : String} {throughType : Bool}

theorem not_computes_of_method {e : Expr}
    (h : s.answer e.meaning = some (.method className name throughType)) :
    ¬ Computes (e.denote s.scopes) := by
  intro hc
  obtain ⟨ty, hty⟩ := hc s.table _ h
  cases hty

theorem names_ident {ident : Ident}
    (h : s.answer (Expr.ident ident).meaning = some (.method className name throughType)) :
    ∃ owner m, (Expr.ident ident).Names s className name owner m := by
  obtain ⟨htable, rfl, c, owner, m, hc, rfl, hfound⟩ := of_nameMeaning_method h
  obtain ⟨ho, hm⟩ := ClassTable.declared_of_findMethod? hfound
  have hafter : (s.after (Expr.ident ident).meaning).table = (s.table.resolve ident.text).2 :=
    htable
  exact ⟨owner, m, .name hc hfound, rfl, by rwa [hafter], hm⟩

theorem names_member {target : Expr} {ident : Ident} {span : Span}
    (h : s.answer (member target ident span).meaning =
      some (.method className name throughType)) :
    ∃ owner m, (member target ident span).Names s className name owner m := by
  have hd : ((member target ident span).denote s.scopes s.table).result =
      some (.method className name throughType) := h
  rw [denote] at hd
  obtain ⟨receiver, hr, hd⟩ := exists_of_result_bind (fun _ => rfl) hd
  have hafter : (s.after (member target ident span).meaning).table =
      (memberMeaning s.scopes receiver ident (s.after target.meaning).table).table := by
    change ((member target ident span).denote s.scopes s.table).table = _
    rw [denote, table_bind, hr]
    rfl
  cases receiver with
  | value ty assignable =>
    obtain ⟨htable, rfl, receiver, owner, m, ht, rfl, hk, hfound⟩ := of_memberOfType_method hd
    obtain ⟨ho, hm⟩ := ClassTable.declared_of_findMember? hfound hk
    exact ⟨owner, m, .throughValue hr ht hfound, rfl, by rwa [hafter.trans htable], hm⟩
  | typeName ty =>
    obtain ⟨htable, rfl, receiver, owner, m, ht, rfl, hk, hfound⟩ := of_memberOfType_method hd
    obtain ⟨ho, hm⟩ := ClassTable.declared_of_findMember? hfound hk
    exact ⟨owner, m, .throughType hr ht hfound, rfl, by rwa [hafter.trans htable], hm⟩
  | method className method throughType => cases hd

/-- A method that an expression denotes was looked up by its name, and is declared by the class that
it is said to be of. -/
theorem names_of_answer {e : Expr}
    (h : s.answer e.meaning = some (.method className name throughType)) :
    ∃ owner m, e.Names s className name owner m := by
  have hcomputes := not_computes_of_method h
  cases e with
  | ident ident => exact names_ident h
  | member target ident span => exact names_member h
  | literal kind text span => exact absurd (computes_result _) hcomputes
  | call callee arguments span =>
    refine absurd (computes_bind _ fun method => ?_) hcomputes
    cases method with
    | none => exact computes_none
    | some method => exact computes_bind _ fun _ => computes_callResult _ _ _ span
  | new ident arguments span =>
    refine absurd (computes_bind _ fun ty => ?_) hcomputes
    cases ty with
    | none => exact computes_none
    | some ty =>
      apply computes_bind
      intro table
      split
      · split
        · exact computes_result ty
        · exact computes_bind _ fun _ => computes_refuse _ span
      · exact computes_refuse _ ident.span
  | unary operator operand span =>
    refine absurd (computes_bind _ fun meaning => ?_) hcomputes
    cases meaning with
    | none => exact computes_none
    | some meaning => exact computes_unaryMeaning operator meaning span
  | binary left operator right span =>
    refine absurd (computes_bind _ fun leftMeaning => computes_bind _ fun rightMeaning => ?_)
      hcomputes
    split
    · exact computes_binaryMeaning operator _ _ span
    · exact computes_none
  | assign target operator value span =>
    refine absurd (computes_bind _ fun targetMeaning => computes_bind _ fun valueMeaning => ?_)
      hcomputes
    split
    · exact computes_assignMeaning operator _ _ _ _ span
    · exact computes_none

section Call

variable {callee : Expr}

theorem findings_call {method : Meaning} (h : s.answer callee.meaning = some method)
    (arguments : List Expr) (span : Span) :
    s.findings (call callee arguments span).meaning =
      s.findings callee.meaning ++ ((s.after callee.meaning).findings (meanings arguments) ++
        (callResult method ((s.after callee.meaning).answer (meanings arguments)) callee.span span
          ((s.after callee.meaning).after (meanings arguments)).table).findings) := by
  have hresult : (callee.denote s.scopes s.table).result = some method := h
  have harguments : (s.after callee.meaning).findings (meanings arguments) =
      (denoteAll s.scopes arguments (callee.denote s.scopes s.table).table).findings :=
    (s.after callee.meaning).findings_reading fun scopes => denoteAll scopes arguments
  rw [s.findings_meaning, s.findings_meaning, harguments, denote, findings_bind, hresult]
  rfl

theorem answer_call {method : Meaning} (h : s.answer callee.meaning = some method)
    (arguments : List Expr) (span : Span) :
    s.answer (call callee arguments span).meaning =
      (callResult method ((s.after callee.meaning).answer (meanings arguments)) callee.span span
        ((s.after callee.meaning).after (meanings arguments)).table).result := by
  have hresult : (callee.denote s.scopes s.table).result = some method := h
  change ((call callee arguments span).denote s.scopes s.table).result = _
  rw [denote, result_bind, hresult]
  rfl

/-- The method that a callee has looked up is still there when the arguments have been checked. -/
theorem findMethod?_called (h : s.answer callee.meaning = some (.method className name throughType))
    (arguments : List Expr) :
    ∃ owner m, callee.LooksUp s owner m ∧
      ((s.after callee.meaning).after (meanings arguments)).table.findMethod? className name =
        some (owner, m) := by
  obtain ⟨owner, m, hlookup, rfl, ho, hm⟩ := names_of_answer h
  have hh : Honest (.faulty none) False (none ∈ ·) (denoteAll s.scopes arguments) :=
    honest_denoteAll s.scopes arguments
  have hgrows : (s.after callee.meaning).table.Grows
      ((s.after callee.meaning).after (meanings arguments)).table :=
    (hh (s.after callee.meaning).table).grows
  exact ⟨owner, m, hlookup, hgrows.findMethod?_own ho hm⟩

end Call

end Expr

/-- What a call of the method comes to on a table, and what the call itself finds wrong, given what
its arguments denote. Of the method only its parameters and its type count. -/
inductive Member.Called (m : Member) (name : String) (span : Span) (table : ClassTable)
    (arguments : List (Option Meaning)) : Option Meaning → List Finding → Prop
  | missing (absent : none ∈ arguments) : m.Called name span table arguments none []
  | matched {types : List Ty} (values : ValuesOf arguments types)
      (accepted : (Check.accepts m.parameterTypes types table).result = true) :
      m.Called name span table arguments
        ((table.typeOf? m.declaredType.text).map Meaning.result) []
  | refused (present : none ∉ arguments)
      (mismatch : ∀ types, ValuesOf arguments types →
        (Check.accepts m.parameterTypes types table).result = false) :
      m.Called name span table arguments none [⟨.argumentsDoNotMatch name, span⟩]

theorem Member.Called.problem_eq {m : Member} {name : String} {span : Span} {table : ClassTable}
    {arguments : List (Option Meaning)} {answer : Option Meaning} {own : List Finding}
    (h : m.Called name span table arguments answer own) :
    ∀ f ∈ own, f.problem = .argumentsDoNotMatch name := by
  cases h with
  | missing | matched => exact fun f hf => absurd hf List.not_mem_nil
  | refused => exact List.forall_mem_singleton.mpr rfl

namespace Check

theorem called_methodResult {table : ClassTable} {className name : String} {owner : ClassDef}
    {m : Member} (h : table.findMethod? className name = some (owner, m))
    {arguments : List (Option Meaning)} {values : List Meaning}
    (ha : arguments.mapM id = some values) (calleeSpan span : Span) :
    let outcome := methodResult className name values calleeSpan span table
    m.Called name span table arguments outcome.result outcome.findings := by
  intro outcome
  have hpresent : none ∉ arguments := by
    rw [← mapM_id_eq_none_iff, ha]
    exact Option.some_ne_none values
  have htypes {types : List Ty} (hv : ValuesOf arguments types) :
      values.mapM Meaning.valueType? = some types := by
    obtain ⟨other, hother, hmap⟩ := hv.exists_mapM
    obtain rfl := Option.some.inj (ha.symm.trans hother)
    exact hmap
  subst outcome
  rw [methodResult, classes_bind_apply, h]
  dsimp only
  cases ht : values.mapM Meaning.valueType? with
  | none =>
    refine .refused hpresent fun types hv => ?_
    cases ht.symm.trans (htypes hv)
  | some types =>
    obtain ⟨hgrows, hquiet⟩ := quiet_accepts m.parameterTypes types table
    have hvalues : ValuesOf arguments types := .of_mapM ha ht
    dsimp only
    rw [result_bind, findings_bind, hquiet]
    cases haccepted : (accepts m.parameterTypes types table).result with
    | true =>
      have hanswer : m.Called name span table arguments _ [] := .matched hvalues haccepted
      rw [← hgrows.typeOf?] at hanswer
      exact hanswer
    | false =>
      refine .refused hpresent fun other hother => ?_
      obtain rfl := Option.some.inj (ht.symm.trans (htypes hother))
      exact haccepted

theorem called_callResult {table : ClassTable} {className name : String} {owner : ClassDef}
    {m : Member} (h : table.findMethod? className name = some (owner, m)) (throughType : Bool)
    (arguments : List (Option Meaning)) (calleeSpan span : Span) :
    let outcome := callResult (.method className name throughType) arguments calleeSpan span table
    m.Called name span table arguments outcome.result outcome.findings := by
  intro outcome
  subst outcome
  cases ha : arguments.mapM id with
  | none =>
    rw [callResult, ha]
    exact .missing (mapM_id_eq_none_iff.mp ha)
  | some values =>
    rw [callResult_of_values ha]
    exact called_methodResult h ha calleeSpan span

end Check

namespace Program

/-- No check of a program meets what it guards against. No `return` is reported to stand outside of
a method; the current member of every `return` is the one that holds it, and its type is known. No
variable is declared outside of all scopes. The class of every method that an expression names has
that method among its own; it is found again when it is called, its parameters and its type decide
what the call comes to, and the call itself finds nothing wrong but the arguments. -/
theorem safeguards_unneeded (p : Program) :
    (∀ f ∈ (p.check .empty).findings, f.problem ≠ .returnOutsideFunction) ∧
    (∀ value span s, p.Reaches ⟨.statement (.ret value span), s⟩ →
      ∃ c ∈ p.classes, ∃ m ∈ c.members, p.ChecksIn c m (.ret value span) s ∧
        s.scopes.currentMember? = some m ∧
        ∃ ty, s.answer (liftM (Check.resolve m.declaredType.text)) = some ty) ∧
    (∀ before c after, p.classes = before ++ c :: after →
      ∀ scopes ∈ c.scripted.script.declarations [] (p.tableAfter before), scopes ≠ []) ∧
    (∀ (s : Site) (e : Expr) className name throughType,
      s.answer e.meaning = some (.method className name throughType) →
        ∃ owner m, e.LooksUp s owner m ∧ (s.after e.meaning).table.get? className = some owner ∧
          owner.findMethod? name = some m) ∧
    ∀ (s : Site) callee arguments span className name throughType,
      s.answer callee.meaning = some (.method className name throughType) →
        ∃ owner m own, callee.LooksUp s owner m ∧
          ((s.after callee.meaning).after (Expr.meanings arguments)).table.findMethod? className
            name = some (owner, m) ∧
          s.findings (Expr.call callee arguments span).meaning = s.findings callee.meaning ++
            ((s.after callee.meaning).findings (Expr.meanings arguments) ++ own) ∧
          (∀ f ∈ own, f.problem = .argumentsDoNotMatch name) ∧
          m.Called name span ((s.after callee.meaning).after (Expr.meanings arguments)).table
            ((s.after callee.meaning).answer (Expr.meanings arguments))
            (s.answer (Expr.call callee arguments span).meaning) own := by
  refine ⟨p.findings_not_stray, fun value span s hs => ?_, fun before c after _ => ?_,
    fun s e className name throughType h => ?_,
    fun s callee arguments span className name throughType h => ?_⟩
  · obtain ⟨c, m, hin, hm⟩ := checksIn_of_reaches hs
    obtain ⟨outer, hreached, -⟩ := hin.comes
    obtain ⟨hc, hmem⟩ := mem_of_reaches_member hreached
    exact ⟨c, hc, m, hmem, hin, hm, resolves_of_reaches hs hm⟩
  · exact c.ne_nil_of_mem_declarations [] (p.tableAfter before)
  · obtain ⟨owner, m, hlookup, rfl, ho, hm⟩ := Expr.names_of_answer h
    exact ⟨owner, m, hlookup, ClassTable.get?_of_mem ho, hm⟩
  · obtain ⟨owner, m, hlookup, hfound⟩ := Expr.findMethod?_called h arguments
    have hcalled := Check.called_callResult hfound throughType
      ((s.after callee.meaning).answer (Expr.meanings arguments)) callee.span span
    refine ⟨owner, m, _, hlookup, hfound, Expr.findings_call h arguments span, hcalled.problem_eq,
      ?_⟩
    rw [Expr.answer_call h]
    exact hcalled

def sameCall : Expr :=
  .call (.ident (.provided "Same")) [.literal .integer "1" .nowhere] .nowhere

def echoMethod (name : String) (parameters : List Parameter) (value : Expr) : Member :=
  { Member.provided "Echo" name "int" [] with
    kind := .method ⟨.provided name, parameters, some ⟨[.ret (some value) .nowhere], .nowhere⟩⟩ }

def sameMethod : Member :=
  echoMethod "Same" [⟨.provided "int", .provided "x"⟩] (.ident (.provided "x"))

def oneMethod : Member := echoMethod "One" [] sameCall

def echo : ClassDef := simpleClass "Echo" none [sameMethod, oneMethod]

end Program

end ClassLang

namespace ClassLang

open Scoped (Scripted)

attribute [local instance] Alphabet.unicode

namespace Program

def atOne : Site :=
  ((echo.entered ⟨[], tableAfter ⟨[echo]⟩ []⟩).after echo.declareNames).after
    (anyFails (Member.check echo) [sameMethod])

def insideOne : Site :=
  (((oneMethod.entered atOne).after (failsAt Parameter.check [])).push .block .code).after
    (Stmt.checkAll [])

def atSameCall : Site := insideOne.after (liftM (Check.resolve "int"))

theorem reaches_insideOne :
    (mk [echo]).Reaches ⟨.statement (.ret (some sameCall) .nowhere), insideOne⟩ := by
  have hclass : (mk [echo]).Reaches ⟨.classDef echo, [], tableAfter ⟨[echo]⟩ []⟩ := .classDef rfl
  have hbase : Site.answer ⟨[], tableAfter ⟨[echo]⟩ []⟩ (liftM echo.checkBase) = some false := by
    decide +kernel
  have hnames :
      (echo.entered ⟨[], tableAfter ⟨[echo]⟩ []⟩).answer echo.declareNames = some false := by
    decide +kernel
  have hunique : firstDuplicate? [] echo.memberKeys = none := by decide +kernel
  have hmembers : echo.members = [sameMethod] ++ oneMethod :: [] := rfl
  have htype : atOne.answer (liftM (Check.expectType oneMethod.declaredType)) =
      some (.primitive .int) := by decide +kernel
  have hstatements : [Stmt.ret (some sameCall) .nowhere] =
    [] ++ .ret (some sameCall) .nowhere :: [] := rfl
  have hone := hclass.step (.member hbase hnames hunique hmembers)
  have hbody := hone.step (.body rfl htype rfl rfl)
  exact hbody.step (.inBlock hstatements (by simp))

theorem reaches_atSameCall :
    (mk [echo]).Reaches ⟨.expression .callee (.ident (.provided "Same")), atSameCall⟩ := by
  have hcurrent : insideOne.scopes.currentMember? = some oneMethod := rfl
  have htype : insideOne.answer (liftM (Check.resolve oneMethod.declaredType.text)) =
      some (.primitive .int) := by decide +kernel
  exact (reaches_insideOne.step (.returned hcurrent htype)).step .callee

/-- The check of the program comes to the call inside the method that makes it, in sight of
`this`. -/
theorem safeguards_unneeded_in_echo :
    let p : Program := ⟨[echo]⟩
    let callee : Expr := .ident (.provided "Same")
    let arguments : List Expr := [.literal .integer "1" .nowhere]
    (p.Reaches ⟨.statement (.ret (some sameCall) .nowhere), insideOne⟩ ∧
      ∃ m ∈ echo.members, p.ChecksIn echo m (.ret (some sameCall) .nowhere) insideOne ∧
        insideOne.scopes.currentMember? = some m ∧
        ∃ ty, insideOne.answer (liftM (Check.resolve m.declaredType.text)) = some ty) ∧
    p.classes = [] ++ echo :: [] ∧
    (echo.scripted.script.declarations [] (p.tableAfter [])).isEmpty = false ∧
    (∀ scopes ∈ echo.scripted.script.declarations [] (p.tableAfter []), scopes ≠ []) ∧
    p.Reaches ⟨.expression .callee callee, atSameCall⟩ ∧
    atSameCall.scopes.lookup? "this" = some echo.this ∧
    atSameCall.answer callee.meaning = some (.method "Echo" "Same" false) ∧
    (∃ owner m, callee.LooksUp atSameCall owner m ∧ owner.findMethod? "Same" = some m) ∧
    let after := (atSameCall.after callee.meaning).after (Expr.meanings arguments)
    ∃ owner m own, callee.LooksUp atSameCall owner m ∧
      after.table.findMethod? "Echo" "Same" = some (owner, m) ∧
      m.Called "Same" .nowhere after.table
        ((atSameCall.after callee.meaning).answer (Expr.meanings arguments))
        (atSameCall.answer sameCall.meaning) own ∧
      atSameCall.answer sameCall.meaning = some (.result (.primitive .int)) := by
  intro p callee arguments
  obtain ⟨-, hreturn, hdeclare, hmethod, hcall⟩ := p.safeguards_unneeded
  obtain ⟨c, hc, hm⟩ := hreturn _ _ _ reaches_insideOne
  obtain rfl := List.mem_singleton.mp hc
  have hanswer : atSameCall.answer callee.meaning = some (.method "Echo" "Same" false) := by
    decide +kernel
  obtain ⟨owner, n, hlookup, -, hn⟩ := hmethod atSameCall callee _ _ _ hanswer
  obtain ⟨found, r, own, hfound, hr, -, -, hcalled⟩ :=
    hcall atSameCall callee arguments .nowhere _ _ _ hanswer
  exact ⟨⟨reaches_insideOne, hm⟩, rfl, by decide +kernel, hdeclare [] echo [] rfl,
    reaches_atSameCall, by decide +kernel, hanswer, ⟨owner, n, hlookup, hn⟩,
    found, r, own, hfound, hr, hcalled, by decide +kernel⟩

end Program

end ClassLang
