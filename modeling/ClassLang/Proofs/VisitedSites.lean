import ClassLang.Proofs.DeclaredTypes
import ClassLang.Proofs.Visits

namespace ClassLang

open Scoped (Scripted)
open Scoped.Scripted

theorem Scoped.mem_live_of_declare {v : Variable} {span : Span} {s : Site}
    (h : s.answer (declare v span) = false) : v ∈ (s.after (declare v span)).scopes.live := by
  obtain ⟨scopes, table⟩ := s
  unfold Site.answer declare at h
  unfold Site.after declare
  cases hd : scopes.declare v with
  | error problem =>
    rw [hd] at h
    cases h
  | ok inner =>
    obtain rfl := ScopeStack.eq_extend_of_declare hd
    cases scopes with
    | nil =>
      unfold ScopeStack.declare at hd
      split at hd <;> cases hd
    | cons s outer => simp [ScopeStack.live, ScopeStack.extend]

namespace Site

variable {s : Site} {α : Type} {c : Scoped α}

theorem answer_bind {β : Type} (s : Site) (c : Scoped β) (f : β → Scoped α) :
    s.answer (c >>= f) = (s.after c).answer (f (s.answer c)) := rfl

theorem after_bind {β : Type} (s : Site) (c : Scoped β) (f : β → Scoped α) :
    s.after (c >>= f) = (s.after c).after (f (s.answer c)) := rfl

theorem scopes_after (s : Site) (script : Scripted c) :
    ∃ added, (s.after c).scopes = s.scopes.extend added := by
  obtain ⟨added, h⟩ := script.script.scopes_run s.scopes s.table
  rw [script.run_script] at h
  exact ⟨added, h⟩

theorem currentMember?_after (s : Site) (script : Scripted c) :
    (s.after c).scopes.currentMember? = s.scopes.currentMember? := by
  obtain ⟨added, h⟩ := s.scopes_after script
  rw [h, ScopeStack.currentMember?_extend]

theorem distinct_after (script : Scripted c) (h : s.scopes.Distinct) :
    (s.after c).scopes.Distinct := by
  have hm := script.script.distinct_moments h s.table _
    (script.script.scopes_run_mem_moments s.scopes s.table)
  rwa [script.run_script] at hm

end Site

variable [Alphabet]

/-- What may open a scope inside a class: a statement, or a member whose declared type stands for
something. -/
def ScopeOwner.Inside (start : ClassTable) : ScopeOwner → Prop
  | .classDef _ => False
  | .member m => ¬ start.Dangling m
  | .code => True

/-- The second site is reached from the first without a change of class: by entering scopes, and by
checks that declare variables of types with the property only. -/
inductive Site.Advances (start : ClassTable) (P : Ty → Prop) (s : Site) : Site → Prop
  | refl : Advances start P s s
  | push {t : Site} (kind : ScopeKind) {owner : ScopeOwner} (advanced : Advances start P s t)
      (inside : owner.Inside start) : Advances start P s (t.push kind owner)
  | after {t : Site} {α : Type} {c : Scoped α} (advanced : Advances start P s t)
      (script : Scripted c) (declares : script.Declares start P) : Advances start P s (t.after c)

structure Site.Typed (start : ClassTable) (P : Ty → Prop) (s : Site) : Prop where
  grows : start.Grows s.table
  scopes : s.scopes.Typed P

namespace Site

variable {start : ClassTable} {P : Ty → Prop} {s t : Site} {α : Type} {c : Scoped α}

theorem Typed.after (h : s.Typed start P) {script : Scripted c} (hd : script.Declares start P) :
    (s.after c).Typed start P := by
  have hg := Script.Declares.grows hd h.grows s.scopes
  have hs := Script.Declares.typed_moments hd h.grows h.scopes _
    (script.script.scopes_run_mem_moments s.scopes s.table)
  rw [script.run_script] at hg hs
  exact ⟨hg, hs⟩

theorem Typed.advance (h : s.Typed start P) (ha : s.Advances start P t) : t.Typed start P := by
  induction ha with
  | refl => exact h
  | push kind advanced inside ih => exact ⟨ih.grows, ih.scopes.push kind _⟩
  | after advanced script declares ih => exact ih.after declares

namespace Advances

theorem trans {u : Site} (h : s.Advances start P t) (k : t.Advances start P u) :
    s.Advances start P u := by
  induction k with
  | refl => exact h
  | push kind advanced inside ih => exact ih.push kind inside
  | after advanced script declares ih => exact ih.after script declares

theorem live_subset (h : s.Advances start P t) : s.scopes.live ⊆ t.scopes.live := by
  induction h with
  | refl => exact List.Subset.refl _
  | push kind advanced inside ih => exact ih
  | after advanced script declares ih =>
    obtain ⟨added, he⟩ := scopes_after _ script
    rw [he]
    exact List.Subset.trans ih (ScopeStack.live_subset_extend _ added)

theorem distinct (h : s.Advances start P t) (hd : s.scopes.Distinct) : t.scopes.Distinct := by
  induction h with
  | refl => exact hd
  | push kind advanced inside ih => exact ih.push kind _
  | after advanced script declares ih => exact distinct_after script ih

theorem currentClass? (h : s.Advances start P t) :
    t.scopes.currentClass? = s.scopes.currentClass? := by
  induction h with
  | refl => rfl
  | @push t kind owner advanced inside ih =>
    cases owner with
    | classDef c => exact inside.elim
    | member m | code => exact ih
  | after advanced script declares ih =>
    obtain ⟨added, he⟩ := scopes_after _ script
    rw [he, ScopeStack.currentClass?_extend, ih]

theorem not_dangling (h : s.Advances start P t)
    (hs : ∀ m ∈ s.scopes.currentMember?, ¬ start.Dangling m) :
    ∀ m ∈ t.scopes.currentMember?, ¬ start.Dangling m := by
  induction h with
  | refl => exact hs
  | @push t kind owner advanced inside ih =>
    cases owner with
    | classDef c => exact inside.elim
    | member m =>
      rintro _ ⟨⟩
      exact inside
    | code => exact ih
  | after advanced script declares ih => rwa [currentMember?_after _ script]

end Advances

end Site

namespace Leads

variable {start : ClassTable} {P : Ty → Prop} {s : Site} {w : Visit}

theorem advances_lift {α : Type} {t : Site} {c : Check α} {fails : α → Prop}
    (h : s.Advances start P t) (hc : c.Honest .never False fails) :
    s.Advances start P (t.after (liftM c : Scoped α)) := h.after (.lift c) (declares_lift hc)

theorem advances_condition {t : Site} (h : s.Advances start P t) (e : Expr) :
    s.Advances start P (t.after (Scoped.reading e.checkCondition)) :=
  h.after (.reading e.checkCondition) (Stmt.declares_condition e)

theorem advances_meaning {t : Site} (h : s.Advances start P t) (e : Expr) :
    s.Advances start P (t.after e.meaning) :=
  h.after (.reading fun scopes => e.denote scopes)
    (declares_reading fun scopes => e.honest_denote scopes)

theorem advances_meanings {t : Site} (h : s.Advances start P t) (es : List Expr) :
    s.Advances start P (t.after (Expr.meanings es)) :=
  h.after (.reading fun scopes => Expr.denoteAll scopes es)
    (declares_reading fun scopes => Expr.honest_denoteAll scopes es)

theorem advances_code {t : Site} (h : s.Advances start P t) (kind : ScopeKind) :
    s.Advances start P (t.push kind .code) := h.push kind trivial

theorem advances_member {c : ClassDef} {m : Member} (ha : start.Admits P)
    (hs : start.Grows s.table) (h : Leads ⟨.member c m, s⟩ w) : s.Advances start P w.site := by
  cases h with
  | fieldValue kind modifier type items =>
    apply (advances_lift .refl (Check.honest_expectValueType m.declaredType)).after (.reading _)
    exact declares_reading fun scopes =>
      Check.honest_anyFails fun e _ => e.honest_checkInitializer scopes _
  | @body _ _ _ r returnType _ kind type parameters present =>
    have hm : ¬ start.Dangling m := by
      have ht := ((Check.yields_expectType m.declaredType) s.table hs).2 returnType type
      rw [ClassTable.Dangling, ht]
      exact Option.some_ne_none returnType
    have hentered : s.Advances start P (m.entered s) :=
      (advances_lift .refl (Check.honest_expectType m.declaredType)).push .function hm
    exact hentered.after (.failsAt Parameter.scripted r.parameters)
      (declares_failsAt (Parameter.declares ha) r.parameters)

theorem advances_init (ha : start.Admits P) (init : Option ForInit) :
    s.Advances start P ((s.push .loop .code).after (checkOptional ForInit.check init)) :=
  (advances_code .refl .loop).after (.checkOptional ForInit.scripted init)
    (declares_checkOptional (ForInit.declares ha) init)

theorem advances_head (ha : start.Admits P) (init : Option ForInit) (condition : Option Expr) :
    s.Advances start P (((s.push .loop .code).after (checkOptional ForInit.check init)).after
      (checkOptional (fun e => Scoped.reading e.checkCondition) condition)) :=
  (advances_init ha init).after (.checkOptional (fun e => .reading e.checkCondition) condition)
    (declares_checkOptional Stmt.declares_condition condition)

theorem advances_statement {t : Stmt} (ha : start.Admits P) (hs : start.Grows s.table)
    (h : Leads ⟨.statement t, s⟩ w) : s.Advances start P w.site := by
  cases h with
  | @inBlock _ before _ _ _ _ items live =>
    exact (advances_code .refl .block).after (Stmt.scriptedAll before) (Stmt.declaresAll before ha)
  | @returned _ _ _ m _ current type =>
    exact advances_lift .refl (Check.honest_quiet (Check.quiet_resolve m.declaredType.text))
  | @declarator d _ ty before _ _ type items =>
    have hty : P ty := ((ha.yields_expectValueType d.typeName) s.table hs).2 ty type
    apply (advances_lift .refl (Check.honest_expectValueType d.typeName)).after
      (.anyFails (Declarator.scripted ty) before)
    exact declares_anyFails fun x _ => x.declares hty
  | whileCondition | ifCondition | choiceCondition | expression => exact .refl
  | whileBody | ifThen | choiceThen => exact advances_code (advances_condition .refl _) _
  | doBody | forDeclaration | forInit => exact advances_code .refl _
  | @doCondition body _ _ _ =>
    exact Site.Advances.refl.after (.within body.scripted) (declares_within (body.declares ha))
  | @choiceElse condition thenBranch _ _ _ =>
    apply advances_code
    exact (advances_condition .refl condition).after (.within thenBranch.scripted)
      (declares_within (thenBranch.declares ha))
  | forCondition => exact advances_init ha _
  | forStep => exact advances_head ha _ _
  | @forBody init condition step _ _ _ =>
    exact (advances_head ha init condition).after
      (.checkOptional (fun e => .reading e.checkDenotes) step)
      (declares_checkOptional Stmt.declares_denotes step)

theorem advances_expression {use : Use} {e : Expr} (h : Leads ⟨.expression use e, s⟩ w) :
    s.Advances start P w.site := by
  cases h with
  | receiver | callee | unaryOperand | leftOperand | target => exact .refl
  | rightOperand | assigned => exact advances_meaning .refl _
  | argument called items => exact advances_meanings (advances_meaning .refl _) _
  | @newArgument _ className _ _ _ _ _ _ _ type instantiable items =>
    exact advances_meanings (advances_lift .refl (Check.honest_expectType className)) _

theorem advances {v : Visit} (hv : ∀ c, v.node ≠ .classDef c) (ha : start.Admits P)
    (hs : start.Grows v.site.table) (h : Leads v w) : v.site.Advances start P w.site := by
  obtain ⟨node, s⟩ := v
  cases node with
  | classDef c => exact absurd rfl (hv c)
  | member c m => exact advances_member ha hs h
  | statement t => exact advances_statement ha hs h
  | declarator ty d =>
    cases h
    exact .refl
  | expression use e => exact advances_expression h

end Leads

namespace ClassDef

variable {start : ClassTable} {P : Ty → Prop} {c : ClassDef} {s : Site}

def this (c : ClassDef) : Variable := ⟨"this", .classRef c.name, false⟩

theorem this_mem_live {inheritedFailed : Bool}
    (h : s.answer c.declareNames = some inheritedFailed) :
    c.this ∈ (s.after c.declareNames).scopes.live := by
  rw [declareNames, Site.answer_bind, Site.answer_bind] at h
  rw [declareNames, Site.after_bind, Site.after_bind]
  generalize s.after c.declareInheritedFields = inherited at h ⊢
  cases hd : inherited.answer c.declareThis with
  | true =>
    rw [hd] at h
    cases h
  | false =>
    have hlive : c.this ∈ (inherited.after c.declareThis).scopes.live :=
      Scoped.mem_live_of_declare hd
    obtain ⟨added, he⟩ := (inherited.after c.declareThis).scopes_after
      (.failsAt scriptedOwn c.fields)
    have hown := ScopeStack.live_subset_extend _ added hlive
    rw [← he] at hown
    rw [if_neg Bool.false_ne_true, Site.after_bind]
    split <;> exact hown

end ClassDef

theorem Leads.advances_classDef {start : ClassTable} {P : Ty → Prop} {c : ClassDef} {s : Site}
    {w : Visit} (ha : start.Admits P) (this : P (.classRef c.name)) (h : Leads ⟨.classDef c, s⟩ w) :
    (c.entered s).Advances start P w.site ∧ c.this ∈ w.site.scopes.live := by
  cases h with
  | @member _ _ before _ _ _ _ base names unique items =>
    have hbefore : ((c.entered s).after c.declareNames).Advances start P
        (((c.entered s).after c.declareNames).after (anyFails (Member.check c) before)) :=
      Site.Advances.refl.after (.anyFails (Member.scripted c) before)
        (declares_anyFails fun m _ => m.declares c ha)
    have hnames : (c.entered s).Advances start P ((c.entered s).after c.declareNames) :=
      Site.Advances.refl.after c.scriptedNames (c.declares_names ha this)
    exact ⟨hnames.trans hbefore, hbefore.live_subset (ClassDef.this_mem_live names)⟩

namespace Program

variable {p : Program} {v w : Visit}

theorem exists_of_reaches_classDef {c : ClassDef} {s : Site} (h : p.Reaches ⟨.classDef c, s⟩) :
    ∃ before after, p.classes = before ++ c :: after ∧ s = ⟨[], p.tableAfter before⟩ := by
  generalize hv : (⟨.classDef c, s⟩ : Visit) = v at h
  cases h with
  | @classDef before after _ items =>
    cases hv
    exact ⟨before, after, items, rfl⟩
  | step reached leads =>
    subst hv
    cases leads

theorem mem_of_reaches_classDef {c : ClassDef} {s : Site} (h : p.Reaches ⟨.classDef c, s⟩) :
    c ∈ p.classes ∧ s.scopes = [] := by
  obtain ⟨before, after, items, rfl⟩ := exists_of_reaches_classDef h
  exact ⟨by simp [items], rfl⟩

theorem exists_of_reaches_member {c : ClassDef} {m : Member} {s : Site}
    (h : p.Reaches ⟨.member c m, s⟩) :
    ∃ outer, p.Reaches ⟨.classDef c, outer⟩ ∧ Leads ⟨.classDef c, outer⟩ ⟨.member c m, s⟩ := by
  generalize hv : (⟨.member c m, s⟩ : Visit) = v at h
  cases h with
  | classDef items => cases hv
  | step reached leads =>
    subst hv
    cases leads with
    | member base names unique items => exact ⟨_, reached, .member base names unique items⟩

theorem mem_of_reaches_member {c : ClassDef} {m : Member} {s : Site}
    (h : p.Reaches ⟨.member c m, s⟩) : c ∈ p.classes ∧ m ∈ c.members := by
  obtain ⟨outer, reached, leads⟩ := exists_of_reaches_member h
  cases leads with
  | member base names unique items => exact ⟨(mem_of_reaches_classDef reached).1, by simp [items]⟩

/-- The way from one visit to the next starts in the scope of a class of the program, or it stays in
the class where it is. -/
theorem advances_of_leads {P : Ty → Prop} (ha : p.registered.Admits P)
    (this : ∀ c ∈ p.classes, P (.classRef c.name)) (reached : p.Reaches v)
    (hs : p.registered.Grows v.site.table) (leads : Leads v w) :
    (∃ c ∈ p.classes, v.site.scopes = [] ∧ (c.entered v.site).Advances p.registered P w.site ∧
      c.this ∈ w.site.scopes.live) ∨
    ((∀ c, v.node ≠ .classDef c) ∧ v.site.Advances p.registered P w.site) := by
  obtain ⟨node, s⟩ := v
  cases node with
  | classDef c =>
    obtain ⟨hc, hn⟩ := mem_of_reaches_classDef reached
    obtain ⟨hw, hlive⟩ := leads.advances_classDef ha (this c hc)
    exact .inl ⟨c, hc, hn, hw, hlive⟩
  | member c m => exact .inr ⟨by simp, leads.advances (by simp) ha hs⟩
  | statement t => exact .inr ⟨by simp, leads.advances (by simp) ha hs⟩
  | declarator ty d => exact .inr ⟨by simp, leads.advances (by simp) ha hs⟩
  | expression use e => exact .inr ⟨by simp, leads.advances (by simp) ha hs⟩

/-- What holds of all types that a program may declare variables of, and of those of its classes,
holds of all variables in sight of a visit. -/
theorem typed_of_reaches {P : Ty → Prop} (ha : p.registered.Admits P)
    (this : ∀ c ∈ p.classes, P (.classRef c.name)) (h : p.Reaches v) :
    v.site.Typed p.registered P := by
  induction h with
  | @classDef before after c items =>
    exact ⟨p.grows_tableAfter before, by simp [ScopeStack.Typed, ScopeStack.live]⟩
  | step reached leads ih =>
    obtain ⟨c, -, -, hw, -⟩ | ⟨-, hw⟩ := advances_of_leads ha this reached ih.grows leads
    · have hbase := ih.after (declares_lift c.honest_checkBase)
      have hentered : (c.entered _).Typed p.registered P :=
        ⟨hbase.grows, hbase.scopes.push .classBody (.classDef c)⟩
      exact hentered.advance hw
    · exact ih.advance hw

theorem admits_any (p : Program) : p.registered.Admits fun _ => True :=
  ⟨fun _ _ _ _ => trivial, fun _ _ _ _ _ _ => trivial⟩

theorem grows_of_reaches (h : p.Reaches v) : p.registered.Grows v.site.table :=
  (typed_of_reaches p.admits_any (fun _ _ => trivial) h).grows

/-- Every visit but that of a class itself takes place in the scopes of a class of the program, with
`this` in sight. -/
theorem inside_of_reaches (h : p.Reaches v) (hv : ∀ c, v.node ≠ .classDef c) :
    ∃ c ∈ p.classes, v.site.scopes.currentClass? = some c ∧ v.site.scopes.Distinct ∧
      c.this ∈ v.site.scopes.live := by
  induction h with
  | classDef items => exact absurd rfl (hv _)
  | @step v w reached leads ih =>
    obtain ⟨c, hc, hn, hw, hlive⟩ | ⟨hn, hw⟩ :=
      advances_of_leads p.admits_any (fun _ _ => trivial) reached (grows_of_reaches reached) leads
    · have hentered : (c.entered v.site).scopes = [⟨.classBody, .classDef c, []⟩] :=
        congrArg (fun scopes => ScopeStack.push scopes .classBody (.classDef c)) hn
      refine ⟨c, hc, ?_, hw.distinct ?_, hlive⟩
      · rw [hw.currentClass?, hentered]
        rfl
      · rw [hentered]
        exact List.nodup_nil
    · obtain ⟨c, hc, hcurrent, hdistinct, hlive⟩ := ih hn
      exact ⟨c, hc, hw.currentClass?.trans hcurrent, hw.distinct hdistinct, hw.live_subset hlive⟩

theorem not_dangling_of_reaches (h : p.Reaches v) :
    ∀ m ∈ v.site.scopes.currentMember?, ¬ p.registered.Dangling m := by
  induction h with
  | classDef items => simp [ScopeStack.currentMember?]
  | step reached leads ih =>
    obtain ⟨c, -, -, hw, -⟩ | ⟨-, hw⟩ :=
      advances_of_leads p.admits_any (fun _ _ => trivial) reached (grows_of_reaches reached) leads
    · exact hw.not_dangling ih
    · exact hw.not_dangling ih

end Program

end ClassLang
