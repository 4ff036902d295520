import ClassLang.Proofs.CleanVisits

namespace ClassLang

variable [Alphabet]

namespace Check

variable {α β : Type} {table start : ClassTable}

/-- All that the check does to the classes is to resolve names. -/
def Growing (c : Check α) : Prop := ∀ table : ClassTable, table.Grows (c table).table

theorem growing_pure (a : α) : Growing (pure a) := fun table => .refl table

theorem growing_of_honest {excuse : Excuse} {before : Prop} {fails : α → Prop} {c : Check α}
    (h : Honest excuse before fails c) : Growing c := fun table => (h table).grows

theorem growing_failIf (condition : Bool) (problem : Problem) (span : Span) :
    Growing (failIf condition problem span) := by
  intro table
  rw [table_failIf]
  exact .refl table

theorem growing_bind {c : Check α} {f : α → Check β} (hc : Growing c) (hf : ∀ a, Growing (f a)) :
    Growing (c >>= f) := fun table => (hc table).trans (hf (c table).result (c table).table)

theorem growing_some {γ : Type} {f : Option α → Check (Option γ)} (hnone : f none = pure none)
    (hsome : ∀ a, Growing (f (some a))) (a : Option α) : Growing (f a) := by
  cases a with
  | none =>
    rw [hnone]
    exact growing_pure none
  | some a => exact hsome a

theorem grows_first {c : Check α} {f : α → Check β} (h : start.Grows (c table).table)
    (hf : ∀ a, Growing (f a)) : start.Grows ((c >>= f) table).table :=
  h.trans (hf (c table).result (c table).table)

theorem grows_next {c : Check α} {f : α → Check β} {a : α} (ha : (c table).result = a)
    (h : start.Grows (f a (c table).table).table) : start.Grows ((c >>= f) table).table := by
  subst ha
  exact h

theorem grows_anyFails {excuse : Excuse} {f : α → Check Bool}
    (hf : ∀ a, Honest excuse False (· = true) (f a)) (before : List α) (a : α) (after : List α)
    (table : ClassTable) :
    (f a (anyFails f before table).table).table.Grows
      (anyFails f (before ++ a :: after) table).table := by
  induction before generalizing table with
  | nil =>
    have hafter : Growing (anyFails f after) :=
      growing_of_honest (honest_anyFails fun b _ => hf b)
    exact grows_first (.refl _) fun _ => growing_bind hafter fun _ => growing_pure _
  | cons b before ih =>
    exact grows_next rfl (grows_first (ih (f b table).table) fun _ => growing_pure _)

end Check

namespace Scoped

variable {α β : Type} {s : Site} {start : ClassTable}

def Growing (c : Scoped α) : Prop := ∀ s : Site, s.table.Grows (s.after c).table

theorem growing_pure (a : α) : Growing (pure a) := fun s => .refl s.table

theorem growing_of_honest {excuse : Option Member → Excuse} {before : Prop} {fails : α → Prop}
    {c : Scoped α} (h : Honest excuse before fails c) : Growing c :=
  fun s => (h.check s.scopes s.table).grows

theorem growing_bind {c : Scoped α} {f : α → Scoped β} (hc : Growing c)
    (hf : ∀ a, Growing (f a)) : Growing (c >>= f) :=
  fun s => (hc s).trans (hf (s.answer c) (s.after c))

theorem growing_last {c : Scoped α} (h : Growing c) (g : α → β) :
    Growing (c >>= fun a => pure (g a)) := growing_bind h fun _ => growing_pure _

theorem growing_within {c : Scoped α} (h : Growing c) (kind : ScopeKind) (owner : ScopeOwner) :
    Growing (within kind owner c) := fun s => h (s.push kind owner)

theorem growing_reading {c : ScopeStack → Check α} (h : ∀ scopes, (c scopes).Growing) :
    Growing (reading c) := fun s => h s.scopes s.table

theorem growing_lift {c : Check α} (h : c.Growing) : Growing (liftM c : Scoped α) :=
  growing_reading fun _ => h

theorem growing_checkOptional {f : α → Scoped Bool} (h : ∀ a, Growing (f a)) (item : Option α) :
    Growing (checkOptional f item) := by
  cases item with
  | none => exact growing_pure false
  | some a => exact h a

theorem grows_first {c : Scoped α} {f : α → Scoped β} (h : start.Grows (s.after c).table)
    (hf : ∀ a, Growing (f a)) : start.Grows (s.after (c >>= f)).table :=
  h.trans (hf (s.answer c) (s.after c))

theorem grows_next {c : Scoped α} {f : α → Scoped β} {a : α} (ha : s.answer c = a)
    (h : start.Grows ((s.after c).after (f a)).table) :
    start.Grows (s.after (c >>= f)).table := by
  subst ha
  exact h

theorem grows_within {kind : ScopeKind} {owner : ScopeOwner} {c : Scoped α}
    (h : start.Grows ((s.push kind owner).after c).table) :
    start.Grows (s.after (within kind owner c)).table := h

theorem grows_anyFails {excuse : Option Member → Excuse} {f : α → Scoped Bool}
    (hf : ∀ a, Honest excuse False (· = true) (f a)) (before : List α) (a : α) (after : List α)
    (s : Site) :
    ((s.after (anyFails f before)).after (f a)).table.Grows
      (s.after (anyFails f (before ++ a :: after))).table := by
  induction before generalizing s with
  | nil =>
    have hafter : Growing (anyFails f after) :=
      growing_of_honest (honest_anyFails fun b _ => hf b)
    exact grows_first (.refl _) fun _ => growing_bind hafter fun _ => growing_pure _
  | cons b before ih =>
    exact grows_next rfl (grows_first (ih (s.after (f b))) fun _ => growing_pure _)

end Scoped

omit [Alphabet] in
theorem Site.table_reading {α : Type} (s : Site) (c : ScopeStack → Check α) :
    (s.after (Scoped.reading c)).table = (c s.scopes s.table).table := rfl

theorem Site.table_meaning (s : Site) (e : Expr) :
    (s.after e.meaning).table = (e.denote s.scopes s.table).table := rfl

def Visit.tableAfter : Visit → ClassTable
  | ⟨.classDef c, s⟩ => (s.after c.check).table
  | ⟨.member c m, s⟩ => (s.after (m.check c)).table
  | ⟨.statement t, s⟩ => (s.after t.check).table
  | ⟨.declarator ty d, s⟩ => (s.after (d.check ty)).table
  | ⟨.expression _ e, s⟩ => (s.after e.meaning).table

namespace Expr

variable (e : Expr) (scopes : ScopeStack) (table : ClassTable)

theorem growing_denote : (e.denote scopes).Growing :=
  fun table => (@honest_denote _ none scopes e table).grows

theorem growing_denoteAll (es : List Expr) : (denoteAll scopes es).Growing :=
  fun table => (@honest_denoteAll _ none scopes es table).grows

theorem grows_denoteAll (before after : List Expr) :
    (e.denote scopes (denoteAll scopes before table).table).table.Grows
      (denoteAll scopes (before ++ e :: after) table).table := by
  induction before generalizing table with
  | nil =>
    exact Check.grows_first (.refl _) fun _ =>
      Check.growing_bind (growing_denoteAll scopes after) fun _ => Check.growing_pure _
  | cons b before ih =>
    exact Check.grows_next rfl
      (Check.grows_first (ih (b.denote scopes table).table) fun _ => Check.growing_pure _)

theorem grows_binary (left right : Expr) (operator : String) (span : Span) :
    (right.denote scopes (left.denote scopes table).table).table.Grows
      ((binary left operator right span).denote scopes table).table := by
  rw [denote]
  refine Check.grows_next rfl (Check.grows_first (.refl _) fun rightMeaning => ?_)
  cases (left.denote scopes table).result with
  | none => exact Check.growing_pure none
  | some leftMeaning =>
    cases rightMeaning with
    | none => exact Check.growing_pure none
    | some rightMeaning =>
      exact Check.growing_of_honest
        (@Check.honest_binaryMeaning _ .never operator leftMeaning rightMeaning span)

theorem grows_assign (target value : Expr) (operator : String) (span : Span) :
    (value.denote scopes (target.denote scopes table).table).table.Grows
      ((assign target operator value span).denote scopes table).table := by
  rw [denote]
  refine Check.grows_next rfl (Check.grows_first (.refl _) fun valueMeaning => ?_)
  cases (target.denote scopes table).result with
  | none => exact Check.growing_pure none
  | some targetMeaning =>
    cases valueMeaning with
    | none => exact Check.growing_pure none
    | some valueMeaning =>
      exact Check.growing_of_honest
        (@Check.honest_assignMeaning _ .never operator targetMeaning valueMeaning _ _ span)

end Expr

namespace Expr

theorem growing_checkCondition (e : Expr) : Scoped.Growing (Scoped.reading e.checkCondition) :=
  Scoped.growing_reading fun scopes table => (@honest_checkCondition _ none scopes e table).grows

theorem growing_checkDenotes (e : Expr) : Scoped.Growing (Scoped.reading e.checkDenotes) :=
  Scoped.growing_reading fun scopes table => (@honest_checkDenotes _ none scopes e table).grows

variable {s : Site}

theorem grows_reading {α : Type} {e : Expr} {f : ScopeStack → Option Meaning → Check α}
    (hf : ∀ scopes meaning, (f scopes meaning).Growing) :
    (s.after e.meaning).table.Grows
      (s.after (Scoped.reading fun scopes => e.denote scopes >>= f scopes)).table :=
  Check.grows_first (.refl _) (hf s.scopes)

theorem grows_checkCondition (e : Expr) :
    (s.after e.meaning).table.Grows (s.after (Scoped.reading e.checkCondition)).table := by
  refine grows_reading fun scopes meaning => ?_
  cases meaning with
  | none => exact Check.growing_pure true
  | some meaning => exact Check.growing_failIf _ _ _

theorem grows_checkDenotes (e : Expr) :
    (s.after e.meaning).table.Grows (s.after (Scoped.reading e.checkDenotes)).table :=
  grows_reading fun _ _ => Check.growing_pure _

theorem grows_checkInitializer (e : Expr) (ty : Ty) :
    (s.after e.meaning).table.Grows
      (s.after (Scoped.reading fun scopes => e.checkInitializer scopes ty)).table := by
  refine grows_reading fun scopes meaning => ?_
  cases meaning with
  | none => exact Check.growing_pure true
  | some meaning =>
    cases meaning with
    | value found assignable =>
      exact Check.growing_bind (.refl ·) fun _ => Check.growing_failIf _ _ _
    | typeName found => exact (.refl ·)
    | method className name throughType => exact (.refl ·)

end Expr

theorem Stmt.growing_check (t : Stmt) : Scoped.Growing t.check :=
  Scoped.growing_of_honest t.honest_check

theorem Stmt.grows_checkAll {before : List Stmt} (live : ∀ u ∈ before, u.alwaysReturns = false)
    (t : Stmt) (after : List Stmt) (s : Site) :
    ((s.after (checkAll before)).after t.check).table.Grows
      (s.after (checkAll (before ++ t :: after))).table := by
  induction before generalizing s with
  | nil =>
    refine Scoped.grows_first (.refl _) fun failed => ?_
    have hrest : Scoped.Growing (checkAll after) :=
      Scoped.growing_of_honest (honest_checkAll after)
    split
    · split
      · exact Scoped.growing_pure failed
      · exact (.refl ·.table)
    · exact Scoped.growing_last hrest _
  | cons b before ih =>
    obtain ⟨hb, hrest⟩ := List.forall_mem_cons.mp live
    have hi := ih hrest (s.after b.check)
    rw [List.cons_append, checkAll, checkAll, hb]
    exact Scoped.grows_next rfl (Scoped.grows_first hi fun _ => Scoped.growing_pure _)

theorem Routine.grows_body {m : Member} {returnType : Ty} {r : Routine} {b : Block} {s : Site}
    (parameters :
      (s.push .function (.member m)).answer (failsAt Parameter.check r.parameters) = false)
    (present : r.body = some b) :
    (((s.push .function (.member m)).after (failsAt Parameter.check r.parameters)).after
        b.toStmt.check).table.Grows (s.after (r.check m returnType)).table := by
  refine Scoped.grows_within (Scoped.grows_next parameters ?_)
  rw [present]
  exact Scoped.grows_first (.refl _) fun _ =>
    Scoped.growing_last (Scoped.growing_lift (Check.growing_failIf _ _ _)) _

namespace Leads

open Scoped

variable {w : Visit} {s : Site}

theorem grows_statement {t : Stmt} (h : Leads ⟨.statement t, s⟩ w) :
    w.tableAfter.Grows (s.after t.check).table := by
  cases h with
  | inBlock items live =>
    rw [items]
    exact Stmt.grows_checkAll live _ _ _
  | @returned e span _ m expected current type =>
    rw [Visit.tableAfter, Site.table_meaning, Stmt.check, s.table_reading, Stmt.checkReturn,
      current]
    refine Check.grows_next type (Check.grows_first (.refl _) fun meaning => ?_)
    cases meaning with
    | none => exact Check.growing_pure true
    | some found => exact Check.growing_bind (.refl ·) fun _ => Check.growing_failIf _ _ _
  | @declarator _ _ ty before after x type items =>
    refine grows_next type ?_
    rw [items]
    exact grows_anyFails (Declarator.honest_check ty) before x after _
  | @whileCondition condition body _ _ =>
    exact grows_first condition.grows_checkCondition fun _ =>
      growing_last (growing_within body.growing_check _ _) _
  | @ifCondition condition thenBranch _ _ =>
    exact grows_first condition.grows_checkCondition fun _ =>
      growing_last (growing_within thenBranch.growing_check _ _) _
  | @choiceCondition condition thenBranch elseBranch _ _ =>
    exact grows_first condition.grows_checkCondition fun _ =>
      growing_bind (growing_within thenBranch.growing_check _ _) fun _ =>
        growing_last (growing_within elseBranch.growing_check _ _) _
  | whileBody | ifThen => exact grows_next rfl (grows_first (.refl _) fun _ => growing_pure _)
  | @choiceThen _ _ elseBranch _ _ =>
    exact grows_next rfl (grows_first (.refl _) fun _ =>
      growing_last (growing_within elseBranch.growing_check _ _) _)
  | choiceElse =>
    exact grows_next rfl (grows_next rfl (grows_first (.refl _) fun _ => growing_pure _))
  | @doBody _ condition _ _ =>
    exact grows_first (.refl _) fun _ => growing_last condition.growing_checkCondition _
  | @doCondition _ condition _ _ =>
    exact grows_next rfl (grows_first condition.grows_checkCondition fun _ => growing_pure _)
  | @forDeclaration _ condition step body _ _ =>
    exact grows_within (grows_first (.refl _) fun _ =>
      growing_bind (growing_checkOptional Expr.growing_checkCondition condition) fun _ =>
        growing_bind (growing_checkOptional Expr.growing_checkDenotes step) fun _ =>
          growing_last body.growing_check _)
  | @forInit e condition step body _ _ =>
    exact grows_within (grows_first e.grows_checkDenotes fun _ =>
      growing_bind (growing_checkOptional Expr.growing_checkCondition condition) fun _ =>
        growing_bind (growing_checkOptional Expr.growing_checkDenotes step) fun _ =>
          growing_last body.growing_check _)
  | @forCondition _ e step body _ _ =>
    exact grows_within (grows_next rfl (grows_first e.grows_checkCondition fun _ =>
      growing_bind (growing_checkOptional Expr.growing_checkDenotes step) fun _ =>
        growing_last body.growing_check _))
  | @forStep _ _ e body _ _ =>
    refine grows_within (grows_next rfl (grows_next rfl ?_))
    exact grows_first e.grows_checkDenotes fun _ => growing_last body.growing_check _
  | forBody =>
    refine grows_within (grows_next rfl (grows_next rfl (grows_next rfl ?_)))
    exact grows_first (.refl _) fun _ => growing_pure _
  | expression => exact Expr.grows_checkDenotes _

theorem grows_expression {use : Use} {e : Expr} (h : Leads ⟨.expression use e, s⟩ w) :
    w.tableAfter.Grows (s.after e.meaning).table := by
  rw [Site.table_meaning]
  cases h with
  | receiver =>
    rw [Visit.tableAfter, s.table_meaning, Expr.denote]
    exact Check.grows_first (.refl _) (Check.growing_some rfl fun target =>
      Check.growing_of_honest (@Check.honest_memberMeaning _ .never s.scopes target _))
  | callee =>
    rw [Visit.tableAfter, s.table_meaning, Expr.denote]
    exact Check.grows_first (.refl _) (Check.growing_some rfl fun method =>
      Check.growing_bind (Expr.growing_denoteAll s.scopes _) fun arguments =>
        Check.growing_of_honest (@Check.honest_callResult _ none method arguments _ _))
  | unaryOperand =>
    rw [Visit.tableAfter, s.table_meaning, Expr.denote]
    exact Check.grows_first (.refl _) (Check.growing_some rfl fun operand =>
      Check.growing_of_honest (@Check.honest_unaryMeaning _ .never _ operand _))
  | leftOperand => exact (Expr.growing_denote _ s.scopes _).trans (Expr.grows_binary ..)
  | rightOperand => exact Expr.grows_binary ..
  | target => exact (Expr.growing_denote _ s.scopes _).trans (Expr.grows_assign ..)
  | assigned => exact Expr.grows_assign ..
  | @argument _ callee _ before after e _ _ _ called items =>
    rw [Visit.tableAfter, Site.table_meaning, Expr.denote, items]
    refine Check.grows_next called (Check.grows_first ?_ fun _ =>
      Check.growing_of_honest (@Check.honest_callResult _ none _ _ _ _))
    exact Expr.grows_denoteAll e s.scopes _ before after
  | @newArgument _ className _ before after e span _ ty type instantiable items =>
    have hsome : (before ++ e :: after).isEmpty = false := by simp
    rw [Visit.tableAfter, Site.table_meaning, Expr.denote, items]
    refine Check.grows_next type (Check.grows_next rfl ?_)
    have hi : (Check.classes (Check.expectType className s.table).table).result.isInstantiable ty =
        true := instantiable
    rw [hi, hsome]
    exact Check.grows_first (Expr.grows_denoteAll e s.scopes _ before after) fun _ table =>
      .refl table

theorem grows_declarator {ty : Ty} {x : Declarator} (h : Leads ⟨.declarator ty x, s⟩ w) :
    w.tableAfter.Grows (s.after (x.check ty)).table := by
  cases h with
  | @initialValue _ _ e _ value =>
    rw [Declarator.check, value]
    exact grows_first (e.grows_checkInitializer ty) fun _ =>
      growing_last (growing_of_honest (@honest_declare _ .faulty _ _)) _

theorem grows_member {c : ClassDef} {m : Member} (h : Leads ⟨.member c m, s⟩ w) :
    w.tableAfter.Grows (s.after (m.check c)).table := by
  cases h with
  | @fieldValue _ _ _ declarators ty before after e kind modifier type items =>
    refine (e.grows_checkInitializer ty).trans ?_
    rw [Member.check, kind]
    dsimp only
    rw [Member.checkField, s.table_reading, modifier]
    refine Check.grows_next type ?_
    rw [items]
    exact Check.grows_anyFails (@Expr.honest_checkInitializer _ none s.scopes ty) before e after _
  | body kind type parameters present =>
    obtain ⟨_, _, _, declaredType, _, _, kind'⟩ := m
    cases kind' with
    | field declarators => cases kind
    | method r =>
      cases kind
      refine grows_next type (grows_next rfl (grows_first ?_ fun _ => growing_pure _))
      rw [Member.after_checkMethodHeader]
      exact Routine.grows_body parameters present
    | operator r =>
      cases kind
      refine grows_next rfl (grows_next rfl ?_)
      rw [Site.after_failIf, Site.after_failIf]
      refine grows_next type (grows_next rfl (grows_first ?_ fun _ => growing_pure _))
      rw [Site.after_failIf]
      exact Routine.grows_body parameters present

theorem grows_classDef {c : ClassDef} (h : Leads ⟨.classDef c, s⟩ w) :
    w.tableAfter.Grows (s.after c.check).table := by
  cases h with
  | @member _ _ before after m _ _ base names unique items =>
    have hbackend : s.after (liftM c.checkBackend) = s := s.after_failIf ..
    have hlabel : (s.after (liftM c.checkBase)).after (liftM c.checkLabel) =
        s.after (liftM c.checkBase) := Site.after_failIf ..
    have hunique : c.checkUnique = pure false := by rw [ClassDef.checkUnique, unique]
    have hcontract : c.checkContract.Growing :=
      Check.growing_of_honest (@ClassDef.honest_checkContract _ .never c)
    refine grows_next rfl ?_
    rw [hbackend]
    refine grows_next base (grows_next rfl (grows_first (grows_within ?_) fun _ => growing_pure _))
    rw [hlabel, ClassDef.checkBody, hunique]
    refine grows_next names (grows_next rfl (grows_first ?_ fun _ =>
      growing_last (growing_lift hcontract) _))
    rw [items]
    exact grows_anyFails (Member.honest_check c) before m after _

theorem grows_tableAfter {v : Visit} (h : Leads v w) : w.tableAfter.Grows v.tableAfter := by
  obtain ⟨node, s⟩ := v
  cases node with
  | classDef c => exact grows_classDef h
  | member c m => exact grows_member h
  | statement t => exact grows_statement h
  | declarator ty d => exact grows_declarator h
  | expression use e => exact grows_expression h

end Leads

theorem Program.grows_checkedTable_of_reaches {p : Program} {v : Visit} (h : p.Reaches v) :
    v.tableAfter.Grows p.checkedTable := by
  induction h with
  | @classDef before after c items =>
    have hc := Check.grows_anyFails ClassDef.honest_checkAlone before c after p.registered
    rw [← items] at hc
    exact hc
  | step reached leads ih => exact leads.grows_tableAfter.trans ih

end ClassLang
