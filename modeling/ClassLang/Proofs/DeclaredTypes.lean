import ClassLang.Proofs.ScopeDiscipline
import ClassLang.Proofs.Verdict

namespace ClassLang

open Scoped (Scripted)

namespace ScopeStack

def Typed (P : Ty → Prop) (scopes : ScopeStack) : Prop := ∀ x ∈ scopes.live, P x.ty

theorem mem_live_extend {scopes : ScopeStack} {added : List Variable} {x : Variable}
    (h : x ∈ (scopes.extend added).live) : x ∈ scopes.live ∨ x ∈ added := by
  cases scopes with
  | nil => exact .inl h
  | cons s outer =>
    simp only [extend, live, List.flatMap_cons, List.mem_append] at h ⊢
    obtain (h | h) | h := h
    · exact .inl (.inl h)
    · exact .inr h
    · exact .inl (.inr h)

theorem live_subset_extend (scopes : ScopeStack) (added : List Variable) :
    scopes.live ⊆ (scopes.extend added).live := by
  cases scopes with
  | nil => exact List.Subset.refl _
  | cons s outer =>
    intro x hx
    simp only [extend, live, List.flatMap_cons, List.mem_append] at hx ⊢
    exact hx.imp_left .inl

theorem mem_live_of_lookup? {scopes : ScopeStack} {name : String} {x : Variable}
    (h : scopes.lookup? name = some x) : x ∈ scopes.live := by
  obtain ⟨s, hs, hf⟩ := List.exists_of_findSome?_eq_some h
  exact List.mem_flatMap.mpr ⟨s, hs, List.mem_of_find?_eq_some hf⟩

theorem admitted_singleton_subset (scopes : ScopeStack) (v : Variable) :
    scopes.admitted [v] ⊆ [v] := by
  unfold admitted
  split
  · exact List.Subset.refl _
  · exact List.nil_subset _

variable {P : Ty → Prop} {scopes : ScopeStack}

theorem Typed.push (h : scopes.Typed P) (kind : ScopeKind) (owner : ScopeOwner) :
    (scopes.push kind owner).Typed P := h

theorem Typed.pop (h : scopes.Typed P) : scopes.pop.Typed P := by
  cases scopes with
  | nil => exact h
  | cons s outer => exact fun x hx => h x (List.mem_append_right _ hx)

theorem Typed.declare (h : scopes.Typed P) {v : Variable} (hv : P v.ty) (span : Span)
    (table : ClassTable) : (Scoped.declare v span scopes table).result.2.Typed P := by
  rw [Scoped.scopes_declare]
  intro x hx
  obtain hx | hx := mem_live_extend hx
  · exact h x hx
  · rwa [List.mem_singleton.mp (scopes.admitted_singleton_subset v hx)]

end ScopeStack

variable [Alphabet]

/-- A class with fields was there before the table has grown: the classes behind lists have none. -/
theorem ClassTable.Grows.mem_of_field {table grown : ClassTable} (h : table.Grows grown)
    {c : ClassDef} (hc : c ∈ grown.classes) {field : Member × List Declarator}
    (hf : field ∈ c.fields) : c ∈ table.classes := by
  obtain hs | ⟨element, -, rfl⟩ := h.get?_of_grown (get?_of_mem hc)
  · exact mem_of_get? hs
  · cases hf

/-- Made on a table grown from the given one, the check leaves such a table behind, and its answer
is as required. -/
def Check.Yields {α : Type} (start : ClassTable) (required : α → Prop) (c : Check α) : Prop :=
  ∀ table, start.Grows table → start.Grows (c table).table ∧ required (c table).result

namespace Check

variable {α β : Type} {start : ClassTable} {required : α → Prop}

theorem yields_pure {a : α} (h : required a) : Yields start required (pure a) :=
  fun _ ht => ⟨ht, h⟩

theorem yields_bind {first : β → Prop} {c : Check β} {f : β → Check α} (hc : c.Yields start first)
    (hf : ∀ b, first b → (f b).Yields start required) : (c >>= f).Yields start required := by
  intro table ht
  obtain ⟨hg, hb⟩ := hc table ht
  exact hf (c table).result hb (c table).table hg

theorem Honest.yields {excuse : Excuse} {before : Prop} {fails : α → Prop} {c : Check α}
    (h : Honest excuse before fails c) (hr : ∀ a, required a) : c.Yields start required :=
  fun table ht => ⟨ht.trans (h table).grows, hr _⟩

theorem yields_classes {required : ClassTable → Prop}
    (h : ∀ table, start.Grows table → required table) : classes.Yields start required :=
  fun table ht => ⟨ht, h table ht⟩

theorem yields_resolve {required : Option Ty → Prop} {name : String}
    (h : required (start.typeOf? name)) : (resolve name).Yields start required := by
  intro table ht
  refine ⟨ht.trans (.resolve table name), ?_⟩
  have hr : (resolve name table).result = start.typeOf? name := ht.typeOf? name
  rwa [hr]

theorem yields_refuse {required : Option α → Prop} (h : required none) (problem : Problem)
    (span : Span) : (refuse problem span).Yields start required := fun _ ht => ⟨ht, h⟩

theorem yields_expectType (name : Ident) :
    (expectType name).Yields start fun ty => ∀ t ∈ ty, start.typeOf? name.text = some t := by
  have hr : (resolve name.text).Yields start (· = start.typeOf? name.text) := yields_resolve rfl
  apply yields_bind hr
  intro ty hty
  cases ty with
  | none => exact yields_refuse (by simp) _ name.span
  | some ty => exact yields_pure (by simp [← hty])

theorem yields_expectValueType {required : Option Ty → Prop} {name : Ident}
    (h : required ((start.typeOf? name.text).filter fun ty => !ty.isVoid)) :
    (expectValueType name).Yields start required := by
  intro table ht
  have hh : Honest .never False (· = none) (expectValueType name) := honest_expectValueType name
  refine ⟨ht.trans (hh table).grows, ?_⟩
  rwa [result_expectValueType, ht.typeOf?]

end Check

namespace Script

variable {α β : Type} {start : ClassTable} {P : Ty → Prop}

/-- Every variable that the script comes to declare is of a type with the property, if it starts on
a table grown from the given one. -/
def Declares (start : ClassTable) (P : Ty → Prop) {α : Type} : Script α → Prop
  | .done _ => True
  | .look c next => ∀ scopes, (c scopes).Yields start fun b => (next b).Declares start P
  | .declare v _ next => P v.ty ∧ ∀ failed, (next failed).Declares start P
  | .enter _ _ inner next => inner.Declares start P ∧ ∀ b, (next b).Declares start P

theorem Declares.bind {script : Script α} {f : α → Script β} (h : script.Declares start P)
    (hf : ∀ a, (f a).Declares start P) : (script.bind f).Declares start P := by
  induction script with
  | done a => exact hf a
  | look c next ih =>
    intro scopes table ht
    obtain ⟨hg, hn⟩ := h scopes table ht
    exact ⟨hg, ih _ hn hf⟩
  | declare v span next ih => exact ⟨h.1, fun failed => ih failed (h.2 failed) hf⟩
  | enter kind owner inner next _ ih => exact ⟨h.1, fun b => ih b (h.2 b) hf⟩

theorem Declares.grows {script : Script α} (h : script.Declares start P) {table : ClassTable}
    (ht : start.Grows table) (scopes : ScopeStack) :
    start.Grows (script.run scopes table).table := by
  induction script generalizing scopes table with
  | done a => exact ht
  | look c next ih =>
    obtain ⟨hg, hn⟩ := h scopes table ht
    exact ih _ hn hg scopes
  | declare v span next ih =>
    have hh : Scoped.Honest (fun _ => .never) False (· = true) (Scoped.declare v span) :=
      Scoped.honest_declare v span
    exact ih _ (h.2 _) (ht.trans (hh.check scopes table).grows) _
  | enter kind owner inner next hinner ih => exact ih _ (h.2 _) (hinner h.1 ht _) _

/-- At every moment of a script all variables are of types with the property, if those that are
there at its start are. -/
theorem Declares.typed_moments {script : Script α} (h : script.Declares start P)
    {table : ClassTable} (ht : start.Grows table) {scopes : ScopeStack} (hs : scopes.Typed P) :
    ∀ moment ∈ script.moments scopes table, moment.Typed P := by
  induction script generalizing scopes table with
  | done a =>
    intro moment hm
    rwa [List.mem_singleton.mp hm]
  | look c next ih =>
    obtain ⟨hg, hn⟩ := h scopes table ht
    exact List.forall_mem_cons.mpr ⟨hs, ih _ hn hg hs⟩
  | declare v span next ih =>
    have hh : Scoped.Honest (fun _ => .never) False (· = true) (Scoped.declare v span) :=
      Scoped.honest_declare v span
    refine List.forall_mem_cons.mpr ⟨hs, ih _ (h.2 _) (ht.trans (hh.check scopes table).grows) ?_⟩
    exact hs.declare h.1 span table
  | enter kind owner inner next hinner ih =>
    have hentered := hinner h.1 ht (hs.push kind owner)
    have hleft := hentered _ (inner.scopes_run_mem_moments _ table)
    refine List.forall_mem_cons.mpr ⟨hs, List.forall_mem_append.mpr ⟨hentered, ?_⟩⟩
    exact ih _ (h.2 _) (h.1.grows ht _) hleft.pop

end Script

/-- The property holds of the types that a program on the table may declare variables of: those that
names stand for, except that a variable can be `void` only by inheritance. -/
structure ClassTable.Admits (start : ClassTable) (P : Ty → Prop) : Prop where
  value : ∀ name ty, start.typeOf? name = some ty → ty ≠ .void → P ty
  field : ∀ c ∈ start.classes, ∀ field ∈ c.fields, ∀ ty,
    start.typeOf? field.1.declaredType.text = some ty → P ty

namespace Scoped.Scripted

variable {α β : Type} {start : ClassTable} {P : Ty → Prop}

def Declares (start : ClassTable) (P : Ty → Prop) {c : Scoped α} (s : Scripted c) : Prop :=
  s.script.Declares start P

theorem declares_bind {c : Scoped α} {f : α → Scoped β} {first : Scripted c}
    {next : ∀ a, Scripted (f a)} (h : first.Declares start P)
    (hn : ∀ a, (next a).Declares start P) : (first.bind next).Declares start P :=
  Script.Declares.bind h hn

theorem declares_lift_bind {required : α → Prop} {c : Check α} {f : α → Scoped β}
    {next : ∀ a, Scripted (f a)} (hc : c.Yields start required)
    (hn : ∀ a, required a → (next a).Declares start P) :
    ((lift c).bind next).Declares start P := by
  intro _ table ht
  obtain ⟨hg, ha⟩ := hc table ht
  exact ⟨hg, hn _ ha⟩

theorem declares_reading {fails : α → Prop} {c : ScopeStack → Check α}
    (h : ∀ scopes, (c scopes).Honest (.faulty scopes.currentMember?) False fails) :
    (reading c).Declares start P :=
  fun scopes => (h scopes).yields fun _ => trivial

theorem declares_lift {fails : α → Prop} {c : Check α} (h : c.Honest .never False fails) :
    (lift c).Declares start P := fun _ => h.yields fun _ => trivial

theorem declares_within {kind : ScopeKind} {owner : ScopeOwner} {c : Scoped α} {inner : Scripted c}
    (h : inner.Declares start P) :
    (within inner : Scripted (Scoped.within kind owner c)).Declares start P :=
  ⟨h, fun _ => trivial⟩

theorem declares_both {c d : Scoped Bool} {first : Scripted c} {second : Scripted d}
    (hc : first.Declares start P) (hd : second.Declares start P) :
    (first.both second).Declares start P :=
  declares_bind hc fun _ => declares_bind hd fun _ => trivial

theorem declares_anyFails {f : α → Scoped Bool} {each : ∀ a, Scripted (f a)} {items : List α}
    (h : ∀ a ∈ items, (each a).Declares start P) : (anyFails each items).Declares start P := by
  induction items with
  | nil => exact trivial
  | cons a items ih => exact declares_both (h a (by simp)) (ih fun b hb => h b (by simp [hb]))

theorem declares_failsAt {f : α → Scoped Bool} {each : ∀ a, Scripted (f a)}
    (h : ∀ a, (each a).Declares start P) (items : List α) :
    (failsAt each items).Declares start P := by
  induction items with
  | nil => exact trivial
  | cons a items ih =>
    apply declares_bind (h a)
    intro failed
    cases failed with
    | true => exact trivial
    | false => exact ih

theorem declares_checkOptional {f : α → Scoped Bool} {each : ∀ a, Scripted (f a)}
    (h : ∀ a, (each a).Declares start P) (item : Option α) :
    (checkOptional each item).Declares start P := by
  cases item with
  | none => exact trivial
  | some a => exact h a

end Scoped.Scripted

open Scoped.Scripted

variable {start : ClassTable} {P : Ty → Prop}

theorem ClassTable.Admits.yields_expectValueType (h : start.Admits P) (name : Ident) :
    (Check.expectValueType name).Yields start fun ty => ∀ t ∈ ty, P t := by
  apply Check.yields_expectValueType
  intro ty ht
  obtain ⟨hn, hv⟩ := Option.mem_filter_iff.mp ht
  exact h.value name.text ty hn (by simpa [Ty.isVoid] using hv)

theorem Declarator.declares {ty : Ty} (hty : P ty) (d : Declarator) :
    (d.scripted ty).Declares start P := by
  obtain ⟨name, _ | value, span⟩ := d
  · exact declares_both trivial ⟨hty, fun _ => trivial⟩
  · apply declares_both
    · exact declares_reading fun scopes => value.honest_checkInitializer scopes ty
    · exact ⟨hty, fun _ => trivial⟩

theorem Declaration.declares (d : Declaration) (h : start.Admits P) :
    d.scripted.Declares start P := by
  apply declares_lift_bind (h.yields_expectValueType d.typeName)
  intro ty hty
  cases ty with
  | none => exact trivial
  | some ty => exact declares_anyFails fun x _ => x.declares (hty ty rfl)

theorem ForInit.declares (h : start.Admits P) (init : ForInit) :
    init.scripted.Declares start P := by
  cases init with
  | declaration d => exact d.declares h
  | expression e => exact declares_reading fun scopes => e.honest_checkDenotes scopes

namespace Stmt

theorem declares_condition (e : Expr) :
    (Scripted.reading e.checkCondition).Declares start P :=
  declares_reading fun scopes => e.honest_checkCondition scopes

theorem declares_denotes (e : Expr) : (Scripted.reading e.checkDenotes).Declares start P :=
  declares_reading fun scopes => e.honest_checkDenotes scopes

mutual

theorem declares (s : Stmt) (h : start.Admits P) : s.scripted.Declares start P := by
  cases s with
  | block statements span => exact declares_within (declaresAll statements h)
  | continueLoop span => exact declares_reading (honest_checkInLoop "continue" span)
  | breakLoop span => exact declares_reading (honest_checkInLoop "break" span)
  | ret value span => exact declares_reading (honest_checkReturn value span)
  | declaration d => exact d.declares h
  | whileLoop condition body span | ifThen condition body span =>
    exact declares_both (declares_condition condition) (declares_within (body.declares h))
  | doLoop body condition span =>
    exact declares_both (declares_within (body.declares h)) (declares_condition condition)
  | ifElse condition thenBranch elseBranch span =>
    apply declares_bind (declares_condition condition)
    intro conditionFailed
    apply declares_bind (declares_within (thenBranch.declares h))
    intro thenFailed
    exact declares_bind (declares_within (elseBranch.declares h)) fun _ => trivial
  | forLoop init condition step body span =>
    apply declares_within
    apply declares_bind (declares_checkOptional (ForInit.declares h) init)
    intro initFailed
    apply declares_bind (declares_checkOptional declares_condition condition)
    intro conditionFailed
    apply declares_bind (declares_checkOptional declares_denotes step)
    intro stepFailed
    exact declares_bind (body.declares h) fun _ => trivial
  | expression e span => exact declares_denotes e

theorem declaresAll (statements : List Stmt) (h : start.Admits P) :
    (scriptedAll statements).Declares start P := by
  cases statements with
  | nil => exact trivial
  | cons s rest =>
    apply declares_bind (s.declares h)
    intro failed
    cases s.alwaysReturns with
    | true =>
      cases rest with
      | nil => exact trivial
      | cons next rest => exact declares_lift (Check.honest_fail .unreachableCode next.span)
    | false => exact declares_bind (declaresAll rest h) fun _ => trivial

end

end Stmt

theorem Parameter.declares (h : start.Admits P) (p : Parameter) :
    p.scripted.Declares start P := by
  apply declares_lift_bind (h.yields_expectValueType p.typeName)
  intro ty hty
  cases ty with
  | none => exact trivial
  | some ty => exact ⟨hty ty rfl, fun _ => trivial⟩

theorem Routine.declares (m : Member) (returnType : Ty) (r : Routine) (h : start.Admits P) :
    (r.scriptedInside m returnType).Declares start P := by
  apply declares_bind (declares_failsAt (Parameter.declares h) r.parameters)
  intro failed
  cases failed with
  | true => exact trivial
  | false =>
    apply declares_checkOptional
    intro b
    exact declares_both (b.toStmt.declares h) (declares_lift (Check.honest_failIf _ _ m.span))

namespace Member

theorem declares_method (c : ClassDef) (m : Member) (r : Routine) (h : start.Admits P) :
    (m.scriptedMethod c r).Declares start P := by
  have htype : Check.Honest .never False (· = none) (Check.expectType m.declaredType) :=
    Check.honest_expectType m.declaredType
  apply declares_bind (declares_lift htype)
  intro returnType
  cases returnType with
  | none => exact trivial
  | some returnType =>
    exact declares_both (declares_lift (m.honest_checkMethodHeader c r))
      (declares_within (r.declares m returnType h))

theorem declares_operator (c : ClassDef) (m : Member) (r : Routine) (h : start.Admits P) :
    (m.scriptedOperator c r).Declares start P := by
  apply declares_bind (declares_lift (Check.honest_failIf _ _ r.name.span))
  intro modifierFailed
  apply declares_bind (declares_lift (Check.honest_failIf _ _ r.name.span))
  intro countFailed
  apply declares_bind (declares_lift (Check.honest_expectType m.declaredType))
  intro returnType
  cases returnType with
  | none => exact trivial
  | some returnType =>
    apply declares_bind (declares_lift (Check.honest_failIf _ _ r.name.span))
    intro missingFailed
    exact declares_bind (declares_within (r.declares m returnType h)) fun _ => trivial

theorem declares (c : ClassDef) (m : Member) (h : start.Admits P) :
    (m.scripted c).Declares start P := by
  obtain ⟨visibility, modifier, isStatic, declaredType, owner, span, kind⟩ := m
  cases kind with
  | field declarators =>
    intro scopes table ht
    let m : Member :=
      ⟨visibility, modifier, isStatic, declaredType, owner, span, .field declarators⟩
    have hh := (m.honest_checkField declarators).check scopes table
    exact ⟨ht.trans hh.grows, trivial⟩
  | method r => exact declares_method c _ r h
  | operator r => exact declares_operator c _ r h

end Member

namespace ClassDef

theorem declares_inherited (h : start.Admits P) {c : ClassDef} (hc : c ∈ start.classes)
    {field : Member × List Declarator} (hf : field ∈ c.fields) :
    (scriptedInherited field).Declares start P := by
  have hty : (Check.resolve field.1.declaredType.text).Yields start fun ty => ∀ t ∈ ty, P t :=
    Check.yields_resolve (h.field c hc field hf)
  apply declares_lift_bind hty
  intro ty hty
  cases ty with
  | none => exact trivial
  | some ty => exact declares_anyFails fun d _ => ⟨hty ty rfl, fun _ => trivial⟩

theorem declares_ancestor (h : start.Admits P) {table : ClassTable} (ht : start.Grows table)
    {c a : ClassDef} (ha : a ∈ table.ancestors c) :
    (Scripted.anyFails scriptedInherited a.fields).Declares start P := by
  have hm : a ∈ table.classes := ClassTable.mem_classes_of_mem_climb ha
  exact declares_anyFails fun _ hf => declares_inherited h (ht.mem_of_field hm hf) hf

theorem declares_own (h : start.Admits P) (field : Member × List Declarator) :
    (scriptedOwn field).Declares start P := by
  apply declares_lift_bind (h.yields_expectValueType field.1.declaredType)
  intro ty hty
  cases ty with
  | none => exact trivial
  | some ty =>
    apply declares_failsAt
    intro d
    exact ⟨hty ty rfl, fun _ => trivial⟩

theorem declares_names (c : ClassDef) (h : start.Admits P) (this : P (.classRef c.name)) :
    c.scriptedNames.Declares start P := by
  apply declares_bind
  · apply declares_lift_bind (Check.yields_classes fun _ ht => ht)
    intro table ht
    apply declares_anyFails
    intro a ha
    exact declares_ancestor h ht (List.mem_reverse.mp ha)
  · intro inheritedFailed
    refine ⟨this, fun thisFailed => ?_⟩
    cases thisFailed with
    | true => exact trivial
    | false =>
      apply declares_bind (declares_failsAt (declares_own h) c.fields)
      intro ownFailed
      cases ownFailed <;> exact trivial

theorem declares_body (c : ClassDef) (h : start.Admits P) (this : P (.classRef c.name)) :
    c.scriptedBody.Declares start P := by
  apply declares_bind (c.declares_names h this)
  intro names
  cases names with
  | none => exact trivial
  | some inheritedFailed =>
    apply declares_bind (declares_lift c.honest_checkUnique)
    intro duplicate
    cases duplicate with
    | true => exact trivial
    | false =>
      apply declares_bind (declares_anyFails fun m _ => m.declares c h)
      intro membersFailed
      exact declares_bind (declares_lift c.honest_checkContract) fun _ => trivial

theorem declares (c : ClassDef) (h : start.Admits P) (this : P (.classRef c.name)) :
    c.scripted.Declares start P := by
  apply declares_bind (declares_lift (Check.honest_failIf _ _ c.ident.span))
  intro backendFailed
  apply declares_bind (declares_lift c.honest_checkBase)
  intro base
  cases base with
  | none => exact trivial
  | some baseFailed =>
    apply declares_bind (declares_lift (Check.honest_failIf _ _ c.ident.span))
    intro labelFailed
    exact declares_bind (declares_within (c.declares_body h this)) fun _ => trivial

end ClassDef

namespace Program

/-- The scopes at some moment of the check of a program, which starts without any class but its
own. -/
def Moment (p : Program) (scopes : ScopeStack) : Prop :=
  ∃ before c after, p.classes = before ++ c :: after ∧
    scopes ∈ c.scripted.script.moments [] (p.tableAfter before)

/-- What holds of all types that a program may declare variables of, and of those of its classes,
holds of all variables at every moment of its check. -/
theorem typed_of_moment {p : Program} (h : p.registered.Admits P)
    (this : ∀ c ∈ p.classes, P (.classRef c.name)) {scopes : ScopeStack} (hm : p.Moment scopes) :
    scopes.Typed P := by
  obtain ⟨before, c, after, hc, hm⟩ := hm
  have hd := c.declares h (this c (by simp [hc]))
  exact hd.typed_moments (p.grows_tableAfter before) (by simp [ScopeStack.Typed, ScopeStack.live])
    scopes hm

end Program

end ClassLang
