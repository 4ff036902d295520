import ClassLang.Proofs.Parts
import ClassLang.Proofs.TypeNames
import ClassLang.Types.WordChar

namespace ClassLang

open Scoped (Scripted)

namespace Scoped

variable {α β : Type}

def Restores (c : Scoped α) : Prop := ∀ scopes table, (c scopes table).result.2 = scopes

theorem restores_pure (a : α) : Restores (pure a) := fun _ _ => rfl

theorem restores_reading (c : ScopeStack → Check α) : Restores (reading c) := fun _ _ => rfl

theorem restores_lift (c : Check α) : Restores (liftM c : Scoped α) := fun _ _ => rfl

theorem restores_bind {c : Scoped α} {f : α → Scoped β} (hc : Restores c)
    (hf : ∀ a, Restores (f a)) : Restores (c >>= f) :=
  fun scopes table => (hf _ _ _).trans (hc scopes table)

theorem restores_both {c d : Scoped Bool} (hc : Restores c) (hd : Restores d) :
    Restores (do
      let failed ← c
      let alsoFailed ← d
      return failed || alsoFailed) :=
  restores_bind hc fun _ => restores_bind hd fun _ => restores_pure _

theorem restores_within (kind : ScopeKind) (owner : ScopeOwner) {c : Scoped α}
    (inner : Scripted c) : Restores (within kind owner c) := by
  intro scopes table
  obtain ⟨added, h⟩ := inner.script.scopes_run (scopes.push kind owner) table
  rw [inner.run_script] at h
  exact (congrArg ScopeStack.pop h).trans (scopes.pop_extend_push kind owner added)

end Scoped

open Scoped

variable [Alphabet]

theorem Stmt.restores_check {s : Stmt} (h : ∀ d, s ≠ .declaration d) : Restores s.check := by
  cases s with
  | block statements span => exact restores_within _ _ (scriptedAll statements)
  | continueLoop span | breakLoop span | ret value span | expression e span =>
    exact restores_reading _
  | declaration d => exact absurd rfl (h d)
  | whileLoop condition body span | ifThen condition body span =>
    exact restores_both (restores_reading _) (restores_within _ _ body.scripted)
  | doLoop body condition span =>
    exact restores_both (restores_within _ _ body.scripted) (restores_reading _)
  | ifElse condition thenBranch elseBranch span =>
    apply restores_bind (restores_reading _)
    intro conditionFailed
    apply restores_bind (restores_within _ _ thenBranch.scripted)
    intro thenFailed
    apply restores_bind (restores_within _ _ elseBranch.scripted)
    intro elseFailed
    exact restores_pure _
  | forLoop init condition step body span =>
    exact restores_within _ _ (scriptedClauses init condition step body.scripted)

theorem Block.restores_check (b : Block) : Restores b.check :=
  restores_within _ _ (Stmt.scriptedAll b.statements)

theorem Routine.restores_check (m : Member) (returnType : Ty) (r : Routine) :
    Restores (r.check m returnType) :=
  restores_within _ _ (r.scriptedInside m returnType)

namespace Member

theorem restores_checkMethod (c : ClassDef) (m : Member) (r : Routine) :
    Restores (m.checkMethod c r) := by
  apply restores_bind (restores_lift _)
  intro returnType
  cases returnType with
  | none => exact restores_pure true
  | some returnType => exact restores_both (restores_lift _) (r.restores_check m returnType)

theorem restores_checkOperator (c : ClassDef) (m : Member) (r : Routine) :
    Restores (m.checkOperator c r) := by
  apply restores_bind (restores_lift _)
  intro modifierFailed
  apply restores_bind (restores_lift _)
  intro countFailed
  apply restores_bind (restores_lift _)
  intro returnType
  cases returnType with
  | none => exact restores_pure true
  | some returnType =>
    apply restores_bind (restores_lift _)
    intro missingFailed
    apply restores_bind (r.restores_check m returnType)
    intro routineFailed
    exact restores_pure _

theorem restores_check (c : ClassDef) (m : Member) : Restores (m.check c) := by
  unfold Member.check
  split
  · exact restores_reading _
  · exact m.restores_checkMethod c _
  · exact m.restores_checkOperator c _

end Member

theorem ClassDef.restores_check (c : ClassDef) : Restores c.check := by
  apply restores_bind (restores_lift _)
  intro backendFailed
  apply restores_bind (restores_lift _)
  intro base
  cases base with
  | none => exact restores_pure true
  | some baseFailed =>
    apply restores_bind (restores_lift _)
    intro labelFailed
    apply restores_bind (restores_within _ _ c.scriptedBody)
    intro bodyFailed
    exact restores_pure _

theorem Part.restores_check {part : Part} (h : ∀ d, part ≠ .statement (.declaration d)) :
    Restores part.check := by
  cases part with
  | classDef c => exact c.restores_check
  | member c m => exact m.restores_check c
  | block b => exact b.restores_check
  | statement s =>
    apply Stmt.restores_check
    rintro d rfl
    exact h d rfl
  | initializer declared e | expression e => exact restores_reading _

def Declarator.binding (ty : Ty) (d : Declarator) : Variable := ⟨d.name.text, ty, true⟩

/-- The variables of a declaration: none if its type stands for nothing or for `void`. -/
def Declaration.bindings (d : Declaration) (table : ClassTable) : List Variable :=
  match (table.typeOf? d.typeName.text).filter (fun ty => !ty.isVoid) with
  | some ty => d.declarators.map (Declarator.binding ty)
  | none => []

theorem Check.result_expectValueType (name : Ident) (table : ClassTable) :
    (expectValueType name table).result =
      (table.typeOf? name.text).filter (fun ty => !ty.isVoid) := by
  have hr : (resolve name.text table).result = table.typeOf? name.text := rfl
  rw [expectValueType, result_bind, expectType, result_bind, hr]
  cases table.typeOf? name.text with
  | none => rfl
  | some ty => cases ty <;> rfl

theorem Declarator.scopes_check (ty : Ty) (d : Declarator) (scopes : ScopeStack)
    (table : ClassTable) :
    (d.check ty scopes table).result.2 = scopes.extend (scopes.admitted [d.binding ty]) := by
  obtain ⟨name, _ | value, span⟩ := d
  · exact scopes_declare _ name.span scopes _
  · exact scopes_declare _ name.span scopes _

theorem Declarator.scopes_anyFails_check (ty : Ty) (declarators : List Declarator)
    (scopes : ScopeStack) (table : ClassTable) :
    (anyFails (Declarator.check ty) declarators scopes table).result.2 =
      scopes.extend (scopes.admitted (declarators.map (Declarator.binding ty))) := by
  induction declarators generalizing scopes table with
  | nil => exact scopes.extend_nil.symm
  | cons d rest ih =>
    rw [List.map_cons, ScopeStack.admitted_cons, ← ScopeStack.extend_extend, ← d.scopes_check ty]
    exact ih _ _

theorem Declaration.scopes_check (d : Declaration) (scopes : ScopeStack) (table : ClassTable) :
    (d.check scopes table).result.2 = scopes.extend (scopes.admitted (d.bindings table)) := by
  have hty := Check.result_expectValueType d.typeName table
  rw [Declaration.check, bind_apply, Check.result_bind, result_lift, table_lift, hty, bindings]
  cases (table.typeOf? d.typeName.text).filter (fun ty => !ty.isVoid) with
  | none => exact scopes.extend_nil.symm
  | some ty => exact Declarator.scopes_anyFails_check ty d.declarators scopes _

/-- Every check leaves the scopes as they were, except that a declaration adds those of its
variables that can be declared to the innermost one. No name becomes live twice at any moment of a
check. -/
theorem Part.scopes_kept (part : Part) (scopes : ScopeStack) (table : ClassTable) :
    ((∀ d, part ≠ .statement (.declaration d)) → (part.check scopes table).result.2 = scopes) ∧
      (∀ d, part = .statement (.declaration d) →
        (part.check scopes table).result.2 =
          scopes.extend (scopes.admitted (d.bindings table))) ∧
      (scopes.Distinct →
        (part.check scopes table).result.2.Distinct ∧
          ∀ moment ∈ part.scripted.script.moments scopes table, moment.Distinct) := by
  refine ⟨fun h => Part.restores_check h scopes table, ?_, fun h => ?_⟩
  · rintro d rfl
    exact d.scopes_check scopes table
  · have hall := part.scripted.script.distinct_moments h table
    have hlast := part.scripted.script.scopes_run_mem_moments scopes table
    rw [part.scripted.run_script] at hlast
    exact ⟨hall _ hlast, hall⟩

end ClassLang

namespace ClassLang

open Scoped (Scripted)

open Scoped

attribute [local instance] Alphabet.unicode

/-- Of `int x, y, y;` where `x` is live, the first `y` is declared; a block around it declares
nothing. -/
theorem Part.scopes_kept_redeclaration :
    let int : Ty := .primitive .int
    let scopes : ScopeStack := [⟨.block, .code, [⟨"x", int, true⟩]⟩]
    let name (text : String) : Declarator := ⟨⟨text, .nowhere⟩, none, .nowhere⟩
    let d : Declaration := ⟨⟨"int", .nowhere⟩, [name "x", name "y", name "y"], .nowhere⟩
    let b : Block := ⟨[.declaration d], .nowhere⟩
    scopes.Distinct ∧
      ((Part.statement (.declaration d)).check scopes .empty).result.2 =
        [⟨.block, .code, [⟨"x", int, true⟩, ⟨"y", int, true⟩]⟩] ∧
      ((Part.block b).check scopes .empty).result.2 = scopes ∧
      ∀ moment ∈ (Part.block b).scripted.script.moments scopes .empty, moment.Distinct := by
  intro int scopes name d b
  have hd : scopes.Distinct := List.nodup_singleton "x"
  refine ⟨hd, ?_, (Part.scopes_kept (.block b) scopes .empty).1 ?_,
    ((Part.scopes_kept (.block b) scopes .empty).2.2 hd).2⟩
  · have ht : ClassTable.empty.typeOf? d.typeName.text = some int :=
      ClassTable.typeOf?_primitive .empty (by decide) (by decide)
    have hb : d.bindings .empty = [⟨"x", int, true⟩, ⟨"y", int, true⟩, ⟨"y", int, true⟩] := by
      rw [Declaration.bindings, ht]
      rfl
    rw [(Part.scopes_kept _ scopes .empty).2.1 d rfl, hb]
    rfl
  · rintro d ⟨⟩

end ClassLang
