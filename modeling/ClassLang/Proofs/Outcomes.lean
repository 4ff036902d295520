import ClassLang.Check.Basic
import ClassLang.Proofs.ScopeGrowth

namespace ClassLang

variable {α β : Type}

namespace Check

variable (table : ClassTable)

@[simp]
theorem pure_apply (a : α) : (pure a : Check α) table = ⟨a, table, []⟩ := rfl

@[simp]
theorem result_bind (c : Check α) (f : α → Check β) :
    ((c >>= f) table).result = (f (c table).result (c table).table).result := rfl

theorem exists_of_result_bind {table : ClassTable} {c : Check (Option α)}
    {f : Option α → Check (Option β)} {b : β} (hn : ∀ later, (f none later).result = none)
    (h : ((c >>= f) table).result = some b) :
    ∃ a, (c table).result = some a ∧ (f (some a) (c table).table).result = some b := by
  rw [result_bind] at h
  cases hc : (c table).result with
  | none =>
    rw [hc, hn] at h
    cases h
  | some a =>
    rw [hc] at h
    exact ⟨a, rfl, h⟩

@[simp]
theorem table_bind (c : Check α) (f : α → Check β) :
    ((c >>= f) table).table = (f (c table).result (c table).table).table := rfl

@[simp]
theorem findings_bind (c : Check α) (f : α → Check β) :
    ((c >>= f) table).findings =
      (c table).findings ++ (f (c table).result (c table).table).findings := rfl

@[simp]
theorem table_failIf (condition : Bool) (problem : Problem) (span : Span) :
    (failIf condition problem span table).table = table := by
  unfold failIf
  split <;> rfl

theorem classes_bind_apply (f : ClassTable → Check β) : (classes >>= f) table = f table table := rfl

theorem bind_of_eq {table later : ClassTable} {c : Check α} {a : α} (h : c table = ⟨a, later, []⟩)
    (f : α → Check β) : (c >>= f) table = f a later := by
  apply Outcome.ext
  · rw [result_bind, h]
  · rw [table_bind, h]
  · rw [findings_bind, h, List.nil_append]

theorem table_anyFails_cons (f : α → Check Bool) (a : α) (rest : List α) :
    (anyFails f (a :: rest) table).table = (anyFails f rest (f a table).table).table := rfl

theorem findings_anyFails_cons (f : α → Check Bool) (a : α) (rest : List α) :
    (anyFails f (a :: rest) table).findings =
      (f a table).findings ++ (anyFails f rest (f a table).table).findings := by
  rw [anyFails, findings_bind, findings_bind, pure_apply, List.append_nil]

theorem prefix_findings_anyFails (f : α → Check Bool) (items more : List α) :
    (anyFails f items table).findings <+: (anyFails f (items ++ more) table).findings := by
  induction items generalizing table with
  | nil => exact List.nil_prefix
  | cons a items ih =>
    rw [List.cons_append, findings_anyFails_cons, findings_anyFails_cons,
      List.prefix_append_right_inj]
    exact ih (f a table).table

variable [Alphabet]

theorem resolve_bind_apply (name : String) (f : Option Ty → Check β) :
    (resolve name >>= f) table = f (table.resolve name).1 (table.resolve name).2 := rfl

theorem resolve_of_expectType {table : ClassTable} {name : Ident} {ty : Ty}
    (h : (expectType name table).result = some ty) : (table.resolve name.text).1 = some ty := by
  obtain ⟨found, hfound, ⟨⟩⟩ := exists_of_result_bind (fun _ => rfl) h
  exact hfound

theorem table_expectType (name : Ident) :
    (expectType name table).table = (table.resolve name.text).2 := by
  rw [expectType, resolve_bind_apply]
  cases (table.resolve name.text).1 <;> rfl

end Check

namespace Scoped

variable (scopes : ScopeStack) (table : ClassTable)

theorem bind_apply (c : Scoped α) (f : α → Scoped β) :
    (c >>= f) scopes = (c scopes >>= fun r => f r.1 r.2) := rfl

@[simp]
theorem findings_bind (c : Scoped α) (f : α → Scoped β) :
    ((c >>= f) scopes table).findings =
      (c scopes table).findings ++
        (f (c scopes table).result.1 (c scopes table).result.2
          (c scopes table).table).findings := rfl

@[simp]
theorem result_lift (c : Check α) :
    ((liftM c : Scoped α) scopes table).result = ((c table).result, scopes) := rfl

@[simp]
theorem table_lift (c : Check α) :
    ((liftM c : Scoped α) scopes table).table = (c table).table := rfl

@[simp]
theorem findings_lift (c : Check α) :
    ((liftM c : Scoped α) scopes table).findings = (c table).findings := List.append_nil _

@[simp]
theorem findings_within (kind : ScopeKind) (owner : ScopeOwner) (c : Scoped α) :
    (within kind owner c scopes table).findings = (c (scopes.push kind owner) table).findings :=
  List.append_nil _

theorem extends_bind {c : Scoped α} {f : α → Scoped β}
    (hc : ∀ scopes table, ∃ added, (c scopes table).result.2 = scopes.extend added)
    (hf : ∀ a scopes table, ∃ added, (f a scopes table).result.2 = scopes.extend added) :
    ∃ added, ((c >>= f) scopes table).result.2 = scopes.extend added := by
  obtain ⟨first, ha⟩ := hc scopes table
  obtain ⟨second, hb⟩ := hf (c scopes table).result.1 (c scopes table).result.2
    (c scopes table).table
  refine ⟨first ++ second, ?_⟩
  rw [← ScopeStack.extend_extend, ← ha]
  exact hb

theorem extends_within (kind : ScopeKind) (owner : ScopeOwner) {c : Scoped α}
    (hc : ∀ scopes table, ∃ added, (c scopes table).result.2 = scopes.extend added) :
    ∃ added, (within kind owner c scopes table).result.2 = scopes.extend added := by
  obtain ⟨added, ha⟩ := hc (scopes.push kind owner) table
  refine ⟨[], ?_⟩
  rw [ScopeStack.extend_nil]
  exact (congrArg ScopeStack.pop ha).trans (scopes.pop_extend_push kind owner added)

end Scoped

end ClassLang
