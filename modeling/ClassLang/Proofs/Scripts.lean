import ClassLang.Check.Stmt
import ClassLang.Proofs.Outcomes

namespace ClassLang

namespace Scoped

variable {α β : Type}

theorem scopes_declare (v : Variable) (span : Span) (scopes : ScopeStack) (table : ClassTable) :
    (declare v span scopes table).result.2 = scopes.extend (scopes.admitted [v]) := by
  unfold declare
  cases hd : scopes.declare v with
  | ok inner => simpa [ScopeStack.admitted, hd] using ScopeStack.eq_extend_of_declare hd
  | error problem =>
    have hnone : scopes.admitted [v] = [] := by simp [ScopeStack.admitted, hd]
    rw [hnone, ScopeStack.extend_nil]
    rfl

theorem distinct_declare {scopes : ScopeStack} (h : scopes.Distinct) (v : Variable) (span : Span)
    (table : ClassTable) : (declare v span scopes table).result.2.Distinct := by
  unfold declare
  cases hd : scopes.declare v with
  | ok inner => exact h.declare hd
  | error problem => exact h

end Scoped

/-- What a check inside scopes consists of: it looks at the scopes, declares variables in the
innermost one, and enters scopes of its own, which it leaves again. -/
inductive Script : Type → Type 1
  | done {α : Type} (a : α) : Script α
  | look {α β : Type} (c : ScopeStack → Check β) (next : β → Script α) : Script α
  | declare {α : Type} (v : Variable) (span : Span) (next : Bool → Script α) : Script α
  | enter {α β : Type} (kind : ScopeKind) (owner : ScopeOwner) (inner : Script β)
      (next : β → Script α) : Script α

namespace Script

variable {α β : Type}

def run {α : Type} : Script α → Scoped α
  | .done a => pure a
  | .look c next => Scoped.reading c >>= fun b => (next b).run
  | .declare v span next => Scoped.declare v span >>= fun failed => (next failed).run
  | .enter kind owner inner next => Scoped.within kind owner inner.run >>= fun b => (next b).run

def bind {α β : Type} : Script α → (α → Script β) → Script β
  | .done a, f => f a
  | .look c next, f => .look c fun b => (next b).bind f
  | .declare v span next, f => .declare v span fun failed => (next failed).bind f
  | .enter kind owner inner next, f => .enter kind owner inner fun b => (next b).bind f

theorem run_bind (script : Script α) (f : α → Script β) :
    (script.bind f).run = script.run >>= fun a => (f a).run := by
  induction script with
  | done a => simp [bind, run]
  | look c next ih => simp [bind, run, ih]
  | declare v span next ih => simp [bind, run, ih]
  | enter kind owner inner next _ ih => simp [bind, run, ih]

/-- The scopes at every moment of a script, in order. A look changes nothing; to enter a scope, to
leave it and to declare a variable are one step each. -/
def moments {α : Type} : Script α → ScopeStack → ClassTable → List ScopeStack
  | .done _, scopes, _ => [scopes]
  | .look c next, scopes, table =>
    scopes :: (next (c scopes table).result).moments scopes (c scopes table).table
  | .declare v span next, scopes, table =>
    let declared := Scoped.declare v span scopes table
    scopes :: (next declared.result.1).moments declared.result.2 declared.table
  | .enter kind owner inner next, scopes, table =>
    let entered := scopes.push kind owner
    let left := inner.run entered table
    scopes :: inner.moments entered table ++
      (next left.result.1).moments left.result.2.pop left.table

theorem scopes_run_mem_moments (script : Script α) (scopes : ScopeStack) (table : ClassTable) :
    (script.run scopes table).result.2 ∈ script.moments scopes table := by
  induction script generalizing scopes table with
  | done a => exact List.mem_singleton_self scopes
  | look c next ih => exact List.mem_cons_of_mem _ (ih _ _ _)
  | declare v span next ih => exact List.mem_cons_of_mem _ (ih _ _ _)
  | enter kind owner inner next _ ih => exact List.mem_append_right _ (ih _ _ _)

theorem scopes_run (script : Script α) (scopes : ScopeStack) (table : ClassTable) :
    ∃ added, (script.run scopes table).result.2 = scopes.extend added := by
  induction script generalizing scopes table with
  | done a => exact ⟨[], scopes.extend_nil.symm⟩
  | look c next ih => exact ih _ _ _
  | declare v span next ih =>
    obtain ⟨added, hrest⟩ := ih (Scoped.declare v span scopes table).result.1
      (Scoped.declare v span scopes table).result.2 (Scoped.declare v span scopes table).table
    refine ⟨scopes.admitted [v] ++ added, ?_⟩
    rw [← ScopeStack.extend_extend, ← Scoped.scopes_declare v span scopes table]
    exact hrest
  | enter kind owner inner next hinner ih =>
    obtain ⟨added, hin⟩ := hinner (scopes.push kind owner) table
    have hleft : (inner.run (scopes.push kind owner) table).result.2.pop = scopes := by
      rw [hin, ScopeStack.pop_extend_push]
    obtain ⟨more, hrest⟩ := ih (inner.run (scopes.push kind owner) table).result.1
      (inner.run (scopes.push kind owner) table).result.2.pop
      (inner.run (scopes.push kind owner) table).table
    exact ⟨more, hrest.trans (congrArg (ScopeStack.extend more) hleft)⟩

theorem distinct_moments (script : Script α) {scopes : ScopeStack} (h : scopes.Distinct)
    (table : ClassTable) : ∀ moment ∈ script.moments scopes table, moment.Distinct := by
  induction script generalizing scopes table with
  | done a =>
    intro moment hm
    rwa [List.mem_singleton.mp hm]
  | look c next ih => exact List.forall_mem_cons.mpr ⟨h, ih _ h _⟩
  | declare v span next ih =>
    exact List.forall_mem_cons.mpr ⟨h, ih _ (Scoped.distinct_declare h v span table) _⟩
  | enter kind owner inner next hinner ih =>
    have hentered := hinner (h.push kind owner) table
    have hleft := hentered _ (inner.scopes_run_mem_moments _ table)
    exact List.forall_mem_cons.mpr ⟨h, List.forall_mem_append.mpr ⟨hentered, ih _ hleft.pop _⟩⟩

end Script

structure Scoped.Scripted {α : Type} (c : Scoped α) where
  script : Script α
  run_script : script.run = c

namespace Scoped.Scripted

variable {α β : Type}

def pure (a : α) : Scripted (Pure.pure a) := ⟨.done a, rfl⟩

def bind {c : Scoped α} {f : α → Scoped β} (first : Scripted c)
    (next : ∀ a, Scripted (f a)) : Scripted (c >>= f) where
  script := first.script.bind fun a => (next a).script
  run_script := by
    rw [Script.run_bind, first.run_script]
    simp only [run_script]

def reading (c : ScopeStack → Check α) : Scripted (Scoped.reading c) :=
  ⟨.look c .done, bind_pure _⟩

def lift (c : Check α) : Scripted (liftM c : Scoped α) := reading fun _ => c

def declare (v : Variable) (span : Span) : Scripted (Scoped.declare v span) :=
  ⟨.declare v span .done, bind_pure _⟩

def within {kind : ScopeKind} {owner : ScopeOwner} {c : Scoped α} (inner : Scripted c) :
    Scripted (Scoped.within kind owner c) where
  script := .enter kind owner inner.script .done
  run_script := (bind_pure _).trans (congrArg (Scoped.within kind owner) inner.run_script)

def both {c d : Scoped Bool} (first : Scripted c) (second : Scripted d) :
    Scripted (do
      let failed ← c
      let alsoFailed ← d
      return failed || alsoFailed) :=
  first.bind fun _ => second.bind fun _ => pure _

def anyFails {f : α → Scoped Bool} (each : ∀ a, Scripted (f a)) :
    (items : List α) → Scripted (ClassLang.anyFails f items)
  | [] => pure false
  | a :: rest => (each a).both (anyFails each rest)

def failsAt {f : α → Scoped Bool} (each : ∀ a, Scripted (f a)) :
    (items : List α) → Scripted (ClassLang.failsAt f items)
  | [] => pure false
  | a :: rest =>
    (each a).bind fun
      | true => pure true
      | false => failsAt each rest

def checkOptional {f : α → Scoped Bool} (each : ∀ a, Scripted (f a)) :
    (item : Option α) → Scripted (ClassLang.checkOptional f item)
  | some a => each a
  | none => pure false

end Scoped.Scripted

end ClassLang
