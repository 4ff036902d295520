import ClassLang.ClassTable.Resolve
import ClassLang.Diagnostic
import ClassLang.Scope

namespace ClassLang

/-- What a check leaves behind: its result, the class table, which may have grown, and what it found
wrong, in order. -/
@[ext]
structure Outcome (α : Type) where
  result : α
  table : ClassTable
  findings : List Finding

/-- A check works on a class table and adds to a list of findings, which it can not look at. -/
def Check (α : Type) : Type := ClassTable → Outcome α

namespace Check

instance : Monad Check where
  pure a := fun table => ⟨a, table, []⟩
  bind c f := fun table =>
    let first := c table
    let second := f first.result first.table
    ⟨second.result, second.table, first.findings ++ second.findings⟩

instance : LawfulMonad Check :=
  LawfulMonad.mk' Check
    (by
      intro α c
      funext table
      exact Outcome.ext (by rfl) (by rfl) (List.append_nil _))
    (by
      intro α β a f
      rfl)
    (by
      intro α β γ c f g
      funext table
      exact Outcome.ext (by rfl) (by rfl) (List.append_assoc _ _ _))

def report (problem : Problem) (span : Span) : Check Unit :=
  fun table => ⟨(), table, [⟨problem, span⟩]⟩

def classes : Check ClassTable := fun table => ⟨table, table, []⟩

def registerAll (classes : List ClassDef) : Check Unit :=
  fun table => ⟨(), table.registerAll classes, []⟩

variable [Alphabet]

def resolve (name : String) : Check (Option Ty) := fun table =>
  let (ty, table) := table.resolve name
  ⟨ty, table, []⟩

def fail (problem : Problem) (span : Span) : Check Bool := do
  report problem span
  return true

def failIf (condition : Bool) (problem : Problem) (span : Span) : Check Bool :=
  if condition then fail problem span else return false

def refuse {α : Type} (problem : Problem) (span : Span) : Check (Option α) := do
  report problem span
  return none

def expectType (name : Ident) : Check (Option Ty) := do
  match ← resolve name.text with
  | some ty => return some ty
  | none => refuse (.typeNotFound name.text) name.span

def expectValueType (name : Ident) : Check (Option Ty) := do
  match ← expectType name with
  | some .void => refuse .invalidVoidUsage name.span
  | ty => return ty

end Check

def forEach {α β : Type} {m : Type → Type} [Monad m] (f : α → m β) : List α → m (List β)
  | [] => return []
  | a :: rest => do
    let b ← f a
    return b :: (← forEach f rest)

/-- Whether one of the checks of a list fails. All of them are made. -/
def anyFails {α : Type} {m : Type → Type} [Monad m] (f : α → m Bool) : List α → m Bool
  | [] => return false
  | a :: rest => do
    let failed ← f a
    let restFailed ← anyFails f rest
    return failed || restFailed

/-- Whether one of the checks of a list fails. None is made after one that does. -/
def failsAt {α : Type} {m : Type → Type} [Monad m] (f : α → m Bool) : List α → m Bool
  | [] => return false
  | a :: rest => do
    if ← f a then return true else failsAt f rest

/-- A check inside scopes, which it may add variables to. -/
abbrev Scoped := StateT ScopeStack Check

namespace Scoped

def reading {α : Type} (c : ScopeStack → Check α) : Scoped α := fun scopes => do
  return (← c scopes, scopes)

def declare (v : Variable) (span : Span) : Scoped Bool := fun scopes =>
  match scopes.declare v with
  | .ok scopes => return (false, scopes)
  | .error problem => do return (← Check.fail problem span, scopes)

def within {α : Type} (kind : ScopeKind) (owner : ScopeOwner) (c : Scoped α) : Scoped α :=
  fun scopes => do
    let (a, inner) ← c (scopes.push kind owner)
    return (a, inner.pop)

end Scoped

end ClassLang
