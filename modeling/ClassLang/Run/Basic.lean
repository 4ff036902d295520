import ClassLang.ClassTable.Resolve
import ClassLang.Diagnostic
import ClassLang.Scope

namespace ClassLang

/-- A series of checks on a file: the classes known so far, and the diagnostics made so far. -/
structure Context where
  file : String
  diagnostics : List Diagnostic := []
  classes : ClassTable := .empty

/-- What is done to a context, all of which it may read and write. -/
abbrev Run := StateM Context

abbrev ScopedRun := StateT ScopeStack Run

namespace Run

/-- File a problem under the current file, behind all that was found before. -/
def report (problem : Problem) (span : Span) : Run Unit :=
  modify fun ctx =>
    { ctx with diagnostics := ctx.diagnostics ++ [Finding.inFile ⟨problem, span⟩ ctx.file] }

def failIf (condition : Bool) (problem : Problem) (span : Span) : Run Bool := do
  if condition then
    report problem span
  return condition

def classes : Run ClassTable := return (← get).classes

def register (c : ClassDef) : Run Unit :=
  modify fun ctx => { ctx with classes := ctx.classes.register c }

variable [Alphabet]

def resolve (name : String) : Run (Option Ty) := do
  let ctx ← get
  let (ty, classes) := ctx.classes.resolve name
  set { ctx with classes }
  return ty

def expectType (name : Ident) : Run (Option Ty) := do
  let resolved ← resolve name.text
  if resolved.isNone then
    report (.typeNotFound name.text) name.span
  return resolved

def expectValueType (name : Ident) : Run (Option Ty) := do
  let some ty ← expectType name | return none
  if ty.isVoid then
    report .invalidVoidUsage name.span
    return none
  return some ty

end Run

namespace ScopedRun

def declare (v : Variable) (span : Span) : ScopedRun Bool := do
  match (← get).declare v with
  | .ok scopes =>
    set scopes
    return false
  | .error problem =>
    Run.report problem span
    return true

def within {α : Type} (kind : ScopeKind) (owner : ScopeOwner) (run : ScopedRun α) :
    ScopedRun α := do
  modify (·.push kind owner)
  let a ← run
  modify ScopeStack.pop
  return a

end ScopedRun

end ClassLang
