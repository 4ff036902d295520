import ClassLang.Diagnostic
import ClassLang.Program.Class
import ClassLang.Types.Ty

namespace ClassLang

inductive ScopeKind where
  | classBody
  | function
  | loop
  | block
  deriving DecidableEq, Repr

inductive ScopeOwner where
  | classDef (c : ClassDef)
  | member (m : Member)
  /-- A statement or block inside a member. -/
  | code

structure Variable where
  name : String
  ty : Ty
  assignable : Bool
  deriving DecidableEq, Repr

structure Scope where
  kind : ScopeKind
  owner : ScopeOwner
  declared : List Variable

def Scope.find? (s : Scope) (name : String) : Option Variable :=
  s.declared.find? (fun v => v.name == name)

/-- The scopes around a place in a program, innermost first. -/
abbrev ScopeStack := List Scope

namespace ScopeStack

def push (scopes : ScopeStack) (kind : ScopeKind) (owner : ScopeOwner) : ScopeStack :=
  ⟨kind, owner, []⟩ :: scopes

def pop (scopes : ScopeStack) : ScopeStack := scopes.tail

def lookup? (scopes : ScopeStack) (name : String) : Option Variable :=
  scopes.findSome? (fun s => s.find? name)

/-- Declare a variable in the innermost scope. A name that is visible from any scope can not be
declared again, so nothing is ever hidden. -/
def declare (scopes : ScopeStack) (v : Variable) : Except Problem ScopeStack :=
  if (scopes.lookup? v.name).isSome then .error (.itemAlreadyDefined v.name)
  else
    match scopes with
    | [] => .error (.identifierNotFound v.name)
    | s :: outer => .ok (⟨s.kind, s.owner, s.declared ++ [v]⟩ :: outer)

def hasKind (scopes : ScopeStack) (kind : ScopeKind) : Bool := scopes.any (fun s => s.kind == kind)

def currentClass? (scopes : ScopeStack) : Option ClassDef :=
  scopes.findSome? fun s =>
    match s.owner with
    | .classDef c => some c
    | _ => none

def currentMember? (scopes : ScopeStack) : Option Member :=
  scopes.findSome? fun s =>
    match s.owner with
    | .member m => some m
    | _ => none

end ScopeStack

end ClassLang
