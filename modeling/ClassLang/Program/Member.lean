import ClassLang.Program.Stmt

namespace ClassLang

inductive Visibility where
  | everywhere
  | inClass
  /-- In the owning class and the classes derived from it. -/
  | inFamily
  deriving DecidableEq, Repr

def Visibility.title : Visibility → String
  | .everywhere => "Public"
  | .inClass => "Private"
  | .inFamily => "Protected"

inductive MemberModifier where
  | normal
  | virtual
  | abstract
  | override
  deriving DecidableEq, Repr

def MemberModifier.title : MemberModifier → String
  | .normal => "Normal"
  | .virtual => "Virtual"
  | .abstract => "Abstract"
  | .override => "Override"

structure Parameter where
  typeName : Ident
  name : Ident
  deriving DecidableEq, Repr

def Parameter.provided (typeName name : String) : Parameter :=
  ⟨.provided typeName, .provided name⟩

/-- The part that methods and operators share. The name of an operator is its symbol. -/
structure Routine where
  name : Ident
  parameters : List Parameter
  body : Option Block

inductive MemberKind where
  | field (declarators : List Declarator)
  | method (routine : Routine)
  | operator (routine : Routine)

structure Member where
  visibility : Visibility
  modifier : MemberModifier
  isStatic : Bool
  /-- The type of a field, or the return type of a method or operator. -/
  declaredType : Ident
  owner : String
  span : Span
  kind : MemberKind

namespace Member

def routine? (m : Member) : Option Routine :=
  match m.kind with
  | .field _ => none
  | .method routine | .operator routine => some routine

/-- A field declaration goes by the first name it declares. -/
def name (m : Member) : String :=
  match m.kind with
  | .field [] => ""
  | .field (declarator :: _) => declarator.name.text
  | .method routine | .operator routine => routine.name.text

def parameters (m : Member) : List Parameter :=
  match m.routine? with
  | some routine => routine.parameters
  | none => []

def parameterTypes (m : Member) : List String := m.parameters.map (fun p => p.typeName.text)

def body? (m : Member) : Option Block := m.routine?.bind Routine.body

/-- Same name, same parameter types in the same order, same declared type. -/
def sameSignature (m n : Member) : Bool :=
  m.name == n.name && m.declaredType.text == n.declaredType.text
    && m.parameterTypes == n.parameterTypes

/-- The key under which an operator must be the only one in its class: the symbol, the number of
parameters and the names of their types, joined by underscores. -/
def operatorKey? (m : Member) : Option String :=
  match m.kind with
  | .operator routine =>
    some (routine.parameters.foldl (fun key p => key ++ "_" ++ p.typeName.text)
      (routine.name.text ++ "_" ++ toString routine.parameters.length))
  | _ => none

end Member

end ClassLang
