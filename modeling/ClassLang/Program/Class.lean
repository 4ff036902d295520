import ClassLang.Program.Member

namespace ClassLang

inductive ClassModifier where
  | abstract
  | concrete
  | normal
  deriving DecidableEq, Repr

def ClassModifier.title : ClassModifier → String
  | .abstract => "Abstract"
  | .concrete => "Concrete"
  | .normal => "Normal"

/-- Screens are classes that stand alone: they take no part in inheritance. -/
inductive ClassLabel where
  | plain
  | screen
  deriving DecidableEq, Repr

def ClassLabel.title : ClassLabel → String
  | .plain => "Class"
  | .screen => "Screen"

/-- A class or screen. The base is only a name, to be looked up wherever it matters, so a class
may be used before it is declared. -/
structure ClassDef where
  ident : Ident
  base : Option Ident
  modifier : ClassModifier
  label : ClassLabel
  isBackend : Bool
  isPrimitive : Bool
  members : List Member
  span : Span

namespace ClassDef

def name (c : ClassDef) : String := c.ident.text

def baseName? (c : ClassDef) : Option String := c.base.map Ident.text

def fields (c : ClassDef) : List (Member × List Declarator) :=
  c.members.filterMap fun m =>
    match m.kind with
    | .field declarators => some (m, declarators)
    | _ => none

def methods (c : ClassDef) : List (Member × Routine) :=
  c.members.filterMap fun m =>
    match m.kind with
    | .method routine => some (m, routine)
    | _ => none

def operators (c : ClassDef) : List (Member × Routine) :=
  c.members.filterMap fun m =>
    match m.kind with
    | .operator routine => some (m, routine)
    | _ => none

def findMethod? (c : ClassDef) (name : String) : Option Member :=
  (c.methods.find? fun (_, routine) => routine.name.text == name).map Prod.fst

end ClassDef

structure Program where
  classes : List ClassDef

end ClassLang
