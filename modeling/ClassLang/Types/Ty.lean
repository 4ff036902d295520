import ClassLang.Types.ListName

namespace ClassLang

inductive Primitive where
  | bool
  | char
  | string
  | double
  | float
  | byte
  | short
  | int
  | long
  deriving DecidableEq, Repr

namespace Primitive

def all : List Primitive :=
  [.bool, .char, .string, .double, .float, .byte, .short, .int, .long]

def keyword : Primitive → String
  | .bool => "bool"
  | .char => "char"
  | .string => "string"
  | .double => "double"
  | .float => "float"
  | .byte => "byte"
  | .short => "short"
  | .int => "int"
  | .long => "long"

def ofKeyword? (word : String) : Option Primitive := all.find? (fun p => p.keyword == word)

def isNumeric : Primitive → Bool
  | .double | .float | .byte | .short | .int | .long => true
  | .bool | .char | .string => false

end Primitive

/-- The types of the language. A class is known by its name alone. -/
inductive Ty where
  | primitive (p : Primitive)
  | classRef (name : String)
  | list (element : Ty)
  | void
  deriving DecidableEq, Repr

namespace Ty

abbrev bool : Ty := .primitive .bool

def name : Ty → String
  | .primitive p => p.keyword
  | .classRef name => name
  | .list element => listName element.name
  | .void => "void"

def className? : Ty → Option String
  | .void => none
  | ty => some ty.name

def isVoid (ty : Ty) : Bool := ty == .void

def isBool (ty : Ty) : Bool := ty == .bool

def isNumeric : Ty → Bool
  | .primitive p => p.isNumeric
  | _ => false

def isOrdered (ty : Ty) : Bool := ty.isNumeric || ty == .primitive .char

end Ty

end ClassLang
