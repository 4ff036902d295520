import ClassLang.Program.Expr
import ClassLang.Types.Ty

namespace ClassLang

inductive Meaning where
  /-- A value. One that is `assignable` may stand on the left of an assignment. -/
  | value (ty : Ty) (assignable : Bool)
  /-- The name of a type, through which static members are reached. -/
  | typeName (ty : Ty)
  /-- A method of a class that is yet to be called. -/
  | method (className name : String) (throughType : Bool)
  deriving DecidableEq, Repr

namespace Meaning

def result (ty : Ty) : Meaning := .value ty false

def valueType? : Meaning → Option Ty
  | .value ty _ => some ty
  | _ => none

def isAssignable : Meaning → Bool
  | .value _ assignable => assignable
  | _ => false

def describe : Meaning → String
  | .value ty _ => ty.name
  | .typeName ty => "type " ++ ty.name
  | .method _ name _ => "method group " ++ name

end Meaning

def LiteralKind.ty : LiteralKind → Ty
  | .integer => .primitive .int
  | .real => .primitive .double
  | .string => .primitive .string
  | .char => .primitive .char
  | .boolean => .bool

end ClassLang
