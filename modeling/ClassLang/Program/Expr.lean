import ClassLang.Source.Span

namespace ClassLang

/-- A name as it is written, with its place. Classes, types, members and variables are all named
so. -/
structure Ident where
  text : String
  span : Span
  deriving DecidableEq, Repr

/-- A name that stands in no source text. -/
def Ident.provided (text : String) : Ident := ⟨text, .nowhere⟩

inductive LiteralKind where
  | integer
  | real
  | string
  | char
  | boolean
  deriving DecidableEq, Repr

def LiteralKind.title : LiteralKind → String
  | .integer => "Integer"
  | .real => "Real"
  | .string => "String"
  | .char => "Char"
  | .boolean => "Boolean"

/-- Expressions. Operators are kept as they are written, since a class may define any symbol. -/
inductive Expr where
  | literal (kind : LiteralKind) (text : String) (span : Span)
  /-- A variable, a type name, a method of the current class, or `this`. -/
  | ident (name : Ident)
  | member (target : Expr) (name : Ident) (span : Span)
  | call (callee : Expr) (arguments : List Expr) (span : Span)
  | new (className : Ident) (arguments : List Expr) (span : Span)
  | unary (operator : String) (operand : Expr) (span : Span)
  | binary (left : Expr) (operator : String) (right : Expr) (span : Span)
  | assign (target : Expr) (operator : String) (value : Expr) (span : Span)

def Expr.span : Expr → Span
  | .ident name => name.span
  | .literal _ _ span | .member _ _ span | .call _ _ span | .new _ _ span | .unary _ _ span
  | .binary _ _ _ span | .assign _ _ _ span => span

end ClassLang
