import ClassLang.Program.Expr
import ClassLang.Tree.Basic

namespace ClassLang

def Ident.ofTree (t : Tree) : Except Malformed Ident := do
  let t ← t.expect .identifier
  return ⟨← t.text, t.span⟩

namespace Expr

def literalOfTree (kind : LiteralKind) (t : Tree) : Except Malformed Expr := do
  return .literal kind (← t.text) t.span

mutual

/-- The expression that a tree stands for. Parentheses leave no trace: they stand for what is inside
them, with its span. -/
def ofTree : Tree → Except Malformed Expr
  | t@⟨.identifier, _, _⟩ => do return .ident (← Ident.ofTree t)
  | t@⟨.integerLiteral, _, _⟩ => literalOfTree .integer t
  | t@⟨.realLiteral, _, _⟩ => literalOfTree .real t
  | t@⟨.stringLiteral, _, _⟩ => literalOfTree .string t
  | t@⟨.charLiteral, _, _⟩ => literalOfTree .char t
  | t@⟨.booleanLiteral, _, _⟩ => literalOfTree .boolean t
  | t@⟨.parenthesizedExpression, _, children⟩ => t.require 1 (at? children 1)
  | t@⟨.memberAccess, _, children⟩ => do
    let target ← t.require 0 (at? children 0)
    let name ← Ident.ofTree (← t.child 2)
    return .member target name t.span
  | t@⟨.methodCall, _, children⟩ => do
    let callee ← t.require 0 (at? children 0)
    let arguments ← t.require 2 (argumentsAt? children 2)
    return .call callee arguments t.span
  | t@⟨.newExpression, _, children⟩ => do
    let className ← Ident.ofTree (← t.child 1)
    let arguments ← t.require 3 (argumentsAt? children 3)
    return .new className arguments t.span
  | t@⟨.unaryExpression, _, children⟩ => do
    let operator ← (← t.child 0).text
    let operand ← t.require 1 (at? children 1)
    return .unary operator operand t.span
  | t@⟨.binaryExpression, _, children⟩ => do
    let left ← t.require 0 (at? children 0)
    let operator ← (← t.child 1).text
    let right ← t.require 2 (at? children 2)
    return .binary left operator right t.span
  | t@⟨.assignmentExpression, _, children⟩ => do
    let target ← t.require 0 (at? children 0)
    let operator ← (← t.child 1).text
    let value ← t.require 2 (at? children 2)
    return .assign target operator value t.span
  | t => .error (.invalidNode t.rule .expression)
termination_by structural t => t

def at? : List Tree → Nat → Option (Except Malformed Expr)
  | [], _ => none
  | t :: _, 0 => some (ofTree t)
  | _ :: ts, index + 1 => at? ts index

def argumentsAt? : List Tree → Nat → Option (Except Malformed (List Expr))
  | [], _ => none
  | ⟨.argumentList, _, arguments⟩ :: _, 0 => some (ofTrees arguments)
  | t :: _, 0 => some (.error (.unexpectedRule .argumentList t.rule))
  | _ :: ts, index + 1 => argumentsAt? ts index

def ofTrees : List Tree → Except Malformed (List Expr)
  | [] => return []
  | t :: ts => do
    let e ← ofTree t
    return e :: (← ofTrees ts)

end

theorem at?_eq_map (ts : List Tree) (index : Nat) : at? ts index = ts[index]?.map ofTree := by
  induction ts generalizing index with
  | nil => simp [at?]
  | cons t ts ih =>
    cases index with
    | zero => simp [at?]
    | succ index => simp [at?, ih]

end Expr

end ClassLang
