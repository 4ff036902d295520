import ClassLang.Program.Reading.Expr
import ClassLang.Program.Stmt

namespace ClassLang

namespace Declarator

/-- One declared name. A node with a single child has no initial value; any other has it as its
third child. The value is read before the name. -/
def ofTree (t : Tree) : Except Malformed Declarator := do
  let t ← t.expect .fieldAtom
  let value ←
    if t.children.length = 1 then pure none
    else do pure (some (← Expr.ofTree (← t.child 2)))
  return ⟨← Ident.ofTree (← t.child 0), value, t.span⟩

def listOfTree (t : Tree) : Except Malformed (List Declarator) := do
  (← t.expect .fieldAtomList).children.mapM ofTree

end Declarator

def Declaration.ofTree (t : Tree) : Except Malformed Declaration := do
  let t ← t.expect .declarationStatement
  let typeName ← Ident.ofTree (← t.child 0)
  let declarators ← Declarator.listOfTree (← t.child 1)
  return ⟨typeName, declarators, t.span⟩

def ForInit.ofTree (t : Tree) : Except Malformed ForInit := do
  if t.rule = .declarationStatement then return .declaration (← Declaration.ofTree t)
  else return .expression (← Expr.ofTree t)

namespace Stmt

mutual

/-- The statement that a tree stands for. Of an `if`, the `else` is read first. -/
def ofTree : Tree → Except Malformed Stmt
  | t@⟨.block, _, children⟩ => do
    return .block (← t.require 1 (listAt? children 1)) t.span
  | t@⟨.continueStatement, _, _⟩ => return .continueLoop t.span
  | t@⟨.breakStatement, _, _⟩ => return .breakLoop t.span
  | t@⟨.returnStatement, _, [_, value, _]⟩ => do return .ret (some (← Expr.ofTree value)) t.span
  | t@⟨.returnStatement, _, _⟩ => return .ret none t.span
  | t@⟨.declarationStatement, _, _⟩ => do return .declaration (← Declaration.ofTree t)
  | t@⟨.whileStatement, _, children⟩ => do
    let condition ← Expr.ofTree (← t.child 2)
    let body ← t.require 4 (at? children 4)
    return .whileLoop condition body t.span
  | t@⟨.doWhileStatement, _, children⟩ => do
    let body ← t.require 1 (at? children 1)
    let condition ← Expr.ofTree (← t.child 4)
    return .doLoop body condition t.span
  | t@⟨.ifStatement, _, children⟩ => do
    let otherwise ← t.require 5 (elseAt? children 5)
    let condition ← Expr.ofTree (← t.child 2)
    let thenBranch ← t.require 4 (at? children 4)
    match otherwise with
    | some elseBranch => return .ifElse condition thenBranch elseBranch t.span
    | none => return .ifThen condition thenBranch t.span
  | t@⟨.forStatement, _, children⟩ => do
    let init ← t.optionalPart 2 .forInit ForInit.ofTree
    let condition ← t.optionalPart 4 .forCondition Expr.ofTree
    let step ← t.optionalPart 6 .forStep Expr.ofTree
    let body ← t.require 8 (at? children 8)
    return .forLoop init condition step body t.span
  | t@⟨.expressionStatement, _, _⟩ => do
    return .expression (← Expr.ofTree (← t.child 0)) t.span
  | t => .error (.invalidNode t.rule .statement)
termination_by structural t => t

def at? : List Tree → Nat → Option (Except Malformed Stmt)
  | [], _ => none
  | t :: _, 0 => some (ofTree t)
  | _ :: ts, index + 1 => at? ts index

def elseAt? : List Tree → Nat → Option (Except Malformed (Option Stmt))
  | [], _ => none
  | t@⟨.elseClause, _, children⟩ :: _, 0 =>
    some (if children.isEmpty then .ok none else (t.require 1 (at? children 1)).map some)
  | t :: _, 0 => some (.error (.unexpectedRule .elseClause t.rule))
  | _ :: ts, index + 1 => elseAt? ts index

def listAt? : List Tree → Nat → Option (Except Malformed (List Stmt))
  | [], _ => none
  | ⟨.statementList, _, statements⟩ :: _, 0 => some (ofTrees statements)
  | t :: _, 0 => some (.error (.unexpectedRule .statementList t.rule))
  | _ :: ts, index + 1 => listAt? ts index

def ofTrees : List Tree → Except Malformed (List Stmt)
  | [] => return []
  | t :: ts => do
    let s ← ofTree t
    return s :: (← ofTrees ts)

end

theorem at?_eq_map (ts : List Tree) (index : Nat) : at? ts index = ts[index]?.map ofTree := by
  induction ts generalizing index with
  | nil => simp [at?]
  | cons t ts ih =>
    cases index with
    | zero => simp [at?]
    | succ index => simp [at?, ih]

end Stmt

def Block.ofTree (t : Tree) : Except Malformed Block := do
  let t ← t.expect .block
  return ⟨← t.require 1 (Stmt.listAt? t.children 1), t.span⟩

end ClassLang
