import ClassLang.Program.Expr

namespace ClassLang

structure Declarator where
  name : Ident
  value : Option Expr
  span : Span

structure Declaration where
  typeName : Ident
  declarators : List Declarator
  span : Span

inductive ForInit where
  | declaration (declaration : Declaration)
  | expression (expression : Expr)

/-- Statements. A conditional with `else` and one without are told apart. -/
inductive Stmt where
  | block (statements : List Stmt) (span : Span)
  | continueLoop (span : Span)
  | breakLoop (span : Span)
  | ret (value : Option Expr) (span : Span)
  | declaration (declaration : Declaration)
  | whileLoop (condition : Expr) (body : Stmt) (span : Span)
  | doLoop (body : Stmt) (condition : Expr) (span : Span)
  | ifThen (condition : Expr) (thenBranch : Stmt) (span : Span)
  | ifElse (condition : Expr) (thenBranch elseBranch : Stmt) (span : Span)
  | forLoop (init : Option ForInit) (condition step : Option Expr) (body : Stmt) (span : Span)
  | expression (expression : Expr) (span : Span)

structure Block where
  statements : List Stmt
  span : Span

namespace Stmt

def span : Stmt → Span
  | .declaration d => d.span
  | .block _ span | .continueLoop span | .breakLoop span | .ret _ span | .whileLoop _ _ span
  | .doLoop _ _ span | .ifThen _ _ span | .ifElse _ _ _ span | .forLoop _ _ _ _ span
  | .expression _ span => span

mutual

/-- Whether a statement counts as returning on every path: a `return` does, a block that has such a
statement, an `if` both of whose branches do, and a `do` whose body does. The body of a `while` or
`for` may never run. Jumps out of loops are not followed. -/
def alwaysReturns : Stmt → Bool
  | .ret .. => true
  | .block statements _ => anyAlwaysReturns statements
  | .ifElse _ thenBranch elseBranch _ => thenBranch.alwaysReturns && elseBranch.alwaysReturns
  | .doLoop body _ _ => body.alwaysReturns
  | .continueLoop .. | .breakLoop .. | .declaration .. | .whileLoop .. | .ifThen .. | .forLoop ..
  | .expression .. => false

def anyAlwaysReturns : List Stmt → Bool
  | [] => false
  | s :: rest => s.alwaysReturns || anyAlwaysReturns rest

end

end Stmt

def Block.toStmt (b : Block) : Stmt := .block b.statements b.span

def Block.alwaysReturns (b : Block) : Bool := Stmt.anyAlwaysReturns b.statements

end ClassLang
