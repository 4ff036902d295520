import ClassLang.Program.Class
import ClassLang.Tree.Layout

namespace ClassLang

/-- What is left open where a program is laid out. An expression takes a column of its own after its
parts, so no two of them end at the same one and a style can treat each as it likes. -/
structure Style where
  /-- How many pairs of parentheses go around the expression that ends before a column. -/
  parentheses : UInt32 → Nat
  /-- Whether a member that only its class may name says so, if its header starts at a column. -/
  spellsPrivate : UInt32 → Bool

namespace Layout

def literal : LiteralKind → String → Layout Tree
  | .integer, text => integer text
  | .real, text => real text
  | .string, text => string text
  | .char, text => character text
  | .boolean, text => boolean (text == "true")

def enclosed : Nat → Tree → Layout Tree
  | 0, expression => return expression
  | pairs + 1, expression => do enclosed pairs (← parenthesized expression)

end Layout

open Layout

def Style.around (style : Style) (expression : Tree) : Layout Tree := do
  enclosed (style.parentheses (← get)) expression

mutual

def Expr.layout (style : Style) : Expr → Layout Tree
  | .literal kind text _ => do style.around (← Layout.literal kind text)
  | .ident name => do style.around (← identifier name.text)
  | .member target name _ => do style.around (← memberAccess (← target.layout style) name.text)
  | .call callee arguments _ => do
    let callee ← callee.layout style
    style.around (← Layout.call callee (← Expr.layoutAll style arguments))
  | .new className arguments _ => do
    style.around (← newObject className.text (← Expr.layoutAll style arguments))
  | .unary operator operand _ => do
    style.around (← Layout.unary operator (← operand.layout style))
  | .binary left operator right _ => do
    let left ← left.layout style
    style.around (← Layout.binary left operator (← right.layout style))
  | .assign target operator value _ => do
    let target ← target.layout style
    style.around (← assignment target operator (← value.layout style))

def Expr.layoutAll (style : Style) : List Expr → Layout (List Tree)
  | [] => return []
  | e :: rest => do
    let first ← e.layout style
    return first :: (← Expr.layoutAll style rest)

end

def Declarator.layout (style : Style) (d : Declarator) : Layout Tree := do
  fieldAtom d.name.text (← d.value.mapM (Expr.layout style))

def Declaration.layout (style : Style) (d : Declaration) : Layout Tree := do
  Layout.declaration d.typeName.text (← d.declarators.mapM (Declarator.layout style))

def ForInit.layout (style : Style) : ForInit → Layout Tree
  | .declaration d => d.layout style
  | .expression e => e.layout style

mutual

def Stmt.layout (style : Style) : Stmt → Layout Tree
  | .block statements _ => do Layout.block (← Stmt.layoutAll style statements)
  | .continueLoop _ => continueStatement
  | .breakLoop _ => breakStatement
  | .ret value _ => do returnStatement (← value.mapM (Expr.layout style))
  | .declaration d => d.layout style
  | .whileLoop condition body _ => do
    let condition ← condition.layout style
    whileStatement condition (← body.layout style)
  | .doLoop body condition _ => do
    let body ← body.layout style
    doWhileStatement body (← condition.layout style)
  | .ifThen condition thenBranch _ => do
    let condition ← condition.layout style
    ifStatement condition (← thenBranch.layout style) none
  | .ifElse condition thenBranch elseBranch _ => do
    let condition ← condition.layout style
    let thenBranch ← thenBranch.layout style
    ifStatement condition thenBranch (some (← elseBranch.layout style))
  | .forLoop init condition step body _ => do
    let init ← init.mapM (ForInit.layout style)
    let condition ← condition.mapM (Expr.layout style)
    let step ← step.mapM (Expr.layout style)
    forStatement init condition step (← body.layout style)
  | .expression e _ => do expressionStatement (← e.layout style)

def Stmt.layoutAll (style : Style) : List Stmt → Layout (List Tree)
  | [] => return []
  | s :: rest => do
    let first ← s.layout style
    return first :: (← Stmt.layoutAll style rest)

end

def Block.layout (style : Style) (b : Block) : Layout Tree := b.toStmt.layout style

def Parameter.words (p : Parameter) : String × String := (p.typeName.text, p.name.text)

def Visibility.keyword? (spellsPrivate : Bool) : Visibility → Option String
  | .everywhere => some "public"
  | .inClass => if spellsPrivate then some "private" else none
  | .inFamily => some "protected"

def MemberModifier.keyword? : MemberModifier → Option String
  | .normal => none
  | .virtual => some "virtual"
  | .abstract => some "abstract"
  | .override => some "override"

def Member.header (m : Member) (spellsPrivate : Bool) : MemberHeader where
  typeName := m.declaredType.text
  accessor := m.visibility.keyword? spellsPrivate
  modifier := m.modifier.keyword?
  isStatic := m.isStatic

def Member.layout (style : Style) (m : Member) : Layout Tree :=
  match m.kind with
  | .field declarators => do
    let atoms ← declarators.mapM (Declarator.layout style)
    field (m.header (style.spellsPrivate (← get))) atoms
  | .method r => do
    let body ← r.body.mapM (Block.layout style)
    method (m.header (style.spellsPrivate (← get))) r.name.text (r.parameters.map Parameter.words)
      body
  | .operator r => do
    let body ← r.body.mapM (Block.layout style)
    operator (m.header (style.spellsPrivate (← get))) r.name.text
      (r.parameters.map Parameter.words) body

def ClassModifier.keyword? : ClassModifier → Option String
  | .abstract => some "abstract"
  | .concrete => some "concrete"
  | .normal => none

def ClassLabel.keyword : ClassLabel → String
  | .plain => "class"
  | .screen => "screen"

def ClassDef.header (c : ClassDef) : ClassHeader where
  name := c.name
  base := c.baseName?
  modifier := c.modifier.keyword?
  label := c.label.keyword
  isPrimitive := c.isPrimitive
  isBackend := c.isBackend

def ClassDef.layout (style : Style) (c : ClassDef) : Layout Tree := do
  classDefinition c.header (← c.members.mapM (Member.layout style))

def Program.layout (style : Style) (p : Program) : Layout Tree := do
  return Layout.program (← p.classes.mapM (ClassDef.layout style))

end ClassLang
