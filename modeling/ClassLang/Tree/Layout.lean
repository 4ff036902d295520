import ClassLang.Tree.Basic

namespace ClassLang

/-- The words in front of a class body, as they are to be written. They need not be known
keywords. -/
structure ClassHeader where
  name : String
  base : Option String := none
  modifier : Option String := none
  label : String := "class"
  isPrimitive : Bool := false
  isBackend : Bool := false

structure MemberHeader where
  typeName : String
  accessor : Option String := none
  modifier : Option String := none
  isStatic : Bool := false

/-- Trees laid out on one line: the state is the first free column, and every terminal takes one.
The subtrees of a node are laid out before it, so its own terminals come after theirs, in the
order in which the functions below ask for them. -/
abbrev Layout := StateM UInt32

namespace Layout

def terminal (rule : Rule) (text : String) : Layout Tree :=
  fun column => (.leaf rule text ⟨0, column, column⟩, column + 1)

def identifier (text : String) : Layout Tree := terminal .identifier text

def keyword (text : String) : Layout Tree := terminal .keyword text

def punctuation (text : String) : Layout Tree := terminal .punctuation text

def operatorToken (text : String) : Layout Tree := terminal .operator text

def integer (text : String) : Layout Tree := terminal .integerLiteral text

def real (text : String) : Layout Tree := terminal .realLiteral text

def string (text : String) : Layout Tree := terminal .stringLiteral text

def character (text : String) : Layout Tree := terminal .charLiteral text

def boolean (value : Bool) : Layout Tree :=
  terminal .booleanLiteral (if value then "true" else "false")

def optional (rule : Rule) (content : Option Tree) : Tree := .node rule content.toList

def optionalKeyword (rule : Rule) : Option String → Layout Tree
  | some word => do return optional rule (some (← keyword word))
  | none => return optional rule none

def marker (rule : Rule) (word : String) (isPresent : Bool) : Layout Tree :=
  optionalKeyword rule (if isPresent then some word else none)

def baseClause : Option String → Layout Tree
  | some base => do return .node .baseClause [← punctuation ":", ← identifier base]
  | none => return .node .baseClause []

def program (classes : List Tree) : Tree := .node .program classes

/-- A class. The base clause is laid out before the words that it follows in the row. -/
def classDefinition (header : ClassHeader) (members : List Tree) : Layout Tree := do
  let base ← baseClause header.base
  return .node .classDefinition [
    ← optionalKeyword .classModifier header.modifier,
    ← marker .primitiveMarker "primitive" header.isPrimitive,
    ← marker .backendMarker "backend" header.isBackend,
    ← keyword header.label,
    ← identifier header.name,
    base,
    ← punctuation "\x7b",
    .node .memberList members,
    ← punctuation "\x7d"]

def memberHeader (header : MemberHeader) : Layout (List Tree) := do
  return [
    ← optionalKeyword .accessor header.accessor,
    ← optionalKeyword .memberModifier header.modifier,
    ← marker .staticMarker "static" header.isStatic,
    ← identifier header.typeName]

def fieldAtom (name : String) : Option Tree → Layout Tree
  | some value => do return .node .fieldAtom [← identifier name, ← operatorToken "=", value]
  | none => do return .node .fieldAtom [← identifier name]

def field (header : MemberHeader) (atoms : List Tree) : Layout Tree := do
  let words ← memberHeader header
  return .node .fieldDefinition (words ++ [.node .fieldAtomList atoms, ← punctuation ";"])

def parameter (typeName name : String) : Layout Tree := do
  return .node .parameter [← identifier typeName, ← identifier name]

def parameterRow : List (String × String) → Layout (List Tree)
  | [] => return []
  | (typeName, name) :: rest => do
    let first ← parameter typeName name
    return first :: (← parameterRow rest)

def parameterList (parameters : List (String × String)) : Layout Tree := do
  return .node .parameterList (← parameterRow parameters)

/-- The body of a method or operator; a missing one is written `;`. -/
def body : Option Tree → Layout Tree
  | some block => return block
  | none => punctuation ";"

def method (header : MemberHeader) (name : String) (parameters : List (String × String))
    (block : Option Tree) : Layout Tree := do
  let words ← memberHeader header
  return .node .methodDefinition (words ++ [
    ← identifier name,
    ← punctuation "(",
    ← parameterList parameters,
    ← punctuation ")",
    ← body block])

def operator (header : MemberHeader) (symbol : String) (parameters : List (String × String))
    (block : Option Tree) : Layout Tree := do
  let words ← memberHeader header
  return .node .operatorDefinition (words ++ [
    ← keyword "operator",
    ← operatorToken symbol,
    ← punctuation "(",
    ← parameterList parameters,
    ← punctuation ")",
    ← body block])

def block (statements : List Tree) : Layout Tree := do
  return .node .block [← punctuation "\x7b", .node .statementList statements, ← punctuation "\x7d"]

def returnStatement : Option Tree → Layout Tree
  | some value => do return .node .returnStatement [← keyword "return", value, ← punctuation ";"]
  | none => do return .node .returnStatement [← keyword "return", ← punctuation ";"]

def breakStatement : Layout Tree := do
  return .node .breakStatement [← keyword "break", ← punctuation ";"]

def continueStatement : Layout Tree := do
  return .node .continueStatement [← keyword "continue", ← punctuation ";"]

def declaration (typeName : String) (atoms : List Tree) : Layout Tree := do
  return .node .declarationStatement
    [← identifier typeName, .node .fieldAtomList atoms, ← punctuation ";"]

def whileStatement (condition body : Tree) : Layout Tree := do
  return .node .whileStatement
    [← keyword "while", ← punctuation "(", condition, ← punctuation ")", body]

def doWhileStatement (body condition : Tree) : Layout Tree := do
  return .node .doWhileStatement [
    ← keyword "do", body, ← keyword "while", ← punctuation "(", condition, ← punctuation ")",
    ← punctuation ";"]

def elseClause : Option Tree → Layout Tree
  | some branch => do return .node .elseClause [← keyword "else", branch]
  | none => return .node .elseClause []

/-- A conditional. Its `else` is laid out before its `if`. -/
def ifStatement (condition thenBranch : Tree) (elseBranch : Option Tree) : Layout Tree := do
  let otherwise ← elseClause elseBranch
  return .node .ifStatement [
    ← keyword "if", ← punctuation "(", condition, ← punctuation ")", thenBranch, otherwise]

def forStatement (init condition step : Option Tree) (body : Tree) : Layout Tree := do
  return .node .forStatement [
    ← keyword "for", ← punctuation "(", optional .forInit init, ← punctuation ";",
    optional .forCondition condition, ← punctuation ";", optional .forStep step,
    ← punctuation ")", body]

def expressionStatement (expression : Tree) : Layout Tree := do
  return .node .expressionStatement [expression, ← punctuation ";"]

def memberAccess (target : Tree) (name : String) : Layout Tree := do
  return .node .memberAccess [target, ← punctuation ".", ← identifier name]

def call (callee : Tree) (arguments : List Tree) : Layout Tree := do
  return .node .methodCall
    [callee, ← punctuation "(", .node .argumentList arguments, ← punctuation ")"]

def newObject (className : String) (arguments : List Tree) : Layout Tree := do
  return .node .newExpression [
    ← keyword "new", ← identifier className, ← punctuation "(", .node .argumentList arguments,
    ← punctuation ")"]

def unary (symbol : String) (operand : Tree) : Layout Tree := do
  return .node .unaryExpression [← operatorToken symbol, operand]

def binary (left : Tree) (symbol : String) (right : Tree) : Layout Tree := do
  return .node .binaryExpression [left, ← operatorToken symbol, right]

def assignment (target : Tree) (symbol : String) (value : Tree) : Layout Tree := do
  return .node .assignmentExpression [target, ← operatorToken symbol, value]

def parenthesized (expression : Tree) : Layout Tree := do
  return .node .parenthesizedExpression [← punctuation "(", expression, ← punctuation ")"]

end Layout

end ClassLang
