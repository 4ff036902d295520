namespace ClassLang

/-- The rules of the grammar. Where a rule has a fixed row of children it is given here. An
optional part (`classModifier`, `forInit`, ...) always stands in its row, as a node with no child
or one, so the places of the others never shift. -/
inductive Rule where
  /-- Holds the class definitions only. -/
  | program
  /-- The row `[classModifier, primitiveMarker, backendMarker, label, identifier, baseClause,
  {, memberList, }]`. -/
  | classDefinition
  | classModifier
  | primitiveMarker
  | backendMarker
  /-- The row `[]` or `[:, identifier]`. -/
  | baseClause
  | memberList
  /-- The row `[accessor, memberModifier, staticMarker, type, fieldAtomList, ;]`. -/
  | fieldDefinition
  /-- The row `[accessor, memberModifier, staticMarker, type, identifier, (, parameterList, ),
  body]`, the body a block or `;`. -/
  | methodDefinition
  /-- The row `[accessor, memberModifier, staticMarker, type, operator, symbol, (, parameterList, ),
  body]`, the body a block or `;`. -/
  | operatorDefinition
  | accessor
  | memberModifier
  | staticMarker
  | fieldAtomList
  /-- The row `[identifier]` or `[identifier, =, expression]`. -/
  | fieldAtom
  | parameterList
  /-- The row `[type, identifier]`. -/
  | parameter
  /-- The row `[{, statementList, }]`. -/
  | block
  | statementList
  /-- The row `[return, ;]` or `[return, expression, ;]`. -/
  | returnStatement
  | breakStatement
  | continueStatement
  /-- The row `[type, fieldAtomList, ;]`, where the `;` may be missing. -/
  | declarationStatement
  /-- The row `[while, (, condition, ), statement]`. -/
  | whileStatement
  /-- The row `[do, statement, while, (, condition, ), ;]`. -/
  | doWhileStatement
  /-- The row `[if, (, condition, ), statement, elseClause]`. -/
  | ifStatement
  /-- The row `[]` or `[else, statement]`. -/
  | elseClause
  /-- The row `[for, (, forInit, ;, forCondition, ;, forStep, ), statement]`. -/
  | forStatement
  | forInit
  | forCondition
  | forStep
  /-- The row `[expression, ;]`. -/
  | expressionStatement
  /-- The row `[target, ., identifier]`. -/
  | memberAccess
  /-- The row `[callee, (, argumentList, )]`. -/
  | methodCall
  /-- Holds the argument expressions only. -/
  | argumentList
  /-- The row `[new, identifier, (, argumentList, )]`. -/
  | newExpression
  /-- The row `[operator, operand]`. -/
  | unaryExpression
  /-- The row `[left, operator, right]`. -/
  | binaryExpression
  /-- The row `[target, operator, value]`. -/
  | assignmentExpression
  /-- The row `[(, expression, )]`. -/
  | parenthesizedExpression
  | identifier
  | integerLiteral
  | realLiteral
  | stringLiteral
  | charLiteral
  | booleanLiteral
  | keyword
  | operator
  | punctuation
  deriving DecidableEq, Repr

namespace Rule

def name : Rule → String
  | .program => "Program"
  | .classDefinition => "ClassDefinition"
  | .classModifier => "ClassModifier"
  | .primitiveMarker => "PrimitiveMarker"
  | .backendMarker => "BackendMarker"
  | .baseClause => "BaseClause"
  | .memberList => "MemberList"
  | .fieldDefinition => "FieldDefinition"
  | .methodDefinition => "MethodDefinition"
  | .operatorDefinition => "OperatorDefinition"
  | .accessor => "Accessor"
  | .memberModifier => "MemberModifier"
  | .staticMarker => "StaticMarker"
  | .fieldAtomList => "FieldAtomList"
  | .fieldAtom => "FieldAtom"
  | .parameterList => "ParameterList"
  | .parameter => "Parameter"
  | .block => "Block"
  | .statementList => "StatementList"
  | .returnStatement => "ReturnStatement"
  | .breakStatement => "BreakStatement"
  | .continueStatement => "ContinueStatement"
  | .declarationStatement => "DeclarationStatement"
  | .whileStatement => "WhileStatement"
  | .doWhileStatement => "DoWhileStatement"
  | .ifStatement => "IfStatement"
  | .elseClause => "ElseClause"
  | .forStatement => "ForStatement"
  | .forInit => "ForInit"
  | .forCondition => "ForCondition"
  | .forStep => "ForStep"
  | .expressionStatement => "ExpressionStatement"
  | .memberAccess => "MemberAccess"
  | .methodCall => "MethodCall"
  | .argumentList => "ArgumentList"
  | .newExpression => "NewExpression"
  | .unaryExpression => "UnaryExpression"
  | .binaryExpression => "BinaryExpression"
  | .assignmentExpression => "AssignmentExpression"
  | .parenthesizedExpression => "ParenthesizedExpression"
  | .identifier => "Identifier"
  | .integerLiteral => "IntegerLiteral"
  | .realLiteral => "RealLiteral"
  | .stringLiteral => "StringLiteral"
  | .charLiteral => "CharLiteral"
  | .booleanLiteral => "BooleanLiteral"
  | .keyword => "Keyword"
  | .operator => "Operator"
  | .punctuation => "Punctuation"

def all : List Rule :=
  [.program, .classDefinition, .classModifier, .primitiveMarker, .backendMarker, .baseClause,
   .memberList, .fieldDefinition, .methodDefinition, .operatorDefinition, .accessor,
   .memberModifier, .staticMarker, .fieldAtomList, .fieldAtom, .parameterList, .parameter, .block,
   .statementList, .returnStatement, .breakStatement, .continueStatement, .declarationStatement,
   .whileStatement, .doWhileStatement, .ifStatement, .elseClause, .forStatement, .forInit,
   .forCondition, .forStep, .expressionStatement, .memberAccess, .methodCall, .argumentList,
   .newExpression, .unaryExpression, .binaryExpression, .assignmentExpression,
   .parenthesizedExpression, .identifier, .integerLiteral, .realLiteral, .stringLiteral,
   .charLiteral, .booleanLiteral, .keyword, .operator, .punctuation]

def ofName? (name : String) : Option Rule :=
  all.find? (fun r => r.name == name)

def isTerminal : Rule → Bool
  | .identifier | .integerLiteral | .realLiteral | .stringLiteral | .charLiteral | .booleanLiteral
  | .keyword | .operator | .punctuation => true
  | _ => false

def isStatement : Rule → Bool
  | .block | .returnStatement | .breakStatement | .continueStatement | .declarationStatement
  | .whileStatement | .doWhileStatement | .ifStatement | .forStatement
  | .expressionStatement => true
  | _ => false

end Rule

end ClassLang
