import ClassLang.Check.Basic
import ClassLang.ClassTable.Members
import ClassLang.Types.Meaning

namespace ClassLang

def builtinUnary (symbol : String) (operand : Ty) : Option Ty :=
  match symbol with
  | "-" | "+" => if operand.isNumeric then some operand else none
  | "!" => if operand.isBool then some operand else none
  | _ => none

inductive BinaryKind where
  | sum
  | arithmetic
  | ordering
  | equality
  | logic
  deriving DecidableEq, Repr

def BinaryKind.ofSymbol? : String → Option BinaryKind
  | "+" => some .sum
  | "-" | "*" | "/" | "%" => some .arithmetic
  | "<" | ">" | "<=" | ">=" => some .ordering
  | "==" | "!=" => some .equality
  | "&&" | "||" => some .logic
  | _ => none

/-- The type of a binary operation that the language itself defines. Strings may be summed, too, and
values are equal or not if one of them may stand for the other. -/
def ClassTable.builtinBinary (table : ClassTable) (symbol : String) (left right : Ty) : Option Ty :=
  match BinaryKind.ofSymbol? symbol with
  | some .sum =>
    if left == right && (left == .primitive .string || left.isNumeric) then some left else none
  | some .arithmetic => if left == right && left.isNumeric then some left else none
  | some .ordering => if left == right && left.isOrdered then some .bool else none
  | some .equality =>
    if table.isAssignable left right || table.isAssignable right left then some .bool else none
  | some .logic => if left.isBool && right.isBool then some .bool else none
  | none => none

/-- The operation that a compound assignment makes before it stores: what stands before the final
`=`, unless that is the whole operator. -/
def compoundOperator? (operator : String) : Option String :=
  let characters := operator.toList
  if characters.getLast? = some '=' ∧ characters.dropLast ≠ [] then
    some (String.ofList characters.dropLast)
  else none

namespace Check

variable [Alphabet]

def accepts (parameters : List String) (arguments : List Ty) : Check Bool := do
  if parameters.length = arguments.length then
    let expected ← forEach resolve parameters
    let table ← classes
    return (expected.zip arguments).all fun (parameter, argument) =>
      parameter.any (fun ty => table.isAssignable argument ty)
  else return false

def firstAccepting (operands : List Ty) : List Member → Check (Option Ty)
  | [] => return none
  | m :: rest => do
    if ← accepts m.parameterTypes operands then resolve m.declaredType.text
    else firstAccepting operands rest

def definedOperation (operator : String) (first : Ty) (others : List Ty) : Check (Option Ty) := do
  match first.className? with
  | none => return none
  | some className =>
    let table ← classes
    firstAccepting (first :: others)
      (table.operatorCandidates className operator (others.length + 1))

def unaryResult (operator : String) (operand : Ty) : Check (Option Ty) :=
  match builtinUnary operator operand with
  | some ty => return some ty
  | none => definedOperation operator operand []

def binaryResult (operator : String) (left right : Ty) : Check (Option Ty) := do
  if left.isVoid || right.isVoid then return none
  else
    match (← classes).builtinBinary operator left right with
    | some ty => return some ty
    | none => definedOperation operator left [right]

def unaryMeaning (operator : String) (operand : Meaning) (span : Span) :
    Check (Option Meaning) := do
  let result ←
    match operand.valueType? with
    | some ty => unaryResult operator ty
    | none => pure none
  match result with
  | some ty => return some (.result ty)
  | none => refuse (.operatorNotDefined operator operand.describe) span

def binaryMeaning (operator : String) (left right : Meaning) (span : Span) :
    Check (Option Meaning) := do
  let result ←
    match left.valueType?, right.valueType? with
    | some leftType, some rightType => binaryResult operator leftType rightType
    | _, _ => pure none
  match result with
  | some ty => return some (.result ty)
  | none =>
    refuse (.operatorNotDefined operator (left.describe ++ " and " ++ right.describe)) span

/-- The type that an assignment stores: that of the value, or of the operation that a compound
assignment makes of target and value. -/
def storedType (operator : String) (target value : Ty) (span : Span) : Check (Option Ty) := do
  match compoundOperator? operator with
  | none => return some value
  | some binary =>
    match ← binaryResult binary target value with
    | some ty => return some ty
    | none => refuse (.operatorNotDefined operator (target.name ++ " and " ++ value.name)) span

def assignMeaning (operator : String) (target value : Meaning)
    (targetSpan valueSpan span : Span) : Check (Option Meaning) := do
  match target with
  | .value targetType true =>
    match value.valueType? with
    | none => refuse .cannotAssign valueSpan
    | some valueType =>
      match ← storedType operator targetType valueType span with
      | none => return none
      | some stored =>
        if (← classes).isAssignable stored targetType then return some (.result targetType)
        else refuse (.expressionDoesNotMatchType targetType.name stored.name) valueSpan
  | _ => refuse .leftHandSideNotAssignable targetSpan

end Check

end ClassLang
