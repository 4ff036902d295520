import ClassLang.Check.Access
import ClassLang.Run.Basic

namespace ClassLang

variable [Alphabet]

namespace Run

def accepts (parameters : List String) (arguments : List Ty) : Run Bool := do
  if parameters.length ≠ arguments.length then
    return false
  let expected ← forEach resolve parameters
  let table ← classes
  return (expected.zip arguments).all fun (parameter, argument) =>
    parameter.any (fun ty => table.isAssignable argument ty)

/-- The return type of the first operator in the chain of the first operand that accepts all of
them. -/
def definedOperation (operator : String) (operands : List Ty) : Run (Option Ty) := do
  let some className := operands.head?.bind Ty.className? | return none
  for m in (← classes).operatorCandidates className operator operands.length do
    if ← accepts m.parameterTypes operands then
      return ← resolve m.declaredType.text
  return none

def unaryResult (operator : String) (operand : Ty) : Run (Option Ty) := do
  if let some ty := builtinUnary operator operand then
    return some ty
  definedOperation operator [operand]

def binaryResult (operator : String) (left right : Ty) : Run (Option Ty) := do
  if left.isVoid || right.isVoid then
    return none
  if let some ty := (← classes).builtinBinary operator left right then
    return some ty
  definedOperation operator [left, right]

def unaryMeaning (operator : String) (operand : Meaning) (span : Span) : Run (Option Meaning) := do
  let mut result := none
  if let some ty := operand.valueType? then
    result ← unaryResult operator ty
  if let some ty := result then
    return some (.result ty)
  report (.operatorNotDefined operator operand.describe) span
  return none

def binaryMeaning (operator : String) (left right : Meaning) (span : Span) :
    Run (Option Meaning) := do
  let mut result := none
  if let (some leftType, some rightType) := (left.valueType?, right.valueType?) then
    result ← binaryResult operator leftType rightType
  if let some ty := result then
    return some (.result ty)
  report (.operatorNotDefined operator (left.describe ++ " and " ++ right.describe)) span
  return none

def assignMeaning (operator : String) (target value : Meaning)
    (targetSpan valueSpan span : Span) : Run (Option Meaning) := do
  let .value targetType true := target
    | report .leftHandSideNotAssignable targetSpan
      return none
  let some valueType := value.valueType?
    | report .cannotAssign valueSpan
      return none
  let mut stored := valueType
  if let some binary := compoundOperator? operator then
    let some ty ← binaryResult binary targetType valueType
      | report (.operatorNotDefined operator (targetType.name ++ " and " ++ valueType.name)) span
        return none
    stored := ty
  if !(← classes).isAssignable stored targetType then
    report (.expressionDoesNotMatchType targetType.name stored.name) valueSpan
    return none
  return some (.result targetType)

def nameMeaning (scopes : ScopeStack) (name : Ident) : Run (Option Meaning) := do
  if let some v := scopes.lookup? name.text then
    return some (.value v.ty v.assignable)
  match ← resolve name.text with
  | some .void | none => pure ()
  | some ty => return some (.typeName ty)
  if let some c := scopes.currentClass? then
    if let some (owner, _) := (← classes).findMethod? c.name name.text then
      return some (.method owner.name name.text false)
  report (.identifierNotFound name.text) name.span
  return none

def memberOfType (scopes : ScopeStack) (ty : Ty) (throughType : Bool) (name : Ident) :
    Run (Option Meaning) := do
  let table ← classes
  let some (owner, m) := ty.className?.bind (fun className => table.findMember? className name.text)
    | report (.memberNotFound name.text ty.name) name.span
      return none
  if !table.isAccessible scopes owner m then
    report (.memberNotAccessible name.text) name.span
    return none
  if m.isStatic != throughType then
    report (.staticMemberMismatch name.text) name.span
    return none
  match m.kind with
  | .field _ =>
    let some fieldType ← expectType ⟨m.declaredType.text, name.span⟩ | return none
    return some (.value fieldType true)
  | .method _ | .operator _ => return some (.method owner.name name.text throughType)

def memberMeaning (scopes : ScopeStack) (target : Meaning) (name : Ident) :
    Run (Option Meaning) := do
  match target with
  | .value ty _ => memberOfType scopes ty false name
  | .typeName ty => memberOfType scopes ty true name
  | .method .. =>
    report (.memberNotFound name.text target.describe) name.span
    return none

def methodResult (className name : String) (arguments : List Meaning) (callee span : Span) :
    Run (Option Meaning) := do
  let some (_, method) := (← classes).findMethod? className name
    | report (.memberNotFound name className) callee
      return none
  let mut matched := false
  if let some types := arguments.mapM Meaning.valueType? then
    matched ← accepts method.parameterTypes types
  if !matched then
    report (.argumentsDoNotMatch name) span
    return none
  let some returnType ← resolve method.declaredType.text | return none
  return some (.result returnType)

end Run

namespace Expr

mutual

/-- What an expression denotes inside the scopes. If it denotes nothing, the reason is reported. -/
def examine (scopes : ScopeStack) : Expr → Run (Option Meaning)
  | .literal kind _ _ => return some (.result kind.ty)
  | .ident name => Run.nameMeaning scopes name
  | .member target name _ => do
    let some target ← examine scopes target | return none
    Run.memberMeaning scopes target name
  | .call callee arguments span => do
    let some method ← examine scopes callee | return none
    let (values, failed) ← examineAll scopes [] false arguments
    let .method className name _ := method
      | Run.report .notAMethod callee.span
        return none
    if failed then
      return none
    Run.methodResult className name values callee.span span
  | .new className arguments span => do
    let some ty ← Run.expectType className | return none
    if !(← Run.classes).isInstantiable ty then
      Run.report (.cannotInstantiate ty.name) className.span
      return none
    if !arguments.isEmpty then
      let _ ← examineAll scopes [] false arguments
      Run.report (.argumentsDoNotMatch ty.name) span
      return none
    return some (.result ty)
  | .unary operator operand span => do
    let some operand ← examine scopes operand | return none
    Run.unaryMeaning operator operand span
  | .binary left operator right span => do
    let leftMeaning ← examine scopes left
    let rightMeaning ← examine scopes right
    let (some left, some right) := (leftMeaning, rightMeaning) | return none
    Run.binaryMeaning operator left right span
  | .assign target operator value span => do
    let targetMeaning ← examine scopes target
    let valueMeaning ← examine scopes value
    let (some targetMeaning, some valueMeaning) := (targetMeaning, valueMeaning) | return none
    Run.assignMeaning operator targetMeaning valueMeaning target.span value.span span
termination_by structural e => e

/-- Go through arguments, with what those before denote and whether one of them denotes nothing. -/
def examineAll (scopes : ScopeStack) (values : List Meaning) (failed : Bool) :
    List Expr → Run (List Meaning × Bool)
  | [] => return (values, failed)
  | e :: rest => do
    match ← examine scopes e with
    | some meaning => examineAll scopes (values ++ [meaning]) failed rest
    | none => examineAll scopes values true rest

end

def examineInitializer (scopes : ScopeStack) (declared : Ty) (e : Expr) : Run Bool := do
  match ← e.examine scopes with
  | none => return true
  | some (.value ty _) =>
    if (← Run.classes).isAssignable ty declared then
      return false
    Run.report (.expressionDoesNotMatchType declared.name ty.name) e.span
    return true
  | some _ =>
    Run.report .cannotAssign e.span
    return true

def examineCondition (scopes : ScopeStack) (e : Expr) : Run Bool := do
  match ← e.examine scopes with
  | none => return true
  | some found =>
    if found.valueType? == some .bool then
      return false
    Run.report (.conditionMustBeBoolean found.describe) e.span
    return true

end Expr

end ClassLang
