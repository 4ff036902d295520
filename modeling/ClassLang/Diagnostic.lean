import ClassLang.Source.Span

namespace ClassLang

inductive Problem where
  | typeNotFound (typeName : String)
  | identifierNotFound (name : String)
  | itemAlreadyDefined (name : String)
  | expressionDoesNotMatchType (expected found : String)
  | cannotAssign
  | leftHandSideNotAssignable
  | fieldInvalidModifier
  | statementMustAppearInLoop (statement : String)
  | unreachableCode
  | cyclicInheritance (className : String)
  | concreteBase (className base : String)
  | screenCannotInherit (className : String)
  | screenModifierNotNormal (className : String)
  | unknownBackendClass (className : String)
  | abstractMethodNotImplemented (method : String)
  | implementationMustBeOverride (method : String)
  | abstractMethodInNonAbstractClass (method className : String)
  | abstractMethodHasBody (method : String)
  | methodMustHaveBody (method : String)
  | noSuitableMethodToOverride (method : String)
  | staticMemberInvalidModifier (member : String)
  | operatorInvalidModifier (operator : String)
  | operatorInvalidParameterCount (operator : String) (count : Nat)
  | notAllPathsReturn (method : String)
  | returnOutsideFunction
  | returnTypeMismatch (expected found : String)
  | missingReturnValue (expected : String)
  | conditionMustBeBoolean (found : String)
  | invalidVoidUsage
  | memberNotFound (member typeName : String)
  | memberNotAccessible (member : String)
  | staticMemberMismatch (member : String)
  | notAMethod
  | argumentsDoNotMatch (method : String)
  | operatorNotDefined (operator operands : String)
  | cannotInstantiate (typeName : String)
  deriving DecidableEq, Repr

namespace Problem

def name : Problem → String
  | .typeNotFound .. => "TypeNotFound"
  | .identifierNotFound .. => "IdentifierNotFound"
  | .itemAlreadyDefined .. => "ItemAlreadyDefined"
  | .expressionDoesNotMatchType .. => "ExpressionDoesnotMatchType"
  | .cannotAssign => "CannotAssignRHSToLHS"
  | .leftHandSideNotAssignable => "LeftHandSideNotAssignable"
  | .fieldInvalidModifier => "FieldInvalidModifier"
  | .statementMustAppearInLoop .. => "StatementMustAppearInLoop"
  | .unreachableCode => "UnreachableCodeDetected"
  | .cyclicInheritance .. => "CyclicInheritence"
  | .concreteBase .. => "ConcreteBase"
  | .screenCannotInherit .. => "ScreenCannotInherit"
  | .screenModifierNotNormal .. => "ScreenModifierNotNormal"
  | .unknownBackendClass .. => "UserDefinedBackendClass"
  | .abstractMethodNotImplemented .. => "AbstractMethodNotImplemented"
  | .implementationMustBeOverride .. => "AbstractImplementationMethodModifierMustBeOverride"
  | .abstractMethodInNonAbstractClass .. => "AbstractMethodInNonAbstractClass"
  | .abstractMethodHasBody .. => "AbstractMethodHasBody"
  | .methodMustHaveBody .. => "MethodMustHaveBody"
  | .noSuitableMethodToOverride .. => "NoSuitableMethodToOverride"
  | .staticMemberInvalidModifier .. => "StaticMemberInvalidModifier"
  | .operatorInvalidModifier .. => "OperatorInvalidModifier"
  | .operatorInvalidParameterCount .. => "OperatorInvalidParameterCount"
  | .notAllPathsReturn .. => "NotAllCodePathsReturnAValue"
  | .returnOutsideFunction => "ReturnOutsideFunction"
  | .returnTypeMismatch .. => "ReturnTypeMismatch"
  | .missingReturnValue .. => "MissingReturnValue"
  | .conditionMustBeBoolean .. => "ConditionMustBeBoolean"
  | .invalidVoidUsage => "InvalidVoidUsage"
  | .memberNotFound .. => "MemberNotFound"
  | .memberNotAccessible .. => "MemberNotAccessible"
  | .staticMemberMismatch .. => "StaticMemberMismatch"
  | .notAMethod => "NotAMethod"
  | .argumentsDoNotMatch .. => "ArgumentsDoNotMatch"
  | .operatorNotDefined .. => "OperatorNotDefined"
  | .cannotInstantiate .. => "CannotInstantiate"

def quote (text : String) : String := "`" ++ text ++ "`"

def message : Problem → String
  | .typeNotFound typeName => "type " ++ quote typeName ++ " not found"
  | .identifierNotFound name => quote name ++ " does not exist in the current context"
  | .itemAlreadyDefined name => quote name ++ " is already defined"
  | .expressionDoesNotMatchType expected found =>
    "expression of type " ++ quote found ++ " does not match type " ++ quote expected
  | .cannotAssign => "right hand side can not be assigned to the left hand side"
  | .leftHandSideNotAssignable => "left hand side of an assignment must be a variable or a field"
  | .fieldInvalidModifier => "fields can not be virtual, abstract or override"
  | .statementMustAppearInLoop statement =>
    quote statement ++ " statement must appear inside a loop"
  | .unreachableCode => "unreachable code detected"
  | .cyclicInheritance className =>
    "class " ++ quote className ++ " has a cyclic inheritence chain"
  | .concreteBase className base =>
    "class " ++ quote className ++ " can not inherit from concrete class " ++ quote base
  | .screenCannotInherit className =>
    "screen " ++ quote className ++ " can not inherit from another class"
  | .screenModifierNotNormal className =>
    "screen " ++ quote className ++ " can not be abstract or concrete"
  | .unknownBackendClass className =>
    "class " ++ quote className ++ " is not a known backend class"
  | .abstractMethodNotImplemented method =>
    "abstract method " ++ quote method ++ " is not implemented"
  | .implementationMustBeOverride method =>
    "method " ++ quote method ++ " implements an abstract method and must be marked override"
  | .abstractMethodInNonAbstractClass method className =>
    "abstract method " ++ quote method ++ " can only be declared in an abstract class, "
      ++ quote className ++ " is not abstract"
  | .abstractMethodHasBody method => "abstract method " ++ quote method ++ " can not have a body"
  | .methodMustHaveBody method => "method " ++ quote method ++ " must have a body"
  | .noSuitableMethodToOverride method =>
    "method " ++ quote method
      ++ " is marked override but no suitable method was found to override"
  | .staticMemberInvalidModifier member =>
    "static member " ++ quote member ++ " can not be virtual, abstract or override"
  | .operatorInvalidModifier operator =>
    "operator " ++ quote operator ++ " can not be virtual, abstract or override"
  | .operatorInvalidParameterCount operator count =>
    "operator " ++ quote operator ++ " can not take " ++ toString count ++ " parameters"
  | .notAllPathsReturn method => "not all code paths of " ++ quote method ++ " return a value"
  | .returnOutsideFunction => "return statement must appear inside a method"
  | .returnTypeMismatch expected found =>
    "can not return " ++ quote found ++ " from a method returning " ++ quote expected
  | .missingReturnValue expected => "a value of type " ++ quote expected ++ " must be returned"
  | .conditionMustBeBoolean found =>
    "condition must be of type " ++ quote "bool" ++ ", found " ++ quote found
  | .invalidVoidUsage => quote "void" ++ " can only be used as a method return type"
  | .memberNotFound member typeName =>
    quote typeName ++ " does not contain a member named " ++ quote member
  | .memberNotAccessible member =>
    quote member ++ " is inaccessible due to its protection level"
  | .staticMemberMismatch member =>
    "member " ++ quote member ++ " can not be accessed this way, check its static modifier"
  | .notAMethod => "expression is not a method"
  | .argumentsDoNotMatch method =>
    "arguments do not match the parameters of " ++ quote method
  | .operatorNotDefined operator operands =>
    "operator " ++ quote operator ++ " is not defined for " ++ quote operands
  | .cannotInstantiate typeName => "can not create an instance of " ++ quote typeName

end Problem

structure Finding where
  problem : Problem
  span : Span
  deriving DecidableEq, Repr

structure Diagnostic extends Finding where
  file : String
  deriving DecidableEq, Repr

def Finding.inFile (f : Finding) (file : String) : Diagnostic := ⟨f, file⟩

def Diagnostic.render (d : Diagnostic) : String :=
  "Error : From " ++ d.span.start.render ++ " to " ++ d.span.stop.render ++ ": "
    ++ d.problem.message ++ "."

end ClassLang
