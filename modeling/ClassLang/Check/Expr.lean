import ClassLang.Check.Access

namespace ClassLang

namespace Expr

variable [Alphabet]

mutual

/-- What an expression denotes inside the scopes. If it denotes nothing, the reason is reported,
or was reported where the class table was built. Both sides of a binary operation or assignment
are looked at even if one denotes nothing. -/
def denote (scopes : ScopeStack) : Expr → Check (Option Meaning)
  | .literal kind _ _ => return some (.result kind.ty)
  | .ident name => Check.nameMeaning scopes name
  | .member target name _ => do
    match ← denote scopes target with
    | some target => Check.memberMeaning scopes target name
    | none => return none
  | .call callee arguments span => do
    match ← denote scopes callee with
    | some method =>
      Check.callResult method (← denoteAll scopes arguments) callee.span span
    | none => return none
  | .new className arguments span => do
    match ← Check.expectType className with
    | none => return none
    | some ty =>
      if (← Check.classes).isInstantiable ty then
        if arguments.isEmpty then return some (.result ty)
        else
          let _ ← denoteAll scopes arguments
          Check.refuse (.argumentsDoNotMatch ty.name) span
      else Check.refuse (.cannotInstantiate ty.name) className.span
  | .unary operator operand span => do
    match ← denote scopes operand with
    | some operand => Check.unaryMeaning operator operand span
    | none => return none
  | .binary left operator right span => do
    let leftMeaning ← denote scopes left
    let rightMeaning ← denote scopes right
    match leftMeaning, rightMeaning with
    | some left, some right => Check.binaryMeaning operator left right span
    | _, _ => return none
  | .assign target operator value span => do
    let targetMeaning ← denote scopes target
    let valueMeaning ← denote scopes value
    match targetMeaning, valueMeaning with
    | some targetMeaning, some valueMeaning =>
      Check.assignMeaning operator targetMeaning valueMeaning target.span value.span span
    | _, _ => return none
termination_by structural e => e

def denoteAll (scopes : ScopeStack) : List Expr → Check (List (Option Meaning))
  | [] => return []
  | e :: rest => do
    let meaning ← denote scopes e
    return meaning :: (← denoteAll scopes rest)

end

def checkInitializer (scopes : ScopeStack) (declared : Ty) (e : Expr) : Check Bool := do
  match ← e.denote scopes with
  | none => return true
  | some (.value ty _) =>
    Check.failIf (!(← Check.classes).isAssignable ty declared)
      (.expressionDoesNotMatchType declared.name ty.name) e.span
  | some _ => Check.fail .cannotAssign e.span

def checkCondition (scopes : ScopeStack) (e : Expr) : Check Bool := do
  match ← e.denote scopes with
  | none => return true
  | some meaning =>
    Check.failIf (meaning.valueType? != some .bool)
      (.conditionMustBeBoolean meaning.describe) e.span

def checkDenotes (scopes : ScopeStack) (e : Expr) : Check Bool := do
  return (← e.denote scopes).isNone

end Expr

end ClassLang
