import ClassLang.Check.Expr

namespace ClassLang

variable [Alphabet]

def Declarator.check (ty : Ty) (d : Declarator) : Scoped Bool := do
  let valueFailed ←
    match d.value with
    | some value => Scoped.reading (fun scopes => value.checkInitializer scopes ty)
    | none => pure false
  let nameFailed ← Scoped.declare ⟨d.name.text, ty, true⟩ d.name.span
  return valueFailed || nameFailed

def Declaration.check (d : Declaration) : Scoped Bool := do
  let some ty ← Check.expectValueType d.typeName | return true
  anyFails (Declarator.check ty) d.declarators

def ForInit.check : ForInit → Scoped Bool
  | .declaration d => d.check
  | .expression e => Scoped.reading e.checkDenotes

def checkOptional {α : Type} (f : α → Scoped Bool) : Option α → Scoped Bool
  | some a => f a
  | none => return false

namespace Stmt

def checkInLoop (keyword : String) (span : Span) (scopes : ScopeStack) : Check Bool :=
  Check.failIf (!scopes.hasKind .loop) (.statementMustAppearInLoop keyword) span

/-- A returned value fits the return type; `void` admits none and every other type needs one. A
return type that stands for nothing was reported with the member. -/
def checkReturn (value : Option Expr) (span : Span) (scopes : ScopeStack) : Check Bool := do
  match scopes.currentMember? with
  | none => Check.fail .returnOutsideFunction span
  | some m =>
    match ← Check.resolve m.declaredType.text with
    | none => return true
    | some expected =>
      match value with
      | none => Check.failIf (!expected.isVoid) (.missingReturnValue expected.name) span
      | some value =>
        match ← value.denote scopes with
        | none => return true
        | some found =>
          let table ← Check.classes
          let fits := !expected.isVoid &&
            found.valueType?.any (fun ty => table.isAssignable ty expected)
          Check.failIf (!fits) (.returnTypeMismatch expected.name found.describe) value.span

mutual

def check : Stmt → Scoped Bool
  | .block statements _ => Scoped.within .block .code (checkAll statements)
  | .continueLoop span => Scoped.reading (checkInLoop "continue" span)
  | .breakLoop span => Scoped.reading (checkInLoop "break" span)
  | .ret value span => Scoped.reading (checkReturn value span)
  | .declaration d => d.check
  | .whileLoop condition body _ => do
    let conditionFailed ← Scoped.reading condition.checkCondition
    let bodyFailed ← Scoped.within .loop .code body.check
    return conditionFailed || bodyFailed
  | .doLoop body condition _ => do
    let bodyFailed ← Scoped.within .loop .code body.check
    let conditionFailed ← Scoped.reading condition.checkCondition
    return bodyFailed || conditionFailed
  | .ifThen condition thenBranch _ => do
    let conditionFailed ← Scoped.reading condition.checkCondition
    let thenFailed ← Scoped.within .block .code thenBranch.check
    return conditionFailed || thenFailed
  | .ifElse condition thenBranch elseBranch _ => do
    let conditionFailed ← Scoped.reading condition.checkCondition
    let thenFailed ← Scoped.within .block .code thenBranch.check
    let elseFailed ← Scoped.within .block .code elseBranch.check
    return conditionFailed || thenFailed || elseFailed
  | .forLoop init condition step body _ => Scoped.within .loop .code do
    let initFailed ← checkOptional ForInit.check init
    let conditionFailed ← checkOptional (fun e => Scoped.reading e.checkCondition) condition
    let stepFailed ← checkOptional (fun e => Scoped.reading e.checkDenotes) step
    let bodyFailed ← body.check
    return initFailed || conditionFailed || stepFailed || bodyFailed
  | .expression e _ => Scoped.reading e.checkDenotes
termination_by structural s => s

/-- Check the statements of a block in order. What follows a statement that always returns can not
be reached: its first statement is reported, and nothing of it is checked. -/
def checkAll : List Stmt → Scoped Bool
  | [] => return false
  | s :: rest => do
    let failed ← s.check
    if s.alwaysReturns then
      match rest with
      | [] => return failed
      | next :: _ => Check.fail .unreachableCode next.span
    else
      let restFailed ← checkAll rest
      return failed || restFailed

end

end Stmt

def Block.check (b : Block) : Scoped Bool := b.toStmt.check

end ClassLang
