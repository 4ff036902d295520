import ClassLang.Run.Expr

namespace ClassLang

variable [Alphabet]

def Declaration.examine (d : Declaration) : ScopedRun Bool := do
  let some ty ← Run.expectValueType d.typeName | return true
  let mut failed := false
  for declarator in d.declarators do
    if let some value := declarator.value then
      failed := failed || (← value.examineInitializer (← get) ty)
    failed := failed || (← ScopedRun.declare ⟨declarator.name.text, ty, true⟩ declarator.name.span)
  return failed

def ForInit.examine : ForInit → ScopedRun Bool
  | .declaration d => d.examine
  | .expression e => return (← e.examine (← get)).isNone

namespace Stmt

def examineInLoop (keyword : String) (span : Span) (scopes : ScopeStack) : Run Bool :=
  Run.failIf (!scopes.hasKind .loop) (.statementMustAppearInLoop keyword) span

def examineReturn (value : Option Expr) (span : Span) (scopes : ScopeStack) : Run Bool := do
  let some m := scopes.currentMember?
    | Run.report .returnOutsideFunction span
      return true
  let some expected ← Run.resolve m.declaredType.text | return true
  match value with
  | some value =>
    let some found ← value.examine scopes | return true
    if let some ty := found.valueType? then
      if !expected.isVoid && (← Run.classes).isAssignable ty expected then
        return false
    Run.report (.returnTypeMismatch expected.name found.describe) value.span
    return true
  | none => Run.failIf (!expected.isVoid) (.missingReturnValue expected.name) span

mutual

def examine : Stmt → ScopedRun Bool
  | .block statements _ => ScopedRun.within .block .code (examineAll false false statements)
  | .continueLoop span => do examineInLoop "continue" span (← get)
  | .breakLoop span => do examineInLoop "break" span (← get)
  | .ret value span => do examineReturn value span (← get)
  | .declaration d => d.examine
  | .whileLoop condition body _ => do
    let mut failed ← condition.examineCondition (← get)
    failed := failed || (← ScopedRun.within .loop .code body.examine)
    return failed
  | .doLoop body condition _ => do
    let mut failed ← ScopedRun.within .loop .code body.examine
    failed := failed || (← condition.examineCondition (← get))
    return failed
  | .ifThen condition thenBranch _ => do
    let mut failed ← condition.examineCondition (← get)
    failed := failed || (← ScopedRun.within .block .code thenBranch.examine)
    return failed
  | .ifElse condition thenBranch elseBranch _ => do
    let mut failed ← condition.examineCondition (← get)
    failed := failed || (← ScopedRun.within .block .code thenBranch.examine)
    failed := failed || (← ScopedRun.within .block .code elseBranch.examine)
    return failed
  | .forLoop init condition step body _ => ScopedRun.within .loop .code do
    let mut failed := false
    if let some init := init then
      failed ← init.examine
    if let some condition := condition then
      failed := failed || (← condition.examineCondition (← get))
    if let some step := step then
      failed := failed || (← step.examine (← get)).isNone
    failed := failed || (← body.examine)
    return failed
  | .expression e _ => return (← e.examine (← get)).isNone
termination_by structural s => s

/-- Go through the statements of a block, with whether one before failed and whether the last one
before always returns. The first one behind such a statement is reported, and ends the block. -/
def examineAll (failed returned : Bool) : List Stmt → ScopedRun Bool
  | [] => return failed
  | s :: rest => do
    if returned then
      Run.report .unreachableCode s.span
      return true
    let statementFailed ← s.examine
    examineAll (failed || statementFailed) s.alwaysReturns rest

end

end Stmt

def Block.examine (b : Block) : ScopedRun Bool := b.toStmt.examine

end ClassLang
