import ClassLang.Check.Stmt

namespace ClassLang

def ClassTable.hasOverridable (table : ClassTable) (c : ClassDef) (m : Member) : Bool :=
  (table.ancestors c).any fun ancestor =>
    ancestor.methods.any fun (candidate, _) =>
      candidate.modifier != .normal && candidate.sameSignature m

variable [Alphabet]

def Parameter.check (p : Parameter) : Scoped Bool := do
  let some ty ← Check.expectValueType p.typeName | return true
  Scoped.declare ⟨p.name.text, ty, true⟩ p.name.span

/-- Check the body of a method or operator, all paths of which must return unless that is `void`. -/
def Block.checkReturning (m : Member) (returnType : Ty) (b : Block) : Scoped Bool := do
  let bodyFailed ← b.check
  let pathFailed ←
    Check.failIf (!returnType.isVoid && !b.alwaysReturns) (.notAllPathsReturn m.name) m.span
  return bodyFailed || pathFailed

/-- Check parameters and body in a scope of the member. Parameters that fail end the check. -/
def Routine.check (m : Member) (returnType : Ty) (r : Routine) : Scoped Bool :=
  Scoped.within .function (.member m) do
    if ← failsAt Parameter.check r.parameters then return true
    else checkOptional (Block.checkReturning m returnType) r.body

namespace Member

def checkField (m : Member) (declarators : List Declarator) : Scoped Bool :=
  Scoped.reading fun scopes => do
    if m.modifier != .normal then Check.fail .fieldInvalidModifier m.span
    else
      let some ty ← Check.expectValueType m.declaredType | return true
      anyFails (Expr.checkInitializer scopes ty) (declarators.filterMap Declarator.value)

def checkMethodHeader (c : ClassDef) (m : Member) (r : Routine) : Check Bool := do
  let isAbstract := m.modifier == .abstract
  let staticFailed ←
    Check.failIf (m.isStatic && m.modifier != .normal)
      (.staticMemberInvalidModifier r.name.text) r.name.span
  let placeFailed ←
    Check.failIf (isAbstract && c.modifier != .abstract)
      (.abstractMethodInNonAbstractClass r.name.text c.name) r.name.span
  let surplusFailed ←
    Check.failIf (isAbstract && r.body.isSome) (.abstractMethodHasBody r.name.text) r.name.span
  let missingFailed ←
    Check.failIf (!isAbstract && r.body.isNone && !c.isBackend)
      (.methodMustHaveBody r.name.text) r.name.span
  let table ← Check.classes
  let overrideFailed ←
    Check.failIf (m.modifier == .override && !table.hasOverridable c m)
      (.noSuitableMethodToOverride r.name.text) r.name.span
  return staticFailed || placeFailed || surplusFailed || missingFailed || overrideFailed

def checkMethod (c : ClassDef) (m : Member) (r : Routine) : Scoped Bool := do
  let some returnType ← Check.expectType m.declaredType | return true
  let headerFailed ← m.checkMethodHeader c r
  let routineFailed ← r.check m returnType
  return headerFailed || routineFailed

def checkOperator (c : ClassDef) (m : Member) (r : Routine) : Scoped Bool := do
  let count := r.parameters.length
  let modifierFailed ←
    Check.failIf (m.modifier != .normal) (.operatorInvalidModifier r.name.text) r.name.span
  let countFailed ←
    Check.failIf (count != 1 && count != 2)
      (.operatorInvalidParameterCount r.name.text count) r.name.span
  let some returnType ← Check.expectType m.declaredType | return true
  let missingFailed ←
    Check.failIf (r.body.isNone && !c.isBackend) (.methodMustHaveBody r.name.text) r.name.span
  let routineFailed ← r.check m returnType
  return modifierFailed || countFailed || missingFailed || routineFailed

def check (c : ClassDef) (m : Member) : Scoped Bool :=
  match m.kind with
  | .field declarators => m.checkField declarators
  | .method routine => m.checkMethod c routine
  | .operator routine => m.checkOperator c routine

end Member

end ClassLang
