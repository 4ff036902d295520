import ClassLang.Check.Class
import ClassLang.Run.Stmt

namespace ClassLang

variable [Alphabet]

def Routine.examine (m : Member) (returnType : Ty) (r : Routine) : ScopedRun Bool :=
  ScopedRun.within .function (.member m) do
    for parameter in r.parameters do
      let some ty ← Run.expectValueType parameter.typeName | return true
      if ← ScopedRun.declare ⟨parameter.name.text, ty, true⟩ parameter.name.span then
        return true
    let some body := r.body | return false
    let mut failed ← body.examine
    failed := failed ||
      (← Run.failIf (!returnType.isVoid && !body.alwaysReturns) (.notAllPathsReturn m.name) m.span)
    return failed

namespace Member

def examineField (m : Member) (declarators : List Declarator) : ScopedRun Bool := do
  if m.modifier != .normal then
    Run.report .fieldInvalidModifier m.span
    return true
  let some declared ← Run.expectValueType m.declaredType | return true
  let mut failed := false
  for declarator in declarators do
    if let some value := declarator.value then
      failed := failed || (← value.examineInitializer (← get) declared)
  return failed

def examineMethod (c : ClassDef) (m : Member) (r : Routine) : ScopedRun Bool := do
  let some returnType ← Run.expectType m.declaredType | return true
  let mut failed ←
    Run.failIf (m.isStatic && m.modifier != .normal)
      (.staticMemberInvalidModifier r.name.text) r.name.span
  let isAbstract := m.modifier == .abstract
  failed := failed ||
    (← Run.failIf (isAbstract && c.modifier != .abstract)
      (.abstractMethodInNonAbstractClass r.name.text c.name) r.name.span)
  failed := failed ||
    (← Run.failIf (isAbstract && r.body.isSome) (.abstractMethodHasBody r.name.text) r.name.span)
  failed := failed ||
    (← Run.failIf (!isAbstract && r.body.isNone && !c.isBackend)
      (.methodMustHaveBody r.name.text) r.name.span)
  failed := failed ||
    (← Run.failIf (m.modifier == .override && !(← Run.classes).hasOverridable c m)
      (.noSuitableMethodToOverride r.name.text) r.name.span)
  failed := failed || (← r.examine m returnType)
  return failed

def examineOperator (c : ClassDef) (m : Member) (r : Routine) : ScopedRun Bool := do
  let mut failed ←
    Run.failIf (m.modifier != .normal) (.operatorInvalidModifier r.name.text) r.name.span
  let count := r.parameters.length
  failed := failed ||
    (← Run.failIf (count != 1 && count != 2)
      (.operatorInvalidParameterCount r.name.text count) r.name.span)
  let some returnType ← Run.expectType m.declaredType | return true
  failed := failed ||
    (← Run.failIf (r.body.isNone && !c.isBackend) (.methodMustHaveBody r.name.text) r.name.span)
  failed := failed || (← r.examine m returnType)
  return failed

def examine (c : ClassDef) (m : Member) : ScopedRun Bool :=
  match m.kind with
  | .field declarators => m.examineField declarators
  | .method routine => m.examineMethod c routine
  | .operator routine => m.examineOperator c routine

end Member

namespace ClassDef

/-- Look for a name that one of the class's members shares with another, the first one of which is
reported. -/
def examineUnique (c : ClassDef) : Run Bool := do
  let mut seen := []
  for (key, name) in c.memberKeys do
    if key ∈ seen then
      Run.report (.itemAlreadyDefined name.text) name.span
      return true
    seen := key :: seen
  return false

def examineInheritedFields (c : ClassDef) : ScopedRun Bool := do
  let mut failed := false
  for ancestor in ((← Run.classes).ancestors c).reverse do
    for (m, declarators) in ancestor.fields do
      let some ty ← Run.resolve m.declaredType.text | continue
      for d in declarators do
        failed := failed || (← ScopedRun.declare ⟨d.name.text, ty, true⟩ d.name.span)
  return failed

def examineOwnFields (c : ClassDef) : ScopedRun Bool := do
  for (m, declarators) in c.fields do
    let some ty ← Run.expectValueType m.declaredType | return true
    for d in declarators do
      if ← ScopedRun.declare ⟨d.name.text, ty, true⟩ d.name.span then
        return true
  return false

def examineContract (c : ClassDef) : Run Bool := do
  let mut failed := false
  for ancestor in (← Run.classes).ancestors c do
    for required in ancestor.abstractMethods do
      match c.methods.find? (fun (m, _) => m.sameSignature required) with
      | none =>
        Run.report (.abstractMethodNotImplemented required.name) c.ident.span
        failed := true
      | some (m, routine) =>
        if m.modifier != .override then
          Run.report (.implementationMustBeOverride routine.name.text) routine.name.span
          failed := true
  return failed

/-- What is done in the scope of the class, with whether the class has failed before. -/
def examineBody (c : ClassDef) (failed : Bool) : ScopedRun Bool := do
  let mut failed := failed
  failed := failed || (← c.examineInheritedFields)
  if ← ScopedRun.declare ⟨"this", .classRef c.name, false⟩ c.ident.span then
    return true
  if ← c.examineOwnFields then
    return true
  if ← c.examineUnique then
    return true
  for m in c.members do
    failed := failed || (← m.examine c)
  if c.base.isSome && c.modifier != .abstract then
    failed := failed || (← c.examineContract)
  return failed

def examine (c : ClassDef) : ScopedRun Bool := do
  let mut failed ←
    Run.failIf (c.isBackend && !isBackendName c.name) (.unknownBackendClass c.name) c.ident.span
  if let some base := c.base then
    let _ ← Run.resolve base.text
    let table ← Run.classes
    let some parent := table.get? base.text
      | Run.report (.typeNotFound base.text) base.span
        return true
    if table.isCyclic c then
      Run.report (.cyclicInheritance c.name) c.ident.span
      return true
    if c.label = .screen then
      Run.report (.screenCannotInherit c.name) base.span
      failed := true
    else
      failed := failed ||
        (← Run.failIf (parent.modifier == .concrete) (.concreteBase c.name parent.name) base.span)
  failed := failed ||
    (← Run.failIf (c.label == .screen && c.modifier != .normal)
      (.screenModifierNotNormal c.name) c.ident.span)
  ScopedRun.within .classBody (.classDef c) (c.examineBody failed)

end ClassDef

/-- Register all classes of a program, then examine them in the order of their declaration, each in
scopes of its own. -/
def Program.examine (p : Program) : Run Bool := do
  for c in p.classes do
    Run.register c
  let mut failed := false
  for c in p.classes do
    let (classFailed, _) ← c.examine.run []
    failed := failed || classFailed
  return failed

end ClassLang
