import ClassLang.Check.Member

namespace ClassLang

/-- What a member must share with no other member of its class: fields and methods their name,
operators their key. -/
inductive MemberKey where
  | name (text : String)
  | operator (key : String)
  deriving DecidableEq, Repr

/-- The keys of a member, each with the name that is at fault if it is taken. -/
def Member.keys (m : Member) : List (MemberKey × Ident) :=
  match m.kind with
  | .field declarators => declarators.map fun d => (.name d.name.text, d.name)
  | .method routine => [(.name routine.name.text, routine.name)]
  | .operator routine => [(.operator (m.operatorKey?.getD ""), routine.name)]

/-- The first name whose key is taken by one in `seen` or before it in the list. -/
def firstDuplicate? (seen : List MemberKey) : List (MemberKey × Ident) → Option Ident
  | [] => none
  | (key, name) :: rest => if key ∈ seen then some name else firstDuplicate? (key :: seen) rest

variable [Alphabet]

namespace ClassDef

def memberKeys (c : ClassDef) : List (MemberKey × Ident) := c.members.flatMap Member.keys

def checkUnique (c : ClassDef) : Check Bool :=
  match firstDuplicate? [] c.memberKeys with
  | some name => Check.fail (.itemAlreadyDefined name.text) name.span
  | none => return false

/-- Only the language's own classes are backend classes. -/
def checkBackend (c : ClassDef) : Check Bool :=
  Check.failIf (c.isBackend && !isBackendName c.name) (.unknownBackendClass c.name) c.ident.span

def checkBaseModifier (c : ClassDef) (base : Ident) (parent : ClassDef) : Check Bool :=
  if c.label = .screen then Check.fail (.screenCannotInherit c.name) base.span
  else
    Check.failIf (parent.modifier == .concrete) (.concreteBase c.name parent.name) base.span

/-- The base of a class, if it has one, is known, does not lead back, and may be inherited from.
Of an unknown base or a cycle nothing more can be said about the class: then the answer is `none`.
-/
def checkBase (c : ClassDef) : Check (Option Bool) := do
  match c.base with
  | none => return some false
  | some base =>
    let _ ← Check.resolve base.text
    let table ← Check.classes
    match table.get? base.text with
    | none => Check.refuse (.typeNotFound base.text) base.span
    | some parent =>
      if table.isCyclic c then Check.refuse (.cyclicInheritance c.name) c.ident.span
      else return some (← c.checkBaseModifier base parent)

def checkLabel (c : ClassDef) : Check Bool :=
  Check.failIf (c.label == .screen && c.modifier != .normal)
    (.screenModifierNotNormal c.name) c.ident.span

/-- Declare the names of an inherited field. A type that stands for nothing is reported with the
ancestor. -/
def declareInherited (field : Member × List Declarator) : Scoped Bool := do
  let some ty ← Check.resolve field.1.declaredType.text | return false
  anyFails (fun d => Scoped.declare ⟨d.name.text, ty, true⟩ d.name.span) field.2

/-- Declare the fields of all ancestors, those of the oldest first. -/
def declareInheritedFields (c : ClassDef) : Scoped Bool := do
  let table ← Check.classes
  anyFails (fun ancestor => anyFails declareInherited ancestor.fields) (table.ancestors c).reverse

def declareThis (c : ClassDef) : Scoped Bool :=
  Scoped.declare ⟨"this", .classRef c.name, false⟩ c.ident.span

def declareOwn (field : Member × List Declarator) : Scoped Bool := do
  let some ty ← Check.expectValueType field.1.declaredType | return true
  failsAt (fun d => Scoped.declare ⟨d.name.text, ty, true⟩ d.name.span) field.2

def declareOwnFields (c : ClassDef) : Scoped Bool := failsAt declareOwn c.fields

def checkImplements (c : ClassDef) (required : Member) : Check Bool :=
  match c.methods.find? (fun (m, _) => m.sameSignature required) with
  | none => Check.fail (.abstractMethodNotImplemented required.name) c.ident.span
  | some (m, routine) =>
    Check.failIf (m.modifier != .override)
      (.implementationMustBeOverride routine.name.text) routine.name.span

def abstractMethods (c : ClassDef) : List Member :=
  (c.methods.map Prod.fst).filter (fun m => m.modifier == .abstract)

def checkContract (c : ClassDef) : Check Bool := do
  if c.base.isSome && c.modifier != .abstract then
    let table ← Check.classes
    anyFails c.checkImplements ((table.ancestors c).flatMap abstractMethods)
  else return false

/-- Declare the names that the members of the class see: the inherited fields, `this`, and the
fields of its own. If one of the latter fails, its members can not be checked: then the answer is
`none`. -/
def declareNames (c : ClassDef) : Scoped (Option Bool) := do
  let inheritedFailed ← c.declareInheritedFields
  if ← c.declareThis then return none
  else if ← c.declareOwnFields then return none
  else return some inheritedFailed

def checkBody (c : ClassDef) : Scoped Bool := do
  let some inheritedFailed ← c.declareNames | return true
  if ← c.checkUnique then return true
  else
    let membersFailed ← anyFails (Member.check c) c.members
    let contractFailed ← c.checkContract
    return inheritedFailed || membersFailed || contractFailed

def check (c : ClassDef) : Scoped Bool := do
  let backendFailed ← c.checkBackend
  let some baseFailed ← c.checkBase | return true
  let labelFailed ← c.checkLabel
  let bodyFailed ← Scoped.within .classBody (.classDef c) c.checkBody
  return backendFailed || baseFailed || labelFailed || bodyFailed

end ClassDef

def Program.check (p : Program) : Check Bool := do
  Check.registerAll p.classes
  anyFails (fun c => do return (← c.check []).1) p.classes

end ClassLang
