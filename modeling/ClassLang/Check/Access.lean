import ClassLang.Check.Operation

namespace ClassLang

def ClassTable.isAccessible (table : ClassTable) (scopes : ScopeStack) (owner : ClassDef)
    (m : Member) : Bool :=
  match m.visibility with
  | .everywhere => true
  | .inClass => scopes.currentClass?.any (fun c => c.name == owner.name)
  | .inFamily =>
    scopes.currentClass?.any fun c => c.name == owner.name || table.isAncestor owner.name c.name

namespace Check

variable [Alphabet]

/-- What a name stands for on its own: a variable, else a type, else a method of the current
class. -/
def nameMeaning (scopes : ScopeStack) (name : Ident) : Check (Option Meaning) := do
  match scopes.lookup? name.text with
  | some v => return some (.value v.ty v.assignable)
  | none =>
    let ty ← resolve name.text
    let table ← classes
    match ty.filter (fun ty => !ty.isVoid) with
    | some ty => return some (.typeName ty)
    | none =>
      match scopes.currentClass?.bind (fun c => table.findMethod? c.name name.text) with
      | some (owner, _) => return some (.method owner.name name.text false)
      | none => refuse (.identifierNotFound name.text) name.span

def memberOfType (scopes : ScopeStack) (ty : Ty) (throughType : Bool) (name : Ident) :
    Check (Option Meaning) := do
  let table ← classes
  match ty.className?.bind (fun className => table.findMember? className name.text) with
  | none => refuse (.memberNotFound name.text ty.name) name.span
  | some (owner, m) =>
    if !table.isAccessible scopes owner m then refuse (.memberNotAccessible name.text) name.span
    else if m.isStatic != throughType then refuse (.staticMemberMismatch name.text) name.span
    else
      match m.kind with
      | .field _ =>
        match ← expectType ⟨m.declaredType.text, name.span⟩ with
        | some fieldType => return some (.value fieldType true)
        | none => return none
      | .method _ | .operator _ => return some (.method owner.name name.text throughType)

def memberMeaning (scopes : ScopeStack) (target : Meaning) (name : Ident) :
    Check (Option Meaning) :=
  match target with
  | .value ty _ => memberOfType scopes ty false name
  | .typeName ty => memberOfType scopes ty true name
  | .method .. => refuse (.memberNotFound name.text target.describe) name.span

/-- The result of calling a method. An argument that denotes no value fits no parameter. A return
type that stands for nothing is the fault of the method, and is reported there. -/
def methodResult (className name : String) (arguments : List Meaning) (callee span : Span) :
    Check (Option Meaning) := do
  match (← classes).findMethod? className name with
  | none => refuse (.memberNotFound name className) callee
  | some (_, method) =>
    let matched ←
      match arguments.mapM Meaning.valueType? with
      | some types => accepts method.parameterTypes types
      | none => pure false
    if matched then return (← resolve method.declaredType.text).map Meaning.result
    else refuse (.argumentsDoNotMatch name) span

def callResult (callee : Meaning) (arguments : List (Option Meaning)) (calleeSpan span : Span) :
    Check (Option Meaning) :=
  match callee with
  | .method className name _ =>
    match arguments.mapM id with
    | some arguments => methodResult className name arguments calleeSpan span
    | none => return none
  | .value .. | .typeName _ => refuse .notAMethod calleeSpan

end Check

end ClassLang
