import ClassLang.ClassTable.Resolve

namespace ClassLang

/-- The field or method that a name stands for in a class; fields come first. -/
def ClassDef.findMember? (c : ClassDef) (name : String) : Option Member :=
  let field := c.fields.find? fun (_, declarators) => declarators.any (fun d => d.name.text == name)
  (field.map Prod.fst).or (c.findMethod? name)

namespace ClassTable

def findMember? (table : ClassTable) (className name : String) : Option (ClassDef × Member) :=
  (table.lineage className).findSome? fun c => (c.findMember? name).map (fun m => (c, m))

def findMethod? (table : ClassTable) (className name : String) : Option (ClassDef × Member) :=
  (table.lineage className).findSome? fun c => (c.findMethod? name).map (fun m => (c, m))

def isInstantiable (table : ClassTable) : Ty → Bool
  | .classRef name => (table.get? name).any (fun c => c.modifier != .abstract && !c.isPrimitive)
  | .list _ => true
  | .primitive _ | .void => false

/-- The operators of a class and its ancestors that have the given symbol and number of parameters,
nearest first. -/
def operatorCandidates (table : ClassTable) (className symbol : String) (count : Nat) :
    List Member :=
  (table.lineage className).flatMap fun c =>
    (c.operators.filter fun (_, routine) =>
      routine.name.text == symbol && routine.parameters.length == count).map Prod.fst

end ClassTable

end ClassLang
