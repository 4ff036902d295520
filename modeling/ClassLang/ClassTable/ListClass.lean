import ClassLang.ClassTable.Basic
import ClassLang.Types.Ty

namespace ClassLang

/-- A method that the language itself provides: public, without a body, and written nowhere. -/
def Member.provided (owner name returnType : String) (parameters : List Parameter) : Member where
  visibility := .everywhere
  modifier := .normal
  isStatic := false
  declaredType := .provided returnType
  owner := owner
  span := .nowhere
  kind := .method ⟨.provided name, parameters, none⟩

def listMethods (owner element : String) : List Member :=
  let position := Parameter.provided "int" "position"
  let item := Parameter.provided element "item"
  [.provided owner "Append" "void" [item],
   .provided owner "RemoveAt" "void" [position],
   .provided owner "Clear" "void" [],
   .provided owner "At" element [position],
   .provided owner "Replace" "void" [position, item],
   .provided owner "Insert" "void" [position, item],
   .provided owner "Count" "int" []]

def ClassDef.listOf (element : Ty) : ClassDef where
  ident := .provided (listName element.name)
  base := none
  modifier := .concrete
  label := .plain
  isBackend := true
  isPrimitive := false
  members := listMethods (listName element.name) element.name
  span := .nowhere

/-- The names that a class marked as backend may have: the primitive types and the bare list. -/
def isBackendName (name : String) : Bool :=
  Primitive.all.any (fun p => p.keyword == name) || name == "list"

namespace ClassTable

/-- The class behind the lists of an element type: the one registered under that name if there is
one, else a new one. -/
def listClass (table : ClassTable) (element : Ty) : ClassDef :=
  (table.get? (listName element.name)).getD (.listOf element)

def ensureList (table : ClassTable) (element : Ty) : ClassTable :=
  if table.contains (listName element.name) then table else table.register (.listOf element)

end ClassTable

end ClassLang
