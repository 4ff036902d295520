import ClassLang.ClassTable.Ancestry
import ClassLang.ClassTable.ListClass

namespace ClassLang

namespace ClassTable

def classType? (table : ClassTable) (name : String) : Option Ty :=
  if table.contains name then some (.classRef name) else none

variable [Alphabet]

/-- The type that a name stands for, and the table afterwards. Before classes of that name come
`void`, the primitive types and the lists of what the element's name stands for, unless that is
`void`. A list type brings its class into the table. -/
def resolve (table : ClassTable) (name : String) : Option Ty × ClassTable :=
  if name = "void" then (some .void, table)
  else
    match Primitive.ofKeyword? name with
    | some p => (some (.primitive p), table)
    | none =>
      match _h : listElement? name with
      | none => (table.classType? name, table)
      | some element =>
        match table.resolve element with
        | (none, table) | (some .void, table) => (table.classType? name, table)
        | (some ty, table) => (some (.list ty), table.ensureList ty)
termination_by name.length
decreasing_by exact length_lt_of_listElement? _h

/-- Whether a value of the first type may stand where the second is expected: the types are the
same, or classes of which the second is an ancestor of the first. -/
def isAssignable (table : ClassTable) (source target : Ty) : Bool :=
  source == target ||
    match source, target with
    | .classRef name, .classRef ancestor => table.isAncestor ancestor name
    | _, _ => false

end ClassTable

end ClassLang
