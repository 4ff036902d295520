import ClassLang.Program.Class
import ClassLang.Program.Reading.Stmt

namespace ClassLang

/-- Members are hidden from other classes unless they say otherwise. -/
def Visibility.ofKeyword : Option String → Except Malformed Visibility
  | none | some "private" => .ok .inClass
  | some "public" => .ok .everywhere
  | some "protected" => .ok .inFamily
  | some other => .error (.unknownKeyword .accessor other)

def MemberModifier.ofKeyword : Option String → Except Malformed MemberModifier
  | none => .ok .normal
  | some "override" => .ok .override
  | some "abstract" => .ok .abstract
  | some "virtual" => .ok .virtual
  | some other => .error (.unknownKeyword .memberModifier other)

def ClassModifier.ofKeyword : Option String → Except Malformed ClassModifier
  | none => .ok .normal
  | some "abstract" => .ok .abstract
  | some "concrete" => .ok .concrete
  | some other => .error (.unknownKeyword .classModifier other)

def ClassLabel.ofKeyword : String → Except Malformed ClassLabel
  | "class" => .ok .plain
  | "screen" => .ok .screen
  | other => .error (.unknownKeyword .classDefinition other)

def Parameter.ofTree (t : Tree) : Except Malformed Parameter := do
  let t ← t.expect .parameter
  let typeName ← Ident.ofTree (← t.child 0)
  return ⟨typeName, ← Ident.ofTree (← t.child 1)⟩

def Parameter.listOfTree (t : Tree) : Except Malformed (List Parameter) := do
  (← t.expect .parameterList).children.mapM ofTree

/-- The body of a method or operator. Whatever is not a block is the `;` of a missing body. -/
def Block.ofTree? (t : Tree) : Except Malformed (Option Block) := do
  if t.rule = .block then return some (← Block.ofTree t) else return none

def MemberKind.ofTree (t : Tree) : Except Malformed MemberKind := do
  match t.rule with
  | .fieldDefinition => return .field (← Declarator.listOfTree (← t.child 4))
  | .methodDefinition =>
    let name ← Ident.ofTree (← t.child 4)
    let parameters ← Parameter.listOfTree (← t.child 6)
    return .method ⟨name, parameters, ← Block.ofTree? (← t.child 8)⟩
  | .operatorDefinition =>
    let symbol ← t.child 5
    let name : Ident := ⟨← symbol.text, symbol.span⟩
    let parameters ← Parameter.listOfTree (← t.child 7)
    return .operator ⟨name, parameters, ← Block.ofTree? (← t.child 9)⟩
  | other => throw (.invalidNode other .member)

/-- A member of the class `owner`. The header is read before the rule of the node is looked at. -/
def Member.ofTree (owner : String) (t : Tree) : Except Malformed Member := do
  let visibility ← Visibility.ofKeyword (← t.keywordPart 0 .accessor)
  let modifier ← MemberModifier.ofKeyword (← t.keywordPart 1 .memberModifier)
  let isStatic ← t.markerPart 2 .staticMarker
  let declaredType ← Ident.ofTree (← t.child 3)
  let kind ← MemberKind.ofTree t
  return ⟨visibility, modifier, isStatic, declaredType, owner, t.span, kind⟩

def ClassDef.baseOfTree (t : Tree) : Except Malformed (Option Ident) := do
  if t.children.isEmpty then return none else return some (← Ident.ofTree (← t.child 1))

def ClassDef.ofTree (t : Tree) : Except Malformed ClassDef := do
  let t ← t.expect .classDefinition
  let modifier ← ClassModifier.ofKeyword (← t.keywordPart 0 .classModifier)
  let isPrimitive ← t.markerPart 1 .primitiveMarker
  let isBackend ← t.markerPart 2 .backendMarker
  let label ← ClassLabel.ofKeyword (← (← t.child 3).text)
  let ident ← Ident.ofTree (← t.child 4)
  let base ← baseOfTree (← t.part 5 .baseClause)
  let members ← (← t.part 7 .memberList).children.mapM (Member.ofTree ident.text)
  return ⟨ident, base, modifier, label, isBackend, isPrimitive, members, t.span⟩

/-- The program that a tree stands for, or the first fault that reading it from left to right
meets. -/
def Program.ofTree (t : Tree) : Except Malformed Program := do
  return ⟨← (← t.expect .program).children.mapM ClassDef.ofTree⟩

end ClassLang
