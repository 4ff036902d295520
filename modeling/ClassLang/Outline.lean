import ClassLang.Program.Class

namespace ClassLang

/-- A tree of labels by which a viewer shows a program. -/
structure Outline where
  label : String
  children : List Outline := []

namespace Outline

def counted (label : String) (children : List Outline) : Outline :=
  ⟨label ++ ": Count = " ++ toString children.length, children⟩

end Outline

mutual

def Expr.outline : Expr → Outline
  | .literal kind text _ => ⟨kind.title ++ " Literal: " ++ text, []⟩
  | .ident name => ⟨"Identifier: " ++ name.text, []⟩
  | .member target name _ => ⟨"Member Access: ." ++ name.text, [target.outline]⟩
  | .call callee arguments _ => ⟨"Method Call", callee.outline :: outlines arguments⟩
  | .new className arguments _ => ⟨"New: " ++ className.text, outlines arguments⟩
  | .unary operator operand _ => ⟨"Unary: " ++ operator, [operand.outline]⟩
  | .binary left operator right _ => ⟨"Binary: " ++ operator, [left.outline, right.outline]⟩
  | .assign target operator value _ =>
    ⟨"Assignment: " ++ operator, [target.outline, value.outline]⟩

def Expr.outlines : List Expr → List Outline
  | [] => []
  | e :: es => e.outline :: outlines es

end

def Declarator.outline (d : Declarator) : Outline :=
  match d.value with
  | some value => ⟨d.name.text ++ " =", [value.outline]⟩
  | none => ⟨d.name.text, []⟩

def Declaration.outline (d : Declaration) : Outline :=
  ⟨"Declaration: " ++ d.typeName.text, d.declarators.map Declarator.outline⟩

def ForInit.outline : ForInit → Outline
  | .declaration d => d.outline
  | .expression e => e.outline

mutual

def Stmt.outline : Stmt → Outline
  | .block statements _ => .counted "Block" (outlines statements)
  | .continueLoop _ => ⟨"Continue Statement", []⟩
  | .breakLoop _ => ⟨"Break Statement", []⟩
  | .ret value _ => ⟨"Return Statement", value.toList.map Expr.outline⟩
  | .declaration d => d.outline
  | .whileLoop condition body _ => ⟨"While Statement", [condition.outline, body.outline]⟩
  | .doLoop body condition _ => ⟨"Do While Statement", [body.outline, condition.outline]⟩
  | .ifThen condition thenBranch _ => ⟨"If Statement", [condition.outline, thenBranch.outline]⟩
  | .ifElse condition thenBranch elseBranch _ =>
    ⟨"If Statement", [condition.outline, thenBranch.outline, ⟨"Else", [elseBranch.outline]⟩]⟩
  | .forLoop init condition step body _ =>
    ⟨"For Statement", init.toList.map ForInit.outline ++ condition.toList.map Expr.outline
      ++ step.toList.map Expr.outline ++ [body.outline]⟩
  | .expression e _ => ⟨"Expression Statement", [e.outline]⟩

def Stmt.outlines : List Stmt → List Outline
  | [] => []
  | s :: rest => s.outline :: outlines rest

end

def Block.outline (b : Block) : Outline := b.toStmt.outline

def Parameter.outline (p : Parameter) : Outline := ⟨p.typeName.text ++ " " ++ p.name.text, []⟩

def Routine.outlines (r : Routine) : List Outline :=
  .counted "Parameters" (r.parameters.map Parameter.outline) :: r.body.toList.map Block.outline

def Member.headerOutlines (m : Member) : List Outline :=
  [⟨"Accessor = " ++ m.visibility.title, []⟩,
   ⟨"Modifier = " ++ m.modifier.title, []⟩,
   ⟨"Static = " ++ (if m.isStatic then "true" else "false"), []⟩,
   ⟨"Type = " ++ m.declaredType.text, []⟩]

def Member.outline (m : Member) : Outline :=
  match m.kind with
  | .field declarators =>
    ⟨"Field Declaration",
      m.headerOutlines ++ [.counted "Atoms" (declarators.map Declarator.outline)]⟩
  | .method routine => ⟨"Method: " ++ routine.name.text, m.headerOutlines ++ routine.outlines⟩
  | .operator routine => ⟨"Operator: " ++ routine.name.text, m.headerOutlines ++ routine.outlines⟩

def ClassDef.headline (c : ClassDef) : String :=
  c.modifier.title ++ " " ++ (if c.isPrimitive then "Primitive " else "")
    ++ (if c.isBackend then "Backend " else "") ++ c.label.title ++ " " ++ c.name
    ++ (match c.baseName? with
      | some base => " extends " ++ base
      | none => "")

def ClassDef.outline (c : ClassDef) : Outline :=
  ⟨c.headline, [.counted "Members" (c.members.map Member.outline)]⟩

def Program.outline (p : Program) : Outline := .counted "Program" (p.classes.map ClassDef.outline)

end ClassLang
