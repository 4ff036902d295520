import ClassLang.Program.Class

namespace ClassLang

def Ident.bare (name : Ident) : Ident := .provided name.text

@[simp]
theorem Ident.text_bare (name : Ident) : name.bare.text = name.text := rfl

mutual

def Expr.bare : Expr → Expr
  | .literal kind text _ => .literal kind text .nowhere
  | .ident name => .ident name.bare
  | .member target name _ => .member target.bare name.bare .nowhere
  | .call callee arguments _ => .call callee.bare (Expr.bareAll arguments) .nowhere
  | .new className arguments _ => .new className.bare (Expr.bareAll arguments) .nowhere
  | .unary operator operand _ => .unary operator operand.bare .nowhere
  | .binary left operator right _ => .binary left.bare operator right.bare .nowhere
  | .assign target operator value _ => .assign target.bare operator value.bare .nowhere

def Expr.bareAll : List Expr → List Expr
  | [] => []
  | e :: rest => e.bare :: Expr.bareAll rest

end

@[simp]
theorem Expr.bareAll_eq_map (es : List Expr) : Expr.bareAll es = es.map Expr.bare := by
  induction es with
  | nil => rfl
  | cons e es ih => rw [Expr.bareAll, ih, List.map_cons]

def Declarator.bare (d : Declarator) : Declarator :=
  ⟨d.name.bare, d.value.map Expr.bare, .nowhere⟩

def Declaration.bare (d : Declaration) : Declaration :=
  ⟨d.typeName.bare, d.declarators.map Declarator.bare, .nowhere⟩

def ForInit.bare : ForInit → ForInit
  | .declaration d => .declaration d.bare
  | .expression e => .expression e.bare

mutual

def Stmt.bare : Stmt → Stmt
  | .block statements _ => .block (Stmt.bareAll statements) .nowhere
  | .continueLoop _ => .continueLoop .nowhere
  | .breakLoop _ => .breakLoop .nowhere
  | .ret value _ => .ret (value.map Expr.bare) .nowhere
  | .declaration d => .declaration d.bare
  | .whileLoop condition body _ => .whileLoop condition.bare body.bare .nowhere
  | .doLoop body condition _ => .doLoop body.bare condition.bare .nowhere
  | .ifThen condition thenBranch _ => .ifThen condition.bare thenBranch.bare .nowhere
  | .ifElse condition thenBranch elseBranch _ =>
    .ifElse condition.bare thenBranch.bare elseBranch.bare .nowhere
  | .forLoop init condition step body _ =>
    .forLoop (init.map ForInit.bare) (condition.map Expr.bare) (step.map Expr.bare) body.bare
      .nowhere
  | .expression e _ => .expression e.bare .nowhere

def Stmt.bareAll : List Stmt → List Stmt
  | [] => []
  | s :: rest => s.bare :: Stmt.bareAll rest

end

@[simp]
theorem Stmt.bareAll_eq_map (ss : List Stmt) : Stmt.bareAll ss = ss.map Stmt.bare := by
  induction ss with
  | nil => rfl
  | cons s ss ih => rw [Stmt.bareAll, ih, List.map_cons]

def Block.bare (b : Block) : Block := ⟨b.statements.map Stmt.bare, .nowhere⟩

def Parameter.bare (p : Parameter) : Parameter := ⟨p.typeName.bare, p.name.bare⟩

def Routine.bare (r : Routine) : Routine :=
  ⟨r.name.bare, r.parameters.map Parameter.bare, r.body.map Block.bare⟩

def MemberKind.bare : MemberKind → MemberKind
  | .field declarators => .field (declarators.map Declarator.bare)
  | .method routine => .method routine.bare
  | .operator routine => .operator routine.bare

def Member.bare (m : Member) : Member :=
  { m with declaredType := m.declaredType.bare, span := .nowhere, kind := m.kind.bare }

def ClassDef.bare (c : ClassDef) : ClassDef :=
  { c with
    ident := c.ident.bare, base := c.base.map Ident.bare, members := c.members.map Member.bare,
    span := .nowhere }

/-- Programs are equal up to spans if they are the same once they are bare. -/
def Program.bare (p : Program) : Program := ⟨p.classes.map ClassDef.bare⟩

end ClassLang
