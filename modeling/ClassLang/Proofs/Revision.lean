import ClassLang.Proofs.Bare
import Mathlib.Logic.Basic

namespace ClassLang

/-- How a program is revised: what stands in it is moved to other places. -/
structure Revision where
  place : Span → Span
  place_nowhere : place .nowhere = .nowhere
  /-- Whether code that can not be reached is cut off. -/
  cuts : Bool

namespace Revision

def bare : Revision := ⟨fun _ => .nowhere, rfl, false⟩

def cut : Revision := ⟨id, rfl, true⟩

end Revision

def Ident.revised (rev : Revision) (name : Ident) : Ident := ⟨name.text, rev.place name.span⟩

@[simp]
theorem Ident.text_revised {rev : Revision} (name : Ident) :
    (name.revised rev).text = name.text := rfl

mutual

def Expr.revised (rev : Revision) : Expr → Expr
  | .literal kind text span => .literal kind text (rev.place span)
  | .ident name => .ident (name.revised rev)
  | .member target name span => .member (target.revised rev) (name.revised rev) (rev.place span)
  | .call callee arguments span =>
    .call (callee.revised rev) (Expr.revisedAll rev arguments) (rev.place span)
  | .new className arguments span =>
    .new (className.revised rev) (Expr.revisedAll rev arguments) (rev.place span)
  | .unary operator operand span => .unary operator (operand.revised rev) (rev.place span)
  | .binary left operator right span =>
    .binary (left.revised rev) operator (right.revised rev) (rev.place span)
  | .assign target operator value span =>
    .assign (target.revised rev) operator (value.revised rev) (rev.place span)

def Expr.revisedAll (rev : Revision) : List Expr → List Expr
  | [] => []
  | e :: rest => e.revised rev :: Expr.revisedAll rev rest

end

def Declarator.revised (rev : Revision) (d : Declarator) : Declarator :=
  ⟨d.name.revised rev, d.value.map (Expr.revised rev), rev.place d.span⟩

def Declaration.revised (rev : Revision) (d : Declaration) : Declaration :=
  ⟨d.typeName.revised rev, d.declarators.map (Declarator.revised rev), rev.place d.span⟩

def ForInit.revised (rev : Revision) : ForInit → ForInit
  | .declaration d => .declaration (d.revised rev)
  | .expression e => .expression (e.revised rev)

/-- What is left of statements that can not be reached: the place of the first. -/
def Stmt.remnant (rev : Revision) (statements : List Stmt) : List Stmt :=
  (statements.take 1).map fun next => .breakLoop (rev.place next.span)

mutual

def Stmt.revised (rev : Revision) : Stmt → Stmt
  | .block statements span => .block (Stmt.revisedAll rev statements) (rev.place span)
  | .continueLoop span => .continueLoop (rev.place span)
  | .breakLoop span => .breakLoop (rev.place span)
  | .ret value span => .ret (value.map (Expr.revised rev)) (rev.place span)
  | .declaration d => .declaration (d.revised rev)
  | .whileLoop condition body span =>
    .whileLoop (condition.revised rev) (body.revised rev) (rev.place span)
  | .doLoop body condition span =>
    .doLoop (body.revised rev) (condition.revised rev) (rev.place span)
  | .ifThen condition thenBranch span =>
    .ifThen (condition.revised rev) (thenBranch.revised rev) (rev.place span)
  | .ifElse condition thenBranch elseBranch span =>
    .ifElse (condition.revised rev) (thenBranch.revised rev) (elseBranch.revised rev)
      (rev.place span)
  | .forLoop init condition step body span =>
    .forLoop (init.map (ForInit.revised rev)) (condition.map (Expr.revised rev))
      (step.map (Expr.revised rev)) (body.revised rev) (rev.place span)
  | .expression e span => .expression (e.revised rev) (rev.place span)

def Stmt.revisedAll (rev : Revision) : List Stmt → List Stmt
  | [] => []
  | s :: rest =>
    s.revised rev ::
      if rev.cuts && s.alwaysReturns then Stmt.remnant rev rest else Stmt.revisedAll rev rest

end

def Block.revised (rev : Revision) (b : Block) : Block :=
  ⟨Stmt.revisedAll rev b.statements, rev.place b.span⟩

def Parameter.revised (rev : Revision) (p : Parameter) : Parameter :=
  ⟨p.typeName.revised rev, p.name.revised rev⟩

def Routine.revised (rev : Revision) (routine : Routine) : Routine :=
  ⟨routine.name.revised rev, routine.parameters.map (Parameter.revised rev),
    routine.body.map (Block.revised rev)⟩

def MemberKind.revised (rev : Revision) : MemberKind → MemberKind
  | .field declarators => .field (declarators.map (Declarator.revised rev))
  | .method routine => .method (routine.revised rev)
  | .operator routine => .operator (routine.revised rev)

def Member.revised (rev : Revision) (m : Member) : Member :=
  { m with
    declaredType := m.declaredType.revised rev, span := rev.place m.span,
    kind := m.kind.revised rev }

def ClassDef.revised (rev : Revision) (c : ClassDef) : ClassDef :=
  { c with
    ident := c.ident.revised rev, base := c.base.map (Ident.revised rev),
    members := c.members.map (Member.revised rev), span := rev.place c.span }

def Program.revised (rev : Revision) (p : Program) : Program :=
  ⟨p.classes.map (ClassDef.revised rev)⟩

section Places

theorem Expr.span_revised {rev : Revision} (e : Expr) :
    (e.revised rev).span = rev.place e.span := by
  cases e <;> rfl

theorem Stmt.span_revised {rev : Revision} (s : Stmt) :
    (s.revised rev).span = rev.place s.span := by
  cases s <;> rfl

end Places

section Blocks

variable {rev : Revision}

namespace Stmt

theorem revisedAll_singleton (s : Stmt) : revisedAll rev [s] = [s.revised rev] := by
  rw [revisedAll]
  split <;> rfl

theorem revisedAll_of_not_returns {s : Stmt} (h : s.alwaysReturns = false) (rest : List Stmt) :
    revisedAll rev (s :: rest) = s.revised rev :: revisedAll rev rest := by
  rw [revisedAll, h, Bool.and_false, if_neg Bool.false_ne_true]

theorem exists_revisedAll (rev : Revision) (s next : Stmt) (rest : List Stmt) :
    ∃ first others, revisedAll rev (s :: next :: rest) = s.revised rev :: first :: others ∧
      first.span = rev.place next.span := by
  rw [revisedAll]
  split
  · exact ⟨_, _, rfl, rfl⟩
  · exact ⟨_, _, rfl, next.span_revised⟩

end Stmt

end Blocks

section Returns

mutual

theorem Stmt.alwaysReturns_revised {rev : Revision} :
    (s : Stmt) → (s.revised rev).alwaysReturns = s.alwaysReturns
  | .block statements _ => Stmt.anyAlwaysReturns_revised statements
  | .ifElse _ thenBranch elseBranch _ =>
    congrArg₂ and (alwaysReturns_revised thenBranch) (alwaysReturns_revised elseBranch)
  | .doLoop body _ _ => alwaysReturns_revised body
  | .ret .. | .continueLoop .. | .breakLoop .. | .declaration .. | .whileLoop .. | .ifThen ..
  | .forLoop .. | .expression .. => rfl

theorem Stmt.anyAlwaysReturns_revised {rev : Revision} :
    (ss : List Stmt) → anyAlwaysReturns (revisedAll rev ss) = anyAlwaysReturns ss
  | [] => rfl
  | s :: rest => by
    rw [revisedAll, anyAlwaysReturns, anyAlwaysReturns, alwaysReturns_revised s]
    cases hs : s.alwaysReturns with
    | true => rfl
    | false => rw [Bool.and_false, if_neg Bool.false_ne_true, anyAlwaysReturns_revised rest]

end

theorem Block.alwaysReturns_revised {rev : Revision} (b : Block) :
    (b.revised rev).alwaysReturns = b.alwaysReturns := Stmt.anyAlwaysReturns_revised b.statements

end Returns

section Bare

mutual

theorem Expr.revised_bare (e : Expr) : e.revised .bare = e.bare := by
  cases e with
  | literal kind text span => rfl
  | ident name => rfl
  | member target name span =>
    rw [revised, bare, target.revised_bare]
    rfl
  | call callee arguments span =>
    rw [revised, bare, callee.revised_bare, revisedAll_bare arguments]
    rfl
  | new className arguments span =>
    rw [revised, bare, revisedAll_bare arguments]
    rfl
  | unary operator operand span =>
    rw [revised, bare, operand.revised_bare]
    rfl
  | binary left operator right span | assign left operator right span =>
    rw [revised, bare, left.revised_bare, right.revised_bare]
    rfl

theorem Expr.revisedAll_bare : (es : List Expr) → revisedAll .bare es = bareAll es
  | [] => rfl
  | e :: rest => congrArg₂ List.cons e.revised_bare (revisedAll_bare rest)

end

theorem Declarator.revised_bare (d : Declarator) : d.revised .bare = d.bare := by
  rw [revised, bare, funext Expr.revised_bare]
  rfl

theorem Declaration.revised_bare (d : Declaration) : d.revised .bare = d.bare := by
  rw [revised, bare, funext Declarator.revised_bare]
  rfl

theorem ForInit.revised_bare (init : ForInit) : init.revised .bare = init.bare := by
  cases init with
  | declaration d => exact congrArg ForInit.declaration d.revised_bare
  | expression e => exact congrArg ForInit.expression e.revised_bare

mutual

theorem Stmt.revised_bare (s : Stmt) : s.revised .bare = s.bare := by
  cases s with
  | block statements span =>
    rw [revised, bare, revisedAll_bare statements]
    rfl
  | continueLoop span => rfl
  | breakLoop span => rfl
  | ret value span =>
    rw [revised, bare, funext Expr.revised_bare]
    rfl
  | declaration d => exact congrArg Stmt.declaration d.revised_bare
  | whileLoop condition body span | doLoop body condition span | ifThen condition body span =>
    rw [revised, bare, condition.revised_bare, body.revised_bare]
    rfl
  | ifElse condition thenBranch elseBranch span =>
    rw [revised, bare, condition.revised_bare, thenBranch.revised_bare, elseBranch.revised_bare]
    rfl
  | forLoop init condition step body span =>
    rw [revised, bare, funext ForInit.revised_bare, funext Expr.revised_bare, body.revised_bare]
    rfl
  | expression e span =>
    rw [revised, bare, e.revised_bare]
    rfl

theorem Stmt.revisedAll_bare : (ss : List Stmt) → revisedAll .bare ss = bareAll ss
  | [] => rfl
  | s :: rest => congrArg₂ List.cons s.revised_bare (revisedAll_bare rest)

end

theorem Block.revised_bare (b : Block) : b.revised .bare = b.bare := by
  rw [revised, bare, Stmt.revisedAll_bare, Stmt.bareAll_eq_map]
  rfl

theorem Routine.revised_bare (routine : Routine) : routine.revised .bare = routine.bare := by
  rw [revised, bare, funext Block.revised_bare]
  rfl

theorem MemberKind.revised_bare (kind : MemberKind) : kind.revised .bare = kind.bare := by
  cases kind with
  | field declarators =>
    rw [revised, bare, funext Declarator.revised_bare]
  | method routine => exact congrArg MemberKind.method routine.revised_bare
  | operator routine => exact congrArg MemberKind.operator routine.revised_bare

theorem Member.revised_bare (m : Member) : m.revised .bare = m.bare := by
  rw [revised, bare, m.kind.revised_bare]
  rfl

theorem ClassDef.revised_bare (c : ClassDef) : c.revised .bare = c.bare := by
  rw [revised, bare, funext Member.revised_bare]
  rfl

theorem Program.revised_bare (p : Program) : p.revised .bare = p.bare := by
  rw [revised, bare, funext ClassDef.revised_bare]

end Bare

end ClassLang
