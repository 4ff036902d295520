import ClassLang.Program.Reading.Class
import ClassLang.Proofs.Bare
import Mathlib.Control.Basic

namespace ClassLang

variable {α β : Type}

namespace Tree

def readAt (t : Tree) (index : Nat) (read : Tree → Except Malformed α) : Except Malformed α :=
  t.require index (t.children[index]?.map read)

def readRow (rule : Rule) (read : Tree → Except Malformed α) (t : Tree) :
    Except Malformed (List α) := do
  (← t.expect rule).children.mapM read

/-- The child at a place of a node of the given rule, unless that is empty. -/
def readClause (rule : Rule) (index : Nat) (read : Tree → Except Malformed α) (t : Tree) :
    Except Malformed (Option α) := do
  let t ← t.expect rule
  if t.children.isEmpty then return none else return some (← t.readAt index read)

def readMarker (rule : Rule) (t : Tree) : Except Malformed Bool := do
  return !(← t.expect rule).children.isEmpty

theorem expect_of_rule {t : Tree} {rule : Rule} (h : t.rule = rule) : t.expect rule = .ok t :=
  if_pos h

theorem child_bind (t : Tree) (index : Nat) (f : Tree → Except Malformed α) :
    t.child index >>= f = t.readAt index f := by
  unfold child readAt
  cases t.children[index]? <;> rfl

theorem part_bind (t : Tree) (index : Nat) (rule : Rule) (f : Tree → Except Malformed α) :
    t.part index rule >>= f = t.readAt index (fun u => u.expect rule >>= f) := by
  rw [part, bind_assoc, child_bind]

theorem map_readAt (f : α → β) (t : Tree) (index : Nat) (read : Tree → Except Malformed α) :
    f <$> t.readAt index read = t.readAt index (fun u => f <$> read u) := by
  unfold readAt
  cases t.children[index]? <;> rfl

theorem map_readRow (f : α → β) (rule : Rule) (read : Tree → Except Malformed α) (t : Tree) :
    List.map f <$> t.readRow rule read = t.readRow rule (fun u => f <$> read u) := by
  have hrow (ts : List Tree) : List.map f <$> ts.mapM read = ts.mapM (fun u => f <$> read u) := by
    induction ts with
    | nil => rfl
    | cons t ts ih => simp [← ih]
  simp [readRow, hrow]

theorem map_readClause (f : α → β) (rule : Rule) (index : Nat)
    (read : Tree → Except Malformed α) (t : Tree) :
    Option.map f <$> t.readClause rule index read =
      t.readClause rule index (fun u => f <$> read u) := by
  unfold readClause
  simp only [map_bind]
  congr 1
  funext u
  split
  · rfl
  · simp [← map_readAt]

theorem map_readAt_readRow (f : α → β) (t : Tree) (index : Nat) (rule : Rule)
    (read : Tree → Except Malformed α) :
    List.map f <$> t.readAt index (readRow rule read) =
      t.readAt index (readRow rule (fun u => f <$> read u)) := by
  rw [map_readAt]
  simp only [map_readRow]

theorem map_readAt_readClause (f : α → β) (t : Tree) (index : Nat) (rule : Rule) (place : Nat)
    (read : Tree → Except Malformed α) :
    Option.map f <$> t.readAt index (readClause rule place read) =
      t.readAt index (readClause rule place (fun u => f <$> read u)) := by
  rw [map_readAt]
  simp only [map_readClause]

theorem map_child_bind (f : α → β) (t : Tree) (index : Nat) (read : Tree → Except Malformed α) :
    f <$> (t.child index >>= read) = t.readAt index (fun u => f <$> read u) := by
  rw [child_bind, map_readAt]

theorem readAt_text (t : Tree) (index : Nat) : t.readAt index text = t.child index >>= text :=
  (t.child_bind index text).symm

theorem optionalPart_eq (t : Tree) (index : Nat) (rule : Rule)
    (read : Tree → Except Malformed α) :
    t.optionalPart index rule read = t.readAt index (readClause rule 0 read) := by
  rw [optionalPart, part_bind]
  unfold readClause
  congr
  funext u
  congr
  funext v
  obtain ⟨_, _, _ | ⟨content, rest⟩⟩ := v <;> rfl

theorem map_optionalPart (f : α → β) (t : Tree) (index : Nat) (rule : Rule)
    (read : Tree → Except Malformed α) :
    Option.map f <$> t.optionalPart index rule read =
      t.readAt index (readClause rule 0 (fun u => f <$> read u)) := by
  rw [optionalPart_eq, map_readAt_readClause]

theorem markerPart_eq (t : Tree) (index : Nat) (rule : Rule) :
    t.markerPart index rule = t.readAt index (readMarker rule) := by
  rw [markerPart, part_bind]
  unfold readMarker
  congr
  funext u
  congr
  funext v
  obtain ⟨_, _, _ | ⟨content, rest⟩⟩ := v <;> rfl

end Tree

open ClassLang.Tree

namespace Ident

def read (t : Tree) : Except Malformed Ident := bare <$> ofTree t

theorem read_eq (t : Tree) : read t = do return .provided (← (← t.expect .identifier).text) := by
  simp [read, ofTree, bare]

theorem readAt_read (t : Tree) (index : Nat) :
    t.readAt index read = bare <$> (t.child index >>= ofTree) :=
  (map_child_bind bare t index ofTree).symm

end Ident

def LiteralKind.rule : LiteralKind → Rule
  | .integer => .integerLiteral
  | .real => .realLiteral
  | .string => .stringLiteral
  | .char => .charLiteral
  | .boolean => .booleanLiteral

namespace Expr

def read (t : Tree) : Except Malformed Expr := bare <$> ofTree t

def readArguments : Tree → Except Malformed (List Expr) := Tree.readRow .argumentList read

theorem ofTrees_eq_mapM (ts : List Tree) : ofTrees ts = ts.mapM ofTree := by
  induction ts with
  | nil => rfl
  | cons t ts ih => simp [ofTrees, ih]

theorem argumentsAt?_eq_map (ts : List Tree) (index : Nat) :
    argumentsAt? ts index = ts[index]?.map (Tree.readRow .argumentList ofTree) := by
  induction ts generalizing index with
  | nil => simp [argumentsAt?]
  | cons t ts ih =>
    cases index with
    | zero =>
      obtain ⟨rule, token, children⟩ := t
      cases rule
      case argumentList => exact congrArg some (ofTrees_eq_mapM children)
      all_goals rfl
    | succ index => simp [argumentsAt?, ih]

theorem readAt_read (t : Tree) (index : Nat) :
    t.readAt index read = bare <$> t.require index (at? t.children index) := by
  rw [at?_eq_map]
  exact (map_readAt _ _ _ _).symm

theorem readAt_read_child (t : Tree) (index : Nat) :
    t.readAt index read = bare <$> (t.child index >>= ofTree) :=
  (map_child_bind bare t index ofTree).symm

theorem readAt_readOptional (t : Tree) (index : Nat) (rule : Rule) :
    t.readAt index (readClause rule 0 read) =
      Option.map bare <$> t.optionalPart index rule ofTree :=
  (map_optionalPart bare t index rule ofTree).symm

theorem readAt_readArguments (t : Tree) (index : Nat) :
    t.readAt index readArguments =
      List.map bare <$> t.require index (argumentsAt? t.children index) := by
  rw [argumentsAt?_eq_map]
  exact (map_readAt_readRow bare t index .argumentList ofTree).symm

variable {t : Tree}

attribute [local simp] read ofTree bare

theorem read_ident (h : t.rule = .identifier) : read t = .ident <$> Ident.read t := by
  obtain ⟨rule, token, children⟩ := t
  cases h
  simp [Ident.read]

theorem read_literal (kind : LiteralKind) (h : t.rule = kind.rule) :
    read t = do return .literal kind (← t.text) .nowhere := by
  obtain ⟨rule, token, children⟩ := t
  cases h
  cases kind <;> simp [literalOfTree]

theorem read_parenthesized (h : t.rule = .parenthesizedExpression) :
    read t = t.readAt 1 read := by
  obtain ⟨rule, token, children⟩ := t
  cases h
  simp [readAt_read]

theorem read_member (h : t.rule = .memberAccess) :
    read t = do
      let target ← t.readAt 0 read
      let name ← t.readAt 2 Ident.read
      return .member target name .nowhere := by
  obtain ⟨rule, token, children⟩ := t
  cases h
  simp [readAt_read, Ident.readAt_read]

theorem read_call (h : t.rule = .methodCall) :
    read t = do
      let callee ← t.readAt 0 read
      let arguments ← t.readAt 2 readArguments
      return .call callee arguments .nowhere := by
  obtain ⟨rule, token, children⟩ := t
  cases h
  simp [readAt_read, readAt_readArguments]

theorem read_new (h : t.rule = .newExpression) :
    read t = do
      let className ← t.readAt 1 Ident.read
      let arguments ← t.readAt 3 readArguments
      return .new className arguments .nowhere := by
  obtain ⟨rule, token, children⟩ := t
  cases h
  simp [Ident.readAt_read, readAt_readArguments]

theorem read_unary (h : t.rule = .unaryExpression) :
    read t = do
      let operator ← t.readAt 0 text
      let operand ← t.readAt 1 read
      return .unary operator operand .nowhere := by
  obtain ⟨rule, token, children⟩ := t
  cases h
  simp [readAt_read, readAt_text]

theorem read_binary (h : t.rule = .binaryExpression) :
    read t = do
      let left ← t.readAt 0 read
      let operator ← t.readAt 1 text
      let right ← t.readAt 2 read
      return .binary left operator right .nowhere := by
  obtain ⟨rule, token, children⟩ := t
  cases h
  simp [readAt_read, readAt_text]

theorem read_assign (h : t.rule = .assignmentExpression) :
    read t = do
      let target ← t.readAt 0 read
      let operator ← t.readAt 1 text
      let value ← t.readAt 2 read
      return .assign target operator value .nowhere := by
  obtain ⟨rule, token, children⟩ := t
  cases h
  simp [readAt_read, readAt_text]

theorem read_declarationStatement (h : t.rule = .declarationStatement) :
    read t = .error (.invalidNode .declarationStatement .expression) := by
  obtain ⟨rule, token, children⟩ := t
  cases h
  rfl

end Expr

namespace Declarator

def read (t : Tree) : Except Malformed Declarator := bare <$> ofTree t

def readList : Tree → Except Malformed (List Declarator) := Tree.readRow .fieldAtomList read

theorem read_eq (t : Tree) :
    read t = do
      let t ← t.expect .fieldAtom
      let value ←
        if t.children.length = 1 then pure none else do pure (some (← t.readAt 2 Expr.read))
      return ⟨← t.readAt 0 Ident.read, value, .nowhere⟩ := by
  simp only [read, ofTree, map_bind]
  congr 1
  funext u
  split <;> simp [Ident.readAt_read, Expr.readAt_read_child, bare]

theorem readAt_readList (t : Tree) (index : Nat) :
    t.readAt index readList = List.map bare <$> (t.child index >>= listOfTree) := by
  rw [child_bind]
  exact (map_readAt_readRow bare t index .fieldAtomList ofTree).symm

end Declarator

namespace Declaration

def read (t : Tree) : Except Malformed Declaration := bare <$> ofTree t

theorem read_eq (t : Tree) :
    read t = do
      let t ← t.expect .declarationStatement
      let typeName ← t.readAt 0 Ident.read
      let declarators ← t.readAt 1 Declarator.readList
      return ⟨typeName, declarators, .nowhere⟩ := by
  simp [read, ofTree, Ident.readAt_read, Declarator.readAt_readList, bare]

end Declaration

namespace ForInit

def read (t : Tree) : Except Malformed ForInit := bare <$> ofTree t

theorem read_eq (t : Tree) :
    read t =
      if t.rule = .declarationStatement then .declaration <$> Declaration.read t
      else .expression <$> Expr.read t := by
  simp only [read, ofTree]
  split <;> simp [Declaration.read, Expr.read, bare]

theorem readAt_readOptional (t : Tree) (index : Nat) (rule : Rule) :
    t.readAt index (readClause rule 0 read) =
      Option.map bare <$> t.optionalPart index rule ofTree :=
  (map_optionalPart bare t index rule ofTree).symm

end ForInit

namespace Stmt

def read (t : Tree) : Except Malformed Stmt := bare <$> ofTree t

def readList : Tree → Except Malformed (List Stmt) := Tree.readRow .statementList read

def readElse : Tree → Except Malformed (Option Stmt) := Tree.readClause .elseClause 1 read

theorem ofTrees_eq_mapM (ts : List Tree) : ofTrees ts = ts.mapM ofTree := by
  induction ts with
  | nil => rfl
  | cons t ts ih => simp [ofTrees, ih]

theorem listAt?_eq_map (ts : List Tree) (index : Nat) :
    listAt? ts index = ts[index]?.map (Tree.readRow .statementList ofTree) := by
  induction ts generalizing index with
  | nil => simp [listAt?]
  | cons t ts ih =>
    cases index with
    | zero =>
      obtain ⟨rule, token, children⟩ := t
      cases rule
      case statementList => exact congrArg some (ofTrees_eq_mapM children)
      all_goals rfl
    | succ index => simp [listAt?, ih]

theorem elseAt?_eq_map (ts : List Tree) (index : Nat) :
    elseAt? ts index = ts[index]?.map (Tree.readClause .elseClause 1 ofTree) := by
  induction ts generalizing index with
  | nil => simp [elseAt?]
  | cons t ts ih =>
    cases index with
    | zero =>
      obtain ⟨rule, token, children⟩ := t
      cases rule
      case elseClause =>
        cases children with
        | nil => rfl
        | cons first rest =>
          simp only [elseAt?, at?_eq_map]
          rfl
      all_goals rfl
    | succ index => simp [elseAt?, ih]

theorem readAt_read (t : Tree) (index : Nat) :
    t.readAt index read = bare <$> t.require index (at? t.children index) := by
  rw [at?_eq_map]
  exact (map_readAt _ _ _ _).symm

theorem readAt_readList (t : Tree) (index : Nat) :
    t.readAt index readList = List.map bare <$> t.require index (listAt? t.children index) := by
  rw [listAt?_eq_map]
  exact (map_readAt_readRow bare t index .statementList ofTree).symm

theorem readAt_readElse (t : Tree) (index : Nat) :
    t.readAt index readElse = Option.map bare <$> t.require index (elseAt? t.children index) := by
  rw [elseAt?_eq_map]
  exact (map_readAt_readClause bare t index .elseClause 1 ofTree).symm

variable {t : Tree}

attribute [local simp] read ofTree bare

theorem read_block (h : t.rule = .block) :
    read t = do return .block (← t.readAt 1 readList) .nowhere := by
  obtain ⟨rule, token, children⟩ := t
  cases h
  simp [readAt_readList]

theorem read_continue (h : t.rule = .continueStatement) :
    read t = return .continueLoop .nowhere := by
  obtain ⟨rule, token, children⟩ := t
  cases h
  rfl

theorem read_break (h : t.rule = .breakStatement) : read t = return .breakLoop .nowhere := by
  obtain ⟨rule, token, children⟩ := t
  cases h
  rfl

theorem read_return (h : t.rule = .returnStatement) :
    read t =
      if t.children.length = 3 then do return .ret (some (← t.readAt 1 Expr.read)) .nowhere
      else return .ret none .nowhere := by
  obtain ⟨rule, token, children⟩ := t
  cases h
  obtain _ | ⟨first, _ | ⟨second, _ | ⟨third, _ | ⟨fourth, rest⟩⟩⟩⟩ := children
  case cons.cons.cons.nil => simp [Expr.read, readAt, require]
  all_goals simp

theorem read_declaration (h : t.rule = .declarationStatement) :
    read t = .declaration <$> Declaration.read t := by
  obtain ⟨rule, token, children⟩ := t
  cases h
  simp [Declaration.read]

theorem read_while (h : t.rule = .whileStatement) :
    read t = do
      let condition ← t.readAt 2 Expr.read
      let body ← t.readAt 4 read
      return .whileLoop condition body .nowhere := by
  obtain ⟨rule, token, children⟩ := t
  cases h
  simp [readAt_read, Expr.readAt_read_child]

theorem read_doWhile (h : t.rule = .doWhileStatement) :
    read t = do
      let body ← t.readAt 1 read
      let condition ← t.readAt 4 Expr.read
      return .doLoop body condition .nowhere := by
  obtain ⟨rule, token, children⟩ := t
  cases h
  simp [readAt_read, Expr.readAt_read_child]

theorem read_if (h : t.rule = .ifStatement) :
    read t = do
      let otherwise ← t.readAt 5 readElse
      let condition ← t.readAt 2 Expr.read
      let thenBranch ← t.readAt 4 read
      match otherwise with
      | some elseBranch => return .ifElse condition thenBranch elseBranch .nowhere
      | none => return .ifThen condition thenBranch .nowhere := by
  obtain ⟨rule, token, children⟩ := t
  cases h
  simp only [read, ofTree, readAt_read, readAt_readElse, Expr.readAt_read_child, map_bind,
    bind_map_left]
  congr 1
  funext otherwise
  cases otherwise <;> simp

theorem read_for (h : t.rule = .forStatement) :
    read t = do
      let init ← t.readAt 2 (readClause .forInit 0 ForInit.read)
      let condition ← t.readAt 4 (readClause .forCondition 0 Expr.read)
      let step ← t.readAt 6 (readClause .forStep 0 Expr.read)
      let body ← t.readAt 8 read
      return .forLoop init condition step body .nowhere := by
  obtain ⟨rule, token, children⟩ := t
  cases h
  simp [readAt_read, ForInit.readAt_readOptional, Expr.readAt_readOptional]

theorem read_expression (h : t.rule = .expressionStatement) :
    read t = do return .expression (← t.readAt 0 Expr.read) .nowhere := by
  obtain ⟨rule, token, children⟩ := t
  cases h
  simp [Expr.readAt_read_child]

end Stmt

namespace Block

def read (t : Tree) : Except Malformed Block := bare <$> ofTree t

def readBody (t : Tree) : Except Malformed (Option Block) := Option.map bare <$> ofTree? t

theorem read_eq (t : Tree) :
    read t = do return ⟨← (← t.expect .block).readAt 1 Stmt.readList, .nowhere⟩ := by
  simp [read, ofTree, Stmt.readAt_readList, bare]

theorem readBody_eq (t : Tree) :
    readBody t = if t.rule = .block then some <$> read t else return none := by
  unfold readBody ofTree?
  split <;> simp [read]

theorem readAt_readBody (t : Tree) (index : Nat) :
    t.readAt index readBody = Option.map bare <$> (t.child index >>= ofTree?) :=
  (map_child_bind (Option.map bare) t index ofTree?).symm

end Block

namespace Parameter

def read (t : Tree) : Except Malformed Parameter := bare <$> ofTree t

def readList : Tree → Except Malformed (List Parameter) := Tree.readRow .parameterList read

theorem read_eq (t : Tree) :
    read t = do
      let t ← t.expect .parameter
      let typeName ← t.readAt 0 Ident.read
      return ⟨typeName, ← t.readAt 1 Ident.read⟩ := by
  simp [read, ofTree, Ident.readAt_read, bare]

theorem readAt_readList (t : Tree) (index : Nat) :
    t.readAt index readList = List.map bare <$> (t.child index >>= listOfTree) := by
  rw [child_bind]
  exact (map_readAt_readRow bare t index .parameterList ofTree).symm

end Parameter

namespace MemberKind

def read (t : Tree) : Except Malformed MemberKind := bare <$> ofTree t

variable {t : Tree}

theorem read_field (h : t.rule = .fieldDefinition) :
    read t = do return .field (← t.readAt 4 Declarator.readList) := by
  simp [read, ofTree, h, Declarator.readAt_readList, bare]

theorem read_method (h : t.rule = .methodDefinition) :
    read t = do
      let name ← t.readAt 4 Ident.read
      let parameters ← t.readAt 6 Parameter.readList
      return .method ⟨name, parameters, ← t.readAt 8 Block.readBody⟩ := by
  simp [read, ofTree, h, Ident.readAt_read, Parameter.readAt_readList, Block.readAt_readBody, bare,
    Routine.bare]

theorem read_operator (h : t.rule = .operatorDefinition) :
    read t = do
      let symbol ← t.readAt 5 text
      let parameters ← t.readAt 7 Parameter.readList
      return .operator ⟨.provided symbol, parameters, ← t.readAt 9 Block.readBody⟩ := by
  simp [read, ofTree, h, readAt_text, Parameter.readAt_readList, Block.readAt_readBody, bare,
    Routine.bare, Ident.bare]

end MemberKind

namespace Member

def read (owner : String) (t : Tree) : Except Malformed Member := bare <$> ofTree owner t

def readList (owner : String) : Tree → Except Malformed (List Member) :=
  Tree.readRow .memberList (read owner)

theorem read_eq (owner : String) (t : Tree) :
    read owner t = do
      let visibility ← Visibility.ofKeyword (← t.readAt 0 (readClause .accessor 0 text))
      let modifier ← MemberModifier.ofKeyword (← t.readAt 1 (readClause .memberModifier 0 text))
      let isStatic ← t.readAt 2 (readMarker .staticMarker)
      let declaredType ← t.readAt 3 Ident.read
      let kind ← MemberKind.read t
      return ⟨visibility, modifier, isStatic, declaredType, owner, .nowhere, kind⟩ := by
  simp [read, ofTree, keywordPart, ← optionalPart_eq, ← markerPart_eq, Ident.readAt_read,
    MemberKind.read, bare]

theorem readAt_readList (owner : String) (t : Tree) (index : Nat) :
    t.readAt index (readList owner) =
      List.map bare <$> (do (← t.part index .memberList).children.mapM (ofTree owner)) := by
  rw [part_bind]
  exact (map_readAt_readRow bare t index .memberList (ofTree owner)).symm

end Member

namespace ClassDef

def read (t : Tree) : Except Malformed ClassDef := bare <$> ofTree t

theorem readAt_base (t : Tree) (index : Nat) :
    t.readAt index (readClause .baseClause 1 Ident.read) =
      Option.map Ident.bare <$> (t.part index .baseClause >>= baseOfTree) := by
  have hbase : (fun u => u.expect .baseClause >>= baseOfTree) =
      readClause .baseClause 1 Ident.ofTree := by
    funext u
    unfold readClause
    congr
    funext v
    simp [baseOfTree, ← child_bind]
  rw [part_bind, hbase]
  exact (map_readAt_readClause Ident.bare t index .baseClause 1 Ident.ofTree).symm

theorem read_eq (t : Tree) :
    read t = do
      let t ← t.expect .classDefinition
      let modifier ← ClassModifier.ofKeyword (← t.readAt 0 (readClause .classModifier 0 text))
      let isPrimitive ← t.readAt 1 (readMarker .primitiveMarker)
      let isBackend ← t.readAt 2 (readMarker .backendMarker)
      let label ← ClassLabel.ofKeyword (← t.readAt 3 text)
      let ident ← t.readAt 4 Ident.read
      let base ← t.readAt 5 (readClause .baseClause 1 Ident.read)
      let members ← t.readAt 7 (Member.readList ident.text)
      return ⟨ident, base, modifier, label, isBackend, isPrimitive, members, .nowhere⟩ := by
  simp [read, ofTree, keywordPart, ← optionalPart_eq, ← markerPart_eq, Ident.readAt_read,
    readAt_text, readAt_base, Member.readAt_readList, bare]

end ClassDef

namespace Program

def read (t : Tree) : Except Malformed Program := bare <$> ofTree t

theorem read_eq (t : Tree) : read t = do return ⟨← t.readRow .program ClassDef.read⟩ := by
  have hrow : t.readRow .program ClassDef.read =
      List.map ClassDef.bare <$> t.readRow .program ClassDef.ofTree :=
    (map_readRow _ _ _ t).symm
  rw [hrow]
  simp [read, ofTree, readRow, bare]

end Program

end ClassLang
