import ClassLang.Proofs.BareReading
import ClassLang.Proofs.ProgramLayout

namespace ClassLang

namespace Layout

variable {α β : Type} (column : UInt32)

/-- What a row of trees stands for, if each is laid out so that it stands for its item. -/
theorem read_each {lay : α → Layout Tree} {read : Tree → Except Malformed β} {f : α → β}
    {items : List α} (h : ∀ a ∈ items, ∀ column, read (lay a column).1 = .ok (f a)) :
    (items.mapM lay column).1.mapM read = .ok (items.map f) := by
  induction items generalizing column with
  | nil => rfl
  | cons a items ih =>
    have ha := h a (by simp) column
    have hrest := ih (lay a column).2 fun b hb => h b (by simp [hb])
    have hcons : ((a :: items).mapM lay column).1 =
        (lay a column).1 :: (items.mapM lay (lay a column).2).1 := by
      rw [List.mapM_cons]
      rfl
    rw [hcons, List.mapM_cons, ha, hrest]
    rfl

theorem mapM_some (read : Tree → Except Malformed β) (t : Tree) :
    (some t).mapM read = some <$> read t := rfl

theorem read_optional {lay : α → Layout Tree} {read : Tree → Except Malformed β} {f : α → β}
    {item : Option α} (h : ∀ a ∈ item, ∀ column, read (lay a column).1 = .ok (f a)) :
    (item.mapM lay column).1.mapM read = .ok (item.map f) := by
  cases item with
  | none => rfl
  | some a =>
    have ha : read (lay a column).1 = .ok (f a) := h a rfl column
    exact (mapM_some read _).trans (by rw [ha]; rfl)

open ClassLang.Expr (read)

theorem read_literal (kind : LiteralKind) (text : String)
    (h : kind = .boolean → text = "true" ∨ text = "false") :
    read (literal kind text column).1 = return .literal kind text .nowhere := by
  cases kind with
  | integer => exact Expr.read_literal .integer rfl
  | real => exact Expr.read_literal .real rfl
  | string => exact Expr.read_literal .string rfl
  | char => exact Expr.read_literal .char rfl
  | boolean =>
    obtain rfl | rfl := h rfl
    · exact Expr.read_literal .boolean rfl
    · exact Expr.read_literal .boolean rfl

theorem read_identifier (name : String) :
    read (identifier name column).1 = return .ident (.provided name) := Expr.read_ident rfl

theorem read_memberAccess (target : Tree) (name : String) :
    read (memberAccess target name column).1 = do
      return .member (← read target) (.provided name) .nowhere := Expr.read_member rfl

theorem read_call (callee : Tree) (arguments : List Tree) :
    read (call callee arguments column).1 = do
      let callee ← read callee
      return .call callee (← arguments.mapM read) .nowhere := Expr.read_call rfl

theorem read_newObject (className : String) (arguments : List Tree) :
    read (newObject className arguments column).1 = do
      return .new (.provided className) (← arguments.mapM read) .nowhere := Expr.read_new rfl

theorem read_unary (symbol : String) (operand : Tree) :
    read (unary symbol operand column).1 = do
      return .unary symbol (← read operand) .nowhere := Expr.read_unary rfl

theorem read_binary (left : Tree) (symbol : String) (right : Tree) :
    read (binary left symbol right column).1 = do
      let left ← read left
      return .binary left symbol (← read right) .nowhere := Expr.read_binary rfl

theorem read_assignment (target : Tree) (symbol : String) (value : Tree) :
    read (assignment target symbol value column).1 = do
      let target ← read target
      return .assign target symbol (← read value) .nowhere := Expr.read_assign rfl

theorem read_enclosed (pairs : Nat) (t : Tree) : read (enclosed pairs t column).1 = read t := by
  induction pairs generalizing t column with
  | zero => rfl
  | succ pairs ih => exact (ih _ _).trans (Expr.read_parenthesized rfl)

theorem read_around (style : Style) (t : Tree) : read (style.around t column).1 = read t :=
  read_enclosed _ _ t

theorem read_fieldAtom (name : String) (value : Option Tree) :
    Declarator.read (fieldAtom name value column).1 = do
      return ⟨.provided name, ← value.mapM read, .nowhere⟩ := by
  rw [Declarator.read_eq]
  cases value with
  | none => rfl
  | some value =>
    rw [mapM_some, bind_map_left]
    rfl

theorem read_declaration (typeName : String) (atoms : List Tree) :
    Declaration.read (declaration typeName atoms column).1 = do
      return ⟨.provided typeName, ← atoms.mapM Declarator.read, .nowhere⟩ := Declaration.read_eq _

theorem read_block (statements : List Tree) :
    Stmt.read (block statements column).1 = do
      return .block (← statements.mapM Stmt.read) .nowhere := Stmt.read_block rfl

theorem read_returnStatement (value : Option Tree) :
    Stmt.read (returnStatement value column).1 = do
      return .ret (← value.mapM read) .nowhere := by
  cases value with
  | none => exact Stmt.read_return rfl
  | some value =>
    rw [Stmt.read_return rfl, mapM_some, bind_map_left]
    rfl

theorem read_whileStatement (condition body : Tree) :
    Stmt.read (whileStatement condition body column).1 = do
      let condition ← read condition
      return .whileLoop condition (← Stmt.read body) .nowhere := Stmt.read_while rfl

theorem read_doWhileStatement (body condition : Tree) :
    Stmt.read (doWhileStatement body condition column).1 = do
      let body ← Stmt.read body
      return .doLoop body (← read condition) .nowhere := Stmt.read_doWhile rfl

theorem read_ifStatement_some (condition thenBranch elseBranch : Tree) :
    Stmt.read (ifStatement condition thenBranch (some elseBranch) column).1 = do
      let elseBranch ← Stmt.read elseBranch
      let condition ← read condition
      return .ifElse condition (← Stmt.read thenBranch) elseBranch .nowhere := by
  have helse :
      (ifStatement condition thenBranch (some elseBranch) column).1.readAt 5 Stmt.readElse =
        some <$> Stmt.read elseBranch := rfl
  rw [Stmt.read_if rfl, helse, bind_map_left]
  rfl

theorem read_ifStatement_none (condition thenBranch : Tree) :
    Stmt.read (ifStatement condition thenBranch none column).1 = do
      let condition ← read condition
      return .ifThen condition (← Stmt.read thenBranch) .nowhere := Stmt.read_if rfl

theorem read_forStatement (init condition step : Option Tree) (body : Tree) :
    Stmt.read (forStatement init condition step body column).1 = do
      let init ← init.mapM ForInit.read
      let condition ← condition.mapM read
      let step ← step.mapM read
      return .forLoop init condition step (← Stmt.read body) .nowhere := by
  rw [Stmt.read_for rfl]
  cases init <;> cases condition <;> cases step <;> rfl

theorem read_expressionStatement (expression : Tree) :
    Stmt.read (expressionStatement expression column).1 = do
      return .expression (← read expression) .nowhere := Stmt.read_expression rfl

theorem rule_optionalKeyword (rule : Rule) (word : Option String) :
    (optionalKeyword rule word column).1.rule = rule := by
  cases word <;> rfl

theorem read_optionalKeyword (rule : Rule) (word : Option String) :
    (optionalKeyword rule word column).1.readClause rule 0 Tree.text = .ok word := by
  rw [Tree.readClause, Tree.expect_of_rule (rule_optionalKeyword column rule word)]
  cases word <;> rfl

theorem read_marker (rule : Rule) (word : String) (isPresent : Bool) :
    (marker rule word isPresent column).1.readMarker rule = .ok isPresent := by
  rw [Tree.readMarker, marker, Tree.expect_of_rule (rule_optionalKeyword column rule _)]
  cases isPresent <;> rfl

theorem read_baseClause (base : Option String) :
    (baseClause base column).1.readClause .baseClause 1 Ident.read =
      .ok (base.map Ident.provided) := by
  cases base <;> rfl

theorem read_parameterList (parameters : List (String × String)) :
    Parameter.readList (parameterList parameters column).1 =
      .ok (parameters.map fun words => .provided words.1 words.2) := by
  have hrow : (parameterRow parameters column).1.mapM Parameter.read =
      .ok (parameters.map fun words => .provided words.1 words.2) := by
    induction parameters generalizing column with
    | nil => rfl
    | cons words rest ih =>
      have hrest := ih (parameter words.1 words.2 column).2
      have hfirst : Parameter.read (parameter words.1 words.2 column).1 =
          .ok (.provided words.1 words.2) := Parameter.read_eq _
      have hcons : (parameterRow (words :: rest) column).1 =
          (parameter words.1 words.2 column).1 ::
            (parameterRow rest (parameter words.1 words.2 column).2).1 := rfl
      rw [hcons, List.mapM_cons, hfirst, hrest]
      rfl
  exact hrow

def withHeader (owner : String) (header : MemberHeader) (kind : Except Malformed MemberKind) :
    Except Malformed Member := do
  let visibility ← Visibility.ofKeyword header.accessor
  let modifier ← MemberModifier.ofKeyword header.modifier
  return ⟨visibility, modifier, header.isStatic, .provided header.typeName, owner, .nowhere, ← kind⟩

theorem read_memberHeader (owner : String) (header : MemberHeader) {t : Tree} {rest : List Tree}
    (h : t.children = (memberHeader header column).1 ++ rest) :
    Member.read owner t = withHeader owner header (MemberKind.read t) := by
  have haccessor : t.readAt 0 (Tree.readClause .accessor 0 Tree.text) = .ok header.accessor := by
    rw [Tree.readAt, h]
    exact read_optionalKeyword _ .accessor header.accessor
  have hmodifier : t.readAt 1 (Tree.readClause .memberModifier 0 Tree.text) =
      .ok header.modifier := by
    rw [Tree.readAt, h]
    exact read_optionalKeyword _ .memberModifier header.modifier
  have hstatic : t.readAt 2 (Tree.readMarker .staticMarker) = .ok header.isStatic := by
    rw [Tree.readAt, h]
    exact read_marker _ .staticMarker "static" header.isStatic
  have htype : t.readAt 3 Ident.read = .ok (.provided header.typeName) := by
    rw [Tree.readAt, h]
    rfl
  rw [Member.read_eq, haccessor, hmodifier, hstatic, htype]
  rfl

theorem read_field (owner : String) (header : MemberHeader) (atoms : List Tree) :
    Member.read owner (field header atoms column).1 =
      withHeader owner header (do return .field (← atoms.mapM Declarator.read)) := by
  rw [read_memberHeader column owner header rfl, MemberKind.read_field rfl]
  rfl

theorem read_body (block : Option Tree) (h : ∀ t ∈ block, t.rule = .block) :
    Block.readBody (body block column).1 = block.mapM Block.read := by
  cases block with
  | none => rfl
  | some t => exact (Block.readBody_eq t).trans (if_pos (h t rfl))

variable (owner : String) (header : MemberHeader) (name : String)
  (parameters : List (String × String)) {body : Option Tree}

theorem read_method (h : ∀ t ∈ body, t.rule = .block) :
    Member.read owner (method header name parameters body column).1 =
      withHeader owner header (do
        return .method ⟨.provided name, parameters.map fun words => .provided words.1 words.2,
          ← body.mapM Block.read⟩) := by
  have hparameters : (method header name parameters body column).1.readAt 6 Parameter.readList =
      .ok (parameters.map fun words => .provided words.1 words.2) := read_parameterList _ parameters
  have hbody : (method header name parameters body column).1.readAt 8 Block.readBody =
      body.mapM Block.read := read_body _ body h
  rw [read_memberHeader column owner header rfl, MemberKind.read_method rfl, hparameters, hbody]
  rfl

theorem read_operator (h : ∀ t ∈ body, t.rule = .block) :
    Member.read owner (operator header name parameters body column).1 =
      withHeader owner header (do
        return .operator ⟨.provided name, parameters.map fun words => .provided words.1 words.2,
          ← body.mapM Block.read⟩) := by
  have hparameters : (operator header name parameters body column).1.readAt 7 Parameter.readList =
      .ok (parameters.map fun words => .provided words.1 words.2) := read_parameterList _ parameters
  have hbody : (operator header name parameters body column).1.readAt 9 Block.readBody =
      body.mapM Block.read := read_body _ body h
  rw [read_memberHeader column owner header rfl, MemberKind.read_operator rfl, hparameters, hbody]
  rfl

theorem read_classDefinition (header : ClassHeader) (members : List Tree) :
    ClassDef.read (classDefinition header members column).1 = do
      let modifier ← ClassModifier.ofKeyword header.modifier
      let label ← ClassLabel.ofKeyword header.label
      return ⟨.provided header.name, header.base.map .provided, modifier, label, header.isBackend,
        header.isPrimitive, ← members.mapM (Member.read header.name), .nowhere⟩ := by
  have hmodifier : (classDefinition header members column).1.readAt 0
      (Tree.readClause .classModifier 0 Tree.text) = .ok header.modifier :=
    read_optionalKeyword _ .classModifier header.modifier
  have hprimitive : (classDefinition header members column).1.readAt 1
      (Tree.readMarker .primitiveMarker) = .ok header.isPrimitive :=
    read_marker _ .primitiveMarker "primitive" header.isPrimitive
  have hbackend : (classDefinition header members column).1.readAt 2
      (Tree.readMarker .backendMarker) = .ok header.isBackend :=
    read_marker _ .backendMarker "backend" header.isBackend
  have hbase : (classDefinition header members column).1.readAt 5
      (Tree.readClause .baseClause 1 Ident.read) = .ok (header.base.map .provided) :=
    read_baseClause _ header.base
  have hrule : (classDefinition header members column).1.expect .classDefinition =
      pure (classDefinition header members column).1 := rfl
  rw [ClassDef.read_eq, hrule, pure_bind, hmodifier, hprimitive, hbackend, hbase]
  rfl

end Layout

end ClassLang
