import ClassLang.Proofs.LayoutReading

namespace ClassLang

def Truths (texts : List String) : Prop := ∀ text ∈ texts, text = "true" ∨ text = "false"

theorem truths_append {first second : List String} :
    Truths (first ++ second) ↔ Truths first ∧ Truths second := List.forall_mem_append

mutual

def Expr.booleans : Expr → List String
  | .literal kind text _ => if kind = .boolean then [text] else []
  | .ident _ => []
  | .member target _ _ => target.booleans
  | .call callee arguments _ => callee.booleans ++ Expr.allBooleans arguments
  | .new _ arguments _ => Expr.allBooleans arguments
  | .unary _ operand _ => operand.booleans
  | .binary left _ right _ => left.booleans ++ right.booleans
  | .assign target _ value _ => target.booleans ++ value.booleans

def Expr.allBooleans : List Expr → List String
  | [] => []
  | e :: rest => e.booleans ++ Expr.allBooleans rest

end

open Layout

mutual

theorem Expr.read_layout (style : Style) (e : Expr) (h : Truths e.booleans) (column : UInt32) :
    Expr.read (e.layout style column).1 = .ok e.bare := by
  cases e with
  | literal kind text span =>
    refine (read_around _ style _).trans (Layout.read_literal _ kind text fun hk => ?_)
    exact h text (by simp [booleans, hk])
  | ident name => exact (read_around _ style _).trans (Layout.read_identifier _ name.text)
  | member target name span =>
    refine (read_around _ style _).trans ((Layout.read_memberAccess _ _ name.text).trans ?_)
    rw [target.read_layout style h column]
    rfl
  | call callee arguments span =>
    obtain ⟨hc, ha⟩ := truths_append.mp h
    refine (read_around _ style _).trans ((Layout.read_call _ _ _).trans ?_)
    rw [callee.read_layout style hc column, Expr.read_layoutAll style arguments ha]
    rfl
  | new className arguments span =>
    refine (read_around _ style _).trans ((Layout.read_newObject _ _ _).trans ?_)
    rw [Expr.read_layoutAll style arguments h]
    rfl
  | unary operator operand span =>
    refine (read_around _ style _).trans ((Layout.read_unary _ _ _).trans ?_)
    rw [operand.read_layout style h column]
    rfl
  | binary left operator right span =>
    obtain ⟨hl, hr⟩ := truths_append.mp h
    refine (read_around _ style _).trans ((Layout.read_binary _ _ _ _).trans ?_)
    rw [left.read_layout style hl column, right.read_layout style hr]
    rfl
  | assign target operator value span =>
    obtain ⟨ht, hv⟩ := truths_append.mp h
    refine (read_around _ style _).trans ((Layout.read_assignment _ _ _ _).trans ?_)
    rw [target.read_layout style ht column, value.read_layout style hv]
    rfl

theorem Expr.read_layoutAll (style : Style) (es : List Expr) (h : Truths (Expr.allBooleans es))
    (column : UInt32) :
    (Expr.layoutAll style es column).1.mapM Expr.read = .ok (Expr.bareAll es) := by
  cases es with
  | nil => rfl
  | cons e es =>
    obtain ⟨he, hes⟩ := truths_append.mp h
    have hfirst := e.read_layout style he column
    have hrest := Expr.read_layoutAll style es hes (e.layout style column).2
    have hcons : (Expr.layoutAll style (e :: es) column).1 =
        (e.layout style column).1 :: (Expr.layoutAll style es (e.layout style column).2).1 := rfl
    rw [hcons, List.mapM_cons, hfirst, hrest]
    rfl

end

def Declarator.booleans (d : Declarator) : List String := d.value.elim [] Expr.booleans

def Declaration.booleans (d : Declaration) : List String :=
  d.declarators.flatMap Declarator.booleans

def ForInit.booleans : ForInit → List String
  | .declaration d => d.booleans
  | .expression e => e.booleans

mutual

def Stmt.booleans : Stmt → List String
  | .block statements _ => Stmt.allBooleans statements
  | .continueLoop _ | .breakLoop _ => []
  | .ret value _ => value.elim [] Expr.booleans
  | .declaration d => d.booleans
  | .whileLoop condition body _ | .doLoop body condition _ | .ifThen condition body _ =>
    condition.booleans ++ body.booleans
  | .ifElse condition thenBranch elseBranch _ =>
    condition.booleans ++ (thenBranch.booleans ++ elseBranch.booleans)
  | .forLoop init condition step body _ =>
    init.elim [] ForInit.booleans ++ (condition.elim [] Expr.booleans ++
      (step.elim [] Expr.booleans ++ body.booleans))
  | .expression e _ => e.booleans

def Stmt.allBooleans : List Stmt → List String
  | [] => []
  | s :: rest => s.booleans ++ Stmt.allBooleans rest

end

def Member.booleans (m : Member) : List String :=
  match m.kind with
  | .field declarators => declarators.flatMap Declarator.booleans
  | .method r | .operator r => r.body.elim [] fun b => Stmt.allBooleans b.statements

def Program.booleans (p : Program) : List String :=
  p.classes.flatMap fun c => c.members.flatMap Member.booleans

theorem truths_flatMap {α : Type} {items : List α} {f : α → List String} :
    Truths (items.flatMap f) ↔ ∀ a ∈ items, Truths (f a) := by
  simp only [Truths, List.mem_flatMap]
  constructor
  · intro h a ha text ht
    exact h text ⟨a, ha, ht⟩
  · rintro h text ⟨a, ha, ht⟩
    exact h a ha text ht

theorem truths_elim {α : Type} {item : Option α} {f : α → List String}
    (h : Truths (item.elim [] f)) : ∀ a ∈ item, Truths (f a) := by
  rintro a rfl
  exact h

theorem read_value (style : Style) {value : Option Expr}
    (h : Truths (value.elim [] Expr.booleans)) (column : UInt32) :
    (value.mapM (Expr.layout style) column).1.mapM Expr.read = .ok (value.map Expr.bare) :=
  read_optional column fun e he => e.read_layout style (truths_elim h e he)

theorem Declarator.read_layout (style : Style) (d : Declarator) (h : Truths d.booleans)
    (column : UInt32) : Declarator.read (d.layout style column).1 = .ok d.bare := by
  refine (read_fieldAtom _ d.name.text (d.value.mapM (Expr.layout style) column).1).trans ?_
  rw [read_value style h column]
  rfl

theorem read_declarators (style : Style) {declarators : List Declarator}
    (h : Truths (declarators.flatMap Declarator.booleans)) (column : UInt32) :
    (declarators.mapM (Declarator.layout style) column).1.mapM Declarator.read =
      .ok (declarators.map Declarator.bare) :=
  read_each column fun d hd => d.read_layout style (truths_flatMap.mp h d hd)

theorem Declaration.read_layout (style : Style) (d : Declaration) (h : Truths d.booleans)
    (column : UInt32) : Declaration.read (d.layout style column).1 = .ok d.bare := by
  refine (read_declaration _ d.typeName.text
    (d.declarators.mapM (Declarator.layout style) column).1).trans ?_
  rw [read_declarators style h column]
  rfl

theorem ForInit.read_layout (style : Style) (init : ForInit) (h : Truths init.booleans)
    (column : UInt32) : ForInit.read (init.layout style column).1 = .ok init.bare := by
  rw [ForInit.read_eq]
  cases init with
  | declaration d =>
    have hd := d.read_layout style h column
    change ForInit.declaration <$> Declaration.read (d.layout style column).1 = _
    rw [hd]
    rfl
  | expression e =>
    have he := e.read_layout style h column
    have hrule : (e.layout style column).1.rule ≠ .declarationStatement := by
      intro hr
      rw [Expr.read_declarationStatement hr] at he
      cases he
    refine (if_neg hrule).trans ?_
    change ForInit.expression <$> Expr.read (e.layout style column).1 = _
    rw [he]
    rfl

mutual

theorem Stmt.read_layout (style : Style) (s : Stmt) (h : Truths s.booleans) (column : UInt32) :
    Stmt.read (s.layout style column).1 = .ok s.bare := by
  cases s with
  | block statements span =>
    refine (Layout.read_block _ (Stmt.layoutAll style statements column).1).trans ?_
    rw [Stmt.read_layoutAll style statements h]
    rfl
  | continueLoop span => exact Stmt.read_continue rfl
  | breakLoop span => exact Stmt.read_break rfl
  | ret value span =>
    refine (read_returnStatement _ (value.mapM (Expr.layout style) column).1).trans ?_
    rw [read_value style h column]
    rfl
  | declaration d =>
    refine (Stmt.read_declaration rfl).trans ?_
    rw [Stmt.layout, d.read_layout style h]
    rfl
  | whileLoop condition body span =>
    obtain ⟨hc, hb⟩ := truths_append.mp h
    refine (read_whileStatement _ _ _).trans ?_
    rw [condition.read_layout style hc column, body.read_layout style hb]
    rfl
  | doLoop body condition span =>
    obtain ⟨hc, hb⟩ := truths_append.mp h
    refine (read_doWhileStatement _ _ _).trans ?_
    rw [body.read_layout style hb column, condition.read_layout style hc]
    rfl
  | ifThen condition thenBranch span =>
    obtain ⟨hc, hb⟩ := truths_append.mp h
    refine (read_ifStatement_none _ _ _).trans ?_
    rw [condition.read_layout style hc column, thenBranch.read_layout style hb]
    rfl
  | ifElse condition thenBranch elseBranch span =>
    obtain ⟨hc, hrest⟩ := truths_append.mp h
    obtain ⟨ht, he⟩ := truths_append.mp hrest
    refine (read_ifStatement_some _ _ _ _).trans ?_
    rw [elseBranch.read_layout style he, condition.read_layout style hc column,
      thenBranch.read_layout style ht]
    rfl
  | forLoop init condition step body span =>
    obtain ⟨hi, hrest⟩ := truths_append.mp h
    obtain ⟨hc, hrest⟩ := truths_append.mp hrest
    obtain ⟨hs, hb⟩ := truths_append.mp hrest
    have hinit : (init.mapM (ForInit.layout style) column).1.mapM ForInit.read =
        .ok (init.map ForInit.bare) :=
      read_optional column fun i him => i.read_layout style (truths_elim hi i him)
    let afterInit := (init.mapM (ForInit.layout style) column).2
    let afterCondition := (condition.mapM (Expr.layout style) afterInit).2
    let afterStep := (step.mapM (Expr.layout style) afterCondition).2
    refine (read_forStatement _ (init.mapM (ForInit.layout style) column).1
      (condition.mapM (Expr.layout style) afterInit).1
      (step.mapM (Expr.layout style) afterCondition).1 (body.layout style afterStep).1).trans ?_
    rw [hinit, read_value style hc afterInit, read_value style hs afterCondition,
      body.read_layout style hb afterStep]
    rfl
  | expression e span =>
    refine (read_expressionStatement _ _).trans ?_
    rw [e.read_layout style h column]
    rfl

theorem Stmt.read_layoutAll (style : Style) (ss : List Stmt) (h : Truths (Stmt.allBooleans ss))
    (column : UInt32) :
    (Stmt.layoutAll style ss column).1.mapM Stmt.read = .ok (Stmt.bareAll ss) := by
  cases ss with
  | nil => rfl
  | cons s ss =>
    obtain ⟨hs, hss⟩ := truths_append.mp h
    have hfirst := s.read_layout style hs column
    have hrest := Stmt.read_layoutAll style ss hss (s.layout style column).2
    have hcons : (Stmt.layoutAll style (s :: ss) column).1 =
        (s.layout style column).1 :: (Stmt.layoutAll style ss (s.layout style column).2).1 := rfl
    rw [hcons, List.mapM_cons, hfirst, hrest]
    rfl

end

theorem Block.read_layout (style : Style) (b : Block) (h : Truths (Stmt.allBooleans b.statements))
    (column : UInt32) : Block.read (b.layout style column).1 = .ok b.bare := by
  have hblock : Block.read (b.layout style column).1 = do
      return ⟨← (Stmt.layoutAll style b.statements column).1.mapM Stmt.read, .nowhere⟩ :=
    Block.read_eq _
  rw [hblock, Stmt.read_layoutAll style b.statements h, Stmt.bareAll_eq_map]
  rfl

theorem Visibility.ofKeyword_keyword? (spellsPrivate : Bool) (v : Visibility) :
    Visibility.ofKeyword (v.keyword? spellsPrivate) = .ok v := by
  cases v <;> cases spellsPrivate <;> rfl

theorem MemberModifier.ofKeyword_keyword? (modifier : MemberModifier) :
    MemberModifier.ofKeyword modifier.keyword? = .ok modifier := by
  cases modifier <;> rfl

theorem ClassModifier.ofKeyword_keyword? (modifier : ClassModifier) :
    ClassModifier.ofKeyword modifier.keyword? = .ok modifier := by
  cases modifier <;> rfl

theorem ClassLabel.ofKeyword_keyword (label : ClassLabel) :
    ClassLabel.ofKeyword label.keyword = .ok label := by
  cases label <;> rfl

theorem withHeader_header (m : Member) (spellsPrivate : Bool) (kind : MemberKind) :
    withHeader m.owner (m.header spellsPrivate) (.ok kind) =
      .ok { m.bare with kind := kind } := by
  have hv := Visibility.ofKeyword_keyword? spellsPrivate m.visibility
  have hm := MemberModifier.ofKeyword_keyword? m.modifier
  simp only [withHeader, Member.header, hv, hm]
  rfl

theorem rule_body (style : Style) (body : Option Block) (column : UInt32) :
    ∀ t ∈ (body.mapM (Block.layout style) column).1, t.rule = .block := by
  intro t ht
  cases body with
  | none => cases ht
  | some b =>
    obtain rfl : (b.layout style column).1 = t := Option.some.inj ht
    rfl

theorem read_body_layout (style : Style) {body : Option Block}
    (h : Truths (body.elim [] fun b => Stmt.allBooleans b.statements)) (column : UInt32) :
    (body.mapM (Block.layout style) column).1.mapM Block.read = .ok (body.map Block.bare) :=
  read_optional column fun b hb => b.read_layout style (truths_elim h b hb)

theorem Member.read_layout (style : Style) (m : Member) (h : Truths m.booleans) (column : UInt32) :
    Member.read m.owner (m.layout style column).1 = .ok m.bare := by
  obtain ⟨visibility, modifier, isStatic, declaredType, owner, span, kind⟩ := m
  cases kind with
  | field declarators =>
    refine (Layout.read_field _ owner _
      (declarators.mapM (Declarator.layout style) column).1).trans ?_
    rw [read_declarators style h]
    exact withHeader_header _ _ _
  | method r =>
    refine (Layout.read_method _ owner _ r.name.text _ (rule_body style r.body column)).trans ?_
    rw [read_body_layout style h column, List.map_map]
    exact withHeader_header _ _ _
  | operator r =>
    refine (Layout.read_operator _ owner _ r.name.text _ (rule_body style r.body column)).trans ?_
    rw [read_body_layout style h column, List.map_map]
    exact withHeader_header _ _ _

theorem ClassDef.read_layout (style : Style) (c : ClassDef) (ho : ∀ m ∈ c.members, m.owner = c.name)
    (hb : ∀ m ∈ c.members, Truths m.booleans) (column : UInt32) :
    ClassDef.read (c.layout style column).1 = .ok c.bare := by
  have hmembers : (c.members.mapM (Member.layout style) column).1.mapM (Member.read c.name) =
      .ok (c.members.map Member.bare) := by
    apply read_each
    intro m hm column
    rw [← ho m hm]
    exact m.read_layout style (hb m hm) column
  refine (read_classDefinition _ c.header (c.members.mapM (Member.layout style) column).1).trans ?_
  have hmodifier := c.modifier.ofKeyword_keyword?
  have hlabel := c.label.ofKeyword_keyword
  simp only [ClassDef.header, ClassDef.baseName?, Option.map_map, hmodifier, hlabel, hmembers]
  rfl

/-- The tree of a program, however it is laid out, stands for that program up to spans. -/
theorem Program.ofTree_layout (style : Style) (p : Program)
    (howners : ∀ c ∈ p.classes, ∀ m ∈ c.members, m.owner = c.name)
    (hbooleans : ∀ text ∈ p.booleans, text = "true" ∨ text = "false") (column : UInt32) :
    Program.bare <$> Program.ofTree (p.layout style column).1 = .ok p.bare := by
  have hb := truths_flatMap.mp hbooleans
  have hclasses : (p.classes.mapM (ClassDef.layout style) column).1.mapM ClassDef.read =
      .ok (p.classes.map ClassDef.bare) :=
    read_each column fun c hc => c.read_layout style (howners c hc) (truths_flatMap.mp (hb c hc))
  have hprogram : Program.read (p.layout style column).1 = do
      return ⟨← (p.classes.mapM (ClassDef.layout style) column).1.mapM ClassDef.read⟩ :=
    Program.read_eq _
  exact hprogram.trans (by rw [hclasses]; rfl)

/-- Doubled parentheses around every expression, and a member that says it is private. -/
theorem Program.ofTree_layout_doubled :
    let name (text : String) : Ident := ⟨text, .nowhere⟩
    let flag : Declarator := ⟨name "flag", some (.literal .boolean "true" .nowhere), .nowhere⟩
    let negation : Expr := .unary "!" (.ident (name "flag")) .nowhere
    let toggle : Routine := ⟨name "toggle", [], some ⟨[.ret (some negation) .nowhere], .nowhere⟩⟩
    let lamp : ClassDef :=
      ⟨name "Lamp", none, .normal, .plain, false, false, [
        ⟨.inClass, .normal, false, name "bool", "Lamp", .nowhere, .field [flag]⟩,
        ⟨.everywhere, .virtual, false, name "bool", "Lamp", .nowhere, .method toggle⟩], .nowhere⟩
    let p : Program := ⟨[lamp]⟩
    let style : Style := ⟨fun _ => 2, fun _ => true⟩
    (∀ c ∈ p.classes, ∀ m ∈ c.members, m.owner = c.name) ∧ p.booleans = ["true"] ∧
      Program.bare <$> Program.ofTree (p.layout style 7).1 = .ok p.bare := by
  intro name flag negation toggle lamp p style
  have howners : ∀ c ∈ p.classes, ∀ m ∈ c.members, m.owner = c.name := by
    simp [p, lamp, ClassDef.name, name]
  have hbooleans : p.booleans = ["true"] := rfl
  exact ⟨howners, hbooleans, p.ofTree_layout style howners (by simp [hbooleans]) 7⟩

end ClassLang
