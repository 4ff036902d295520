import ClassLang.Proofs.BareReading

namespace ClassLang

namespace Tree

/-- Whether the child at a place of a node stands where an expression is expected. -/
def holdsExpression (t : Tree) (place : Nat) : Bool :=
  match t.rule with
  | .argumentList => true
  | .memberAccess | .methodCall | .expressionStatement | .forCondition | .forStep => place == 0
  | .binaryExpression | .assignmentExpression => place == 0 || place == 2
  | .unaryExpression | .parenthesizedExpression => place == 1
  | .fieldAtom | .whileStatement | .ifStatement => place == 2
  | .doWhileStatement => place == 4
  | .returnStatement => place == 1 && t.children.length == 3
  | .forInit => place == 0 && t.optional.all (fun content => content.rule != .declarationStatement)
  | _ => false

def enclosed (t : Tree) (pairs : List (Location × Location)) : Tree :=
  pairs.foldl (fun inner pair => node .parenthesizedExpression
    [leaf .punctuation "(" pair.1, inner, leaf .punctuation ")" pair.2]) t

/-- A layout of a tree: where the token of the node at a path goes, and the parentheses that come
around the node at a path if it stands where an expression is expected. -/
structure Relayout where
  location : List Nat → Location
  pairs : List Nat → List (Location × Location)

namespace Relayout

def below (layout : Relayout) (place : Nat) : Relayout :=
  ⟨fun path => layout.location (place :: path), fun path => layout.pairs (place :: path)⟩

def plain (layout : Relayout) : Relayout :=
  { layout with pairs := fun path => if path.length = 1 then [] else layout.pairs path }

theorem pairs_plain (layout : Relayout) (place : Nat) : layout.plain.pairs [place] = [] := rfl

/-- The layout of a child of a node of the given rule. Whatever stands among the members of a class
is read as a member, and a member has no expressions as its children. -/
def child (layout : Relayout) (rule : Rule) (place : Nat) : Relayout :=
  if rule = .memberList then (layout.below place).plain else layout.below place

end Relayout

mutual

def relaid (layout : Relayout) : Tree → Tree
  | ⟨rule, token, children⟩ =>
    ⟨rule, token.map fun word => ⟨word.text, layout.location []⟩,
      relaidRow layout rule (holdsExpression ⟨rule, token, children⟩) 0 children⟩

def relaidRow (layout : Relayout) (rule : Rule) (holds : Nat → Bool) (place : Nat) :
    List Tree → List Tree
  | [] => []
  | t :: rest =>
    (t.relaid (layout.child rule place)).enclosed
        (if holds place then layout.pairs [place] else []) ::
      relaidRow layout rule holds (place + 1) rest

end

variable {α : Type} (layout : Relayout)

def childRelaid (t : Tree) (place : Nat) (u : Tree) : Tree :=
  (u.relaid (layout.child t.rule place)).enclosed
    (if t.holdsExpression place then layout.pairs [place] else [])

@[simp]
theorem rule_relaid (t : Tree) : (t.relaid layout).rule = t.rule := by
  cases t
  rfl

theorem children_relaid (t : Tree) :
    (t.relaid layout).children = t.children.mapIdx (t.childRelaid layout) := by
  obtain ⟨rule, token, children⟩ := t
  have hrow (holds : Nat → Bool) (place : Nat) (ts : List Tree) :
      relaidRow layout rule holds place ts = ts.mapIdx fun offset u =>
        (u.relaid (layout.child rule (place + offset))).enclosed
          (if holds (place + offset) then layout.pairs [place + offset] else []) := by
    induction ts generalizing place with
    | nil => rfl
    | cons t ts ih =>
      rw [relaidRow, ih, List.mapIdx_cons]
      simp [Nat.add_assoc, Nat.add_comm 1]
  have h := hrow (holdsExpression ⟨rule, token, children⟩) 0 children
  simp only [Nat.zero_add] at h
  exact h

-- `count;` becomes `((count));`, with its words elsewhere.
example (old new : Location) (inner outer : Location × Location) :
    (node .expressionStatement [leaf .identifier "count" old, leaf .punctuation ";" old]).relaid
        ⟨fun _ => new, fun path => if path = [0] then [inner, outer] else []⟩ =
      node .expressionStatement
        [node .parenthesizedExpression
          [leaf .punctuation "(" outer.1,
            node .parenthesizedExpression
              [leaf .punctuation "(" inner.1, leaf .identifier "count" new,
                leaf .punctuation ")" inner.2],
            leaf .punctuation ")" outer.2],
          leaf .punctuation ";" new] := rfl

@[simp]
theorem text_relaid (t : Tree) : (t.relaid layout).text = t.text := by
  obtain ⟨rule, token, children⟩ := t
  cases token <;> rfl

theorem length_children_relaid (t : Tree) :
    (t.relaid layout).children.length = t.children.length := by
  rw [children_relaid, List.length_mapIdx]

variable {layout}

theorem readAt_relaid {t : Tree} {place : Nat} {read : Tree → Except Malformed α}
    (h : ∀ u ∈ t.children[place]?, read (t.childRelaid layout place u) = read u) :
    (t.relaid layout).readAt place read = t.readAt place read := by
  rw [readAt, readAt, children_relaid, List.getElem?_mapIdx]
  cases hc : t.children[place]? with
  | none => simp [require]
  | some u => exact h u hc

theorem mapM_relaid {t : Tree} {read : Tree → Except Malformed α}
    (h : ∀ place, ∀ u ∈ t.children[place]?, read (t.childRelaid layout place u) = read u) :
    (t.relaid layout).children.mapM read = t.children.mapM read := by
  rw [children_relaid]
  generalize t.childRelaid layout = relay at h
  generalize t.children = row at h
  induction row generalizing relay with
  | nil => rfl
  | cons u row ih =>
    have hfirst : read (relay 0 u) = read u := h 0 u rfl
    have hrest := ih (fun place => relay (place + 1)) fun place v hv => h (place + 1) v hv
    rw [List.mapIdx_cons, List.mapM_cons, List.mapM_cons, hfirst, hrest]

theorem childRelaid_of_plain {t : Tree} {place : Nat}
    (h : t.holdsExpression place = true → layout.pairs [place] = []) (u : Tree) :
    t.childRelaid layout place u = u.relaid (layout.child t.rule place) := by
  have hpairs : (if t.holdsExpression place then layout.pairs [place] else []) = [] :=
    ite_eq_right_iff.mpr h
  rw [childRelaid, hpairs]
  rfl

theorem childRelaid_of_not {t : Tree} {place : Nat} (h : t.holdsExpression place = false)
    (u : Tree) : t.childRelaid layout place u = u.relaid (layout.child t.rule place) :=
  childRelaid_of_plain (fun hp => absurd hp (by simp [h])) u

theorem expect_relaid_bind {t : Tree} {rule : Rule} {f : Tree → Except Malformed α}
    (h : t.rule = rule → f (t.relaid layout) = f t) :
    (t.relaid layout).expect rule >>= f = t.expect rule >>= f := by
  by_cases hr : t.rule = rule
  · rw [expect_of_rule hr, expect_of_rule ((rule_relaid layout t).trans hr)]
    exact h hr
  · rw [expect, expect, if_neg hr, if_neg (by rwa [rule_relaid]), rule_relaid]

/-- The tree reads the same however it is laid out. -/
def Kept (read : Tree → Except Malformed α) (t : Tree) : Prop :=
  ∀ layout, read (t.relaid layout) = read t

theorem kept_text (t : Tree) : Kept text t := fun layout => text_relaid layout t

variable {t : Tree} {read : Tree → Except Malformed α}

theorem readAt_of_kept {place : Nat} (h : ∀ u ∈ t.children, Kept read u)
    (hp : t.holdsExpression place = false) :
    (t.relaid layout).readAt place read = t.readAt place read := by
  apply readAt_relaid
  intro u hu
  rw [childRelaid_of_not hp]
  exact h u (List.mem_of_getElem? hu) _

theorem readAt_plain_of_kept (h : ∀ u ∈ t.children, Kept read u) (place : Nat) :
    (t.relaid layout.plain).readAt place read = t.readAt place read := by
  apply readAt_relaid
  intro u hu
  rw [childRelaid_of_plain fun _ => layout.pairs_plain place]
  exact h u (List.mem_of_getElem? hu) _

theorem kept_readRow {rule : Rule} (h : ∀ u ∈ t.children, Kept read u)
    (hp : t.rule = rule → ∀ place, t.holdsExpression place = false) :
    Kept (readRow rule read) t := by
  intro layout
  apply expect_relaid_bind
  intro hr
  apply mapM_relaid
  intro place u hu
  rw [childRelaid_of_not (hp hr place)]
  exact h u (List.mem_of_getElem? hu) _

theorem isEmpty_children_relaid (t : Tree) :
    (t.relaid layout).children.isEmpty = t.children.isEmpty := by
  rw [Bool.eq_iff_iff, List.isEmpty_iff_length_eq_zero, List.isEmpty_iff_length_eq_zero,
    length_children_relaid]

theorem kept_readClause {rule : Rule} {place : Nat}
    (h : ∀ layout, t.rule = rule → (t.relaid layout).readAt place read = t.readAt place read) :
    Kept (readClause rule place read) t := by
  intro layout
  apply expect_relaid_bind
  intro hr
  rw [isEmpty_children_relaid, h layout hr]

theorem kept_readMarker (rule : Rule) (t : Tree) : Kept (readMarker rule) t := by
  intro layout
  apply expect_relaid_bind
  intro _
  rw [isEmpty_children_relaid]

theorem induct {motive : Tree → Prop}
    (node : ∀ t : Tree, (∀ u ∈ t.children, motive u) → motive t) (t : Tree) : motive t := by
  refine @Tree.rec motive (fun row => ∀ u ∈ row, motive u) ?_ ?_ ?_ t
  · intro rule token children ih
    exact node ⟨rule, token, children⟩ ih
  · exact fun u hu => absurd hu List.not_mem_nil
  · intro t row ht hrow
    exact List.forall_mem_cons.mpr ⟨ht, hrow⟩

end Tree

open ClassLang.Tree

theorem Ident.kept_read (t : Tree) : Kept Ident.read t := by
  intro layout
  rw [Ident.read_eq, Ident.read_eq]
  apply expect_relaid_bind
  intro _
  rw [text_relaid]

namespace Expr

theorem read_tree_enclosed (t : Tree) (pairs : List (Location × Location)) :
    read (t.enclosed pairs) = read t := by
  induction pairs generalizing t with
  | nil => rfl
  | cons pair pairs ih => exact (ih _).trans (read_parenthesized rfl)

variable {layout : Relayout} {t : Tree}

theorem readAt_of_kept (h : ∀ u ∈ t.children, Kept read u) (place : Nat) :
    (t.relaid layout).readAt place read = t.readAt place read := by
  apply readAt_relaid
  intro u hu
  rw [childRelaid, read_tree_enclosed]
  exact h u (List.mem_of_getElem? hu) _

theorem kept_readArguments_of (h : ∀ u ∈ t.children, Kept read u) : Kept readArguments t := by
  intro layout
  apply expect_relaid_bind
  intro _
  apply mapM_relaid
  intro place u hu
  rw [childRelaid, read_tree_enclosed]
  exact h u (List.mem_of_getElem? hu) _

theorem kept_read_and_readArguments (t : Tree) : Kept read t ∧ Kept readArguments t := by
  induction t using Tree.induct with
  | node t ih =>
    have hread : ∀ u ∈ t.children, Kept read u := fun u hu => (ih u hu).1
    have hexpression (layout : Relayout) (place : Nat) :
        (t.relaid layout).readAt place read = t.readAt place read := readAt_of_kept hread place
    refine ⟨fun layout => ?_, kept_readArguments_of hread⟩
    have hname (place : Nat) (hp : t.holdsExpression place = false) :
        (t.relaid layout).readAt place Ident.read = t.readAt place Ident.read :=
      Tree.readAt_of_kept (fun u _ => Ident.kept_read u) hp
    have htext (place : Nat) (hp : t.holdsExpression place = false) :
        (t.relaid layout).readAt place text = t.readAt place text :=
      Tree.readAt_of_kept (fun u _ => kept_text u) hp
    have harguments (place : Nat) (hp : t.holdsExpression place = false) :
        (t.relaid layout).readAt place readArguments = t.readAt place readArguments :=
      Tree.readAt_of_kept (fun u hu => (ih u hu).2) hp
    have hrule := rule_relaid layout t
    cases hr : t.rule with
    | identifier =>
      rw [read_ident (hrule.trans hr), read_ident hr, Ident.kept_read t layout]
    | integerLiteral =>
      rw [read_literal .integer (hrule.trans hr), read_literal .integer hr, text_relaid]
    | realLiteral => rw [read_literal .real (hrule.trans hr), read_literal .real hr, text_relaid]
    | stringLiteral =>
      rw [read_literal .string (hrule.trans hr), read_literal .string hr, text_relaid]
    | charLiteral => rw [read_literal .char (hrule.trans hr), read_literal .char hr, text_relaid]
    | booleanLiteral =>
      rw [read_literal .boolean (hrule.trans hr), read_literal .boolean hr, text_relaid]
    | parenthesizedExpression =>
      rw [read_parenthesized (hrule.trans hr), read_parenthesized hr, hexpression]
    | memberAccess =>
      rw [read_member (hrule.trans hr), read_member hr, hexpression,
        hname 2 (by simp [holdsExpression, hr])]
    | methodCall =>
      rw [read_call (hrule.trans hr), read_call hr, hexpression,
        harguments 2 (by simp [holdsExpression, hr])]
    | newExpression =>
      rw [read_new (hrule.trans hr), read_new hr, hname 1 (by simp [holdsExpression, hr]),
        harguments 3 (by simp [holdsExpression, hr])]
    | unaryExpression =>
      rw [read_unary (hrule.trans hr), read_unary hr, htext 0 (by simp [holdsExpression, hr]),
        hexpression]
    | binaryExpression =>
      rw [read_binary (hrule.trans hr), read_binary hr, hexpression, hexpression,
        htext 1 (by simp [holdsExpression, hr])]
    | assignmentExpression =>
      rw [read_assign (hrule.trans hr), read_assign hr, hexpression, hexpression,
        htext 1 (by simp [holdsExpression, hr])]
    | _ =>
      obtain ⟨rule, token, children⟩ := t
      cases hr
      rfl

theorem kept_read (t : Tree) : Kept read t := (kept_read_and_readArguments t).1

theorem readAt_relaid (t : Tree) (place : Nat) :
    (t.relaid layout).readAt place read = t.readAt place read :=
  readAt_of_kept (fun u _ => kept_read u) place

end Expr

theorem Declarator.kept_read (t : Tree) : Kept Declarator.read t := by
  intro layout
  rw [Declarator.read_eq, Declarator.read_eq]
  apply expect_relaid_bind
  intro hr
  have hname := @readAt_of_kept _ layout t Ident.read 0 (fun u _ => Ident.kept_read u)
    (by simp [holdsExpression, hr])
  rw [length_children_relaid, Expr.readAt_relaid, hname]

theorem Declarator.kept_readList (t : Tree) : Kept Declarator.readList t :=
  kept_readRow (fun u _ => Declarator.kept_read u) fun hr place => by simp [holdsExpression, hr]

theorem Declaration.kept_read (t : Tree) : Kept Declaration.read t := by
  intro layout
  rw [Declaration.read_eq, Declaration.read_eq]
  apply expect_relaid_bind
  intro hr
  have hplain (place : Nat) : t.holdsExpression place = false := by simp [holdsExpression, hr]
  rw [readAt_of_kept (fun u _ => Ident.kept_read u) (hplain 0),
    readAt_of_kept (fun u _ => Declarator.kept_readList u) (hplain 1)]

theorem ForInit.kept_read (t : Tree) : Kept ForInit.read t := by
  intro layout
  rw [ForInit.read_eq, ForInit.read_eq, rule_relaid, Declaration.kept_read t layout,
    Expr.kept_read t layout]

theorem Tree.rule_enclosed_ne {t : Tree} (h : t.rule ≠ .declarationStatement)
    (pairs : List (Location × Location)) : (t.enclosed pairs).rule ≠ .declarationStatement := by
  induction pairs generalizing t with
  | nil => exact h
  | cons pair pairs ih =>
    exact ih (show Rule.parenthesizedExpression ≠ .declarationStatement by decide)

theorem ForInit.kept_clause (t : Tree) : Kept (readClause .forInit 0 ForInit.read) t := by
  apply kept_readClause
  intro layout hr
  apply Tree.readAt_relaid
  intro u hu
  by_cases hd : u.rule = .declarationStatement
  · have hplain : t.holdsExpression 0 = false := by
      have ho : t.optional = some u := List.head?_eq_getElem?.trans hu
      simp [holdsExpression, hr, ho, hd]
    rw [childRelaid_of_not hplain]
    exact ForInit.kept_read u _
  · have hd' : (u.relaid (layout.child t.rule 0)).rule ≠ .declarationStatement := by
      rwa [rule_relaid]
    rw [childRelaid, ForInit.read_eq, if_neg (rule_enclosed_ne hd' _), Expr.read_tree_enclosed,
      ForInit.read_eq, if_neg hd, Expr.kept_read u]

theorem Expr.kept_clause {rule : Rule} (t : Tree) : Kept (readClause rule 0 Expr.read) t :=
  kept_readClause fun _ _ => Expr.readAt_relaid t 0

namespace Stmt

theorem kept_read_and_lists (t : Tree) : Kept read t ∧ Kept readList t ∧ Kept readElse t := by
  induction t using Tree.induct with
  | node t ih =>
    have hread : ∀ u ∈ t.children, Kept read u := fun u hu => (ih u hu).1
    refine ⟨fun layout => ?_, ?_, ?_⟩
    · have hstatement (place : Nat) (hp : t.holdsExpression place = false) :
          (t.relaid layout).readAt place read = t.readAt place read := readAt_of_kept hread hp
      have hexpression (place : Nat) :
          (t.relaid layout).readAt place Expr.read = t.readAt place Expr.read :=
        Expr.readAt_relaid t place
      have hrule := rule_relaid layout t
      cases hr : t.rule with
      | block =>
        rw [read_block (hrule.trans hr), read_block hr,
          readAt_of_kept (fun u hu => (ih u hu).2.1) (by simp [holdsExpression, hr])]
      | continueStatement => rw [read_continue (hrule.trans hr), read_continue hr]
      | breakStatement => rw [read_break (hrule.trans hr), read_break hr]
      | returnStatement =>
        rw [read_return (hrule.trans hr), read_return hr, length_children_relaid, hexpression]
      | declarationStatement =>
        rw [read_declaration (hrule.trans hr), read_declaration hr, Declaration.kept_read t layout]
      | whileStatement =>
        rw [read_while (hrule.trans hr), read_while hr, hexpression,
          hstatement 4 (by simp [holdsExpression, hr])]
      | doWhileStatement =>
        rw [read_doWhile (hrule.trans hr), read_doWhile hr, hexpression,
          hstatement 1 (by simp [holdsExpression, hr])]
      | ifStatement =>
        rw [read_if (hrule.trans hr), read_if hr, hexpression,
          hstatement 4 (by simp [holdsExpression, hr]),
          readAt_of_kept (fun u hu => (ih u hu).2.2) (by simp [holdsExpression, hr])]
      | forStatement =>
        have hplain (place : Nat) : t.holdsExpression place = false := by simp [holdsExpression, hr]
        rw [read_for (hrule.trans hr), read_for hr, hstatement 8 (hplain 8),
          readAt_of_kept (fun u _ => ForInit.kept_clause u) (hplain 2),
          readAt_of_kept (fun u _ => Expr.kept_clause u) (hplain 4),
          readAt_of_kept (fun u _ => Expr.kept_clause u) (hplain 6)]
      | expressionStatement =>
        rw [read_expression (hrule.trans hr), read_expression hr, hexpression]
      | _ =>
        obtain ⟨rule, token, children⟩ := t
        cases hr
        rfl
    · exact kept_readRow hread fun hr place => by simp [holdsExpression, hr]
    · exact kept_readClause fun layout hr => readAt_of_kept hread (by simp [holdsExpression, hr])

end Stmt

theorem Block.kept_read (t : Tree) : Kept Block.read t := by
  intro layout
  have hlist (hr : t.rule = .block) :
      (t.relaid layout).readAt 1 Stmt.readList = t.readAt 1 Stmt.readList :=
    readAt_of_kept (fun u _ => (Stmt.kept_read_and_lists u).2.1) (by simp [holdsExpression, hr])
  rw [Block.read_eq, Block.read_eq]
  apply expect_relaid_bind
  intro hr
  rw [hlist hr]

theorem Block.kept_readBody (t : Tree) : Kept Block.readBody t := by
  intro layout
  rw [Block.readBody_eq, Block.readBody_eq, rule_relaid, Block.kept_read t layout]

theorem Parameter.kept_read (t : Tree) : Kept Parameter.read t := by
  intro layout
  rw [Parameter.read_eq, Parameter.read_eq]
  apply expect_relaid_bind
  intro hr
  have hplain (place : Nat) : t.holdsExpression place = false := by simp [holdsExpression, hr]
  rw [readAt_of_kept (fun u _ => Ident.kept_read u) (hplain 0),
    readAt_of_kept (fun u _ => Ident.kept_read u) (hplain 1)]

theorem Parameter.kept_readList (t : Tree) : Kept Parameter.readList t :=
  kept_readRow (fun u _ => Parameter.kept_read u) fun hr place => by simp [holdsExpression, hr]

theorem MemberKind.kept_read (t : Tree) : Kept MemberKind.read t := by
  intro layout
  have hrule := rule_relaid layout t
  cases hr : t.rule with
  | fieldDefinition =>
    rw [read_field (hrule.trans hr), read_field hr,
      readAt_of_kept (fun u _ => Declarator.kept_readList u) (by simp [holdsExpression, hr])]
  | methodDefinition =>
    have hplain (place : Nat) : t.holdsExpression place = false := by simp [holdsExpression, hr]
    rw [read_method (hrule.trans hr), read_method hr,
      readAt_of_kept (fun u _ => Ident.kept_read u) (hplain 4),
      readAt_of_kept (fun u _ => Parameter.kept_readList u) (hplain 6),
      readAt_of_kept (fun u _ => Block.kept_readBody u) (hplain 8)]
  | operatorDefinition =>
    have hplain (place : Nat) : t.holdsExpression place = false := by simp [holdsExpression, hr]
    rw [read_operator (hrule.trans hr), read_operator hr,
      readAt_of_kept (fun u _ => kept_text u) (hplain 5),
      readAt_of_kept (fun u _ => Parameter.kept_readList u) (hplain 7),
      readAt_of_kept (fun u _ => Block.kept_readBody u) (hplain 9)]
  | _ =>
    obtain ⟨rule, token, children⟩ := t
    cases hr
    rfl

theorem Tree.kept_keyword {t : Tree} {rule : Rule}
    (h : t.rule = rule → t.holdsExpression 0 = false) : Kept (readClause rule 0 text) t :=
  kept_readClause fun _ hr => readAt_of_kept (fun u _ => kept_text u) (h hr)

theorem Member.read_relaid_plain (owner : String) (layout : Relayout) (t : Tree) :
    Member.read owner (t.relaid layout.plain) = Member.read owner t := by
  have haccessor (u : Tree) : Kept (readClause .accessor 0 text) u :=
    kept_keyword fun hr => by simp [holdsExpression, hr]
  have hmodifier (u : Tree) : Kept (readClause .memberModifier 0 text) u :=
    kept_keyword fun hr => by simp [holdsExpression, hr]
  rw [Member.read_eq, Member.read_eq, readAt_plain_of_kept (fun u _ => haccessor u),
    readAt_plain_of_kept (fun u _ => hmodifier u),
    readAt_plain_of_kept (fun u _ => kept_readMarker _ u),
    readAt_plain_of_kept (fun u _ => Ident.kept_read u), MemberKind.kept_read t layout.plain]

theorem Member.kept_readList (owner : String) (t : Tree) : Kept (Member.readList owner) t := by
  intro layout
  apply expect_relaid_bind
  intro hr
  apply mapM_relaid
  intro place u _
  rw [childRelaid_of_not (by simp [holdsExpression, hr]), Relayout.child, if_pos hr]
  exact Member.read_relaid_plain owner _ u

theorem ClassDef.kept_read (t : Tree) : Kept ClassDef.read t := by
  intro layout
  rw [ClassDef.read_eq, ClassDef.read_eq]
  apply expect_relaid_bind
  intro hr
  have hplain (place : Nat) : t.holdsExpression place = false := by simp [holdsExpression, hr]
  have hmodifier (u : Tree) : Kept (readClause .classModifier 0 text) u :=
    kept_keyword fun hr => by simp [holdsExpression, hr]
  have hbase (u : Tree) : Kept (readClause .baseClause 1 Ident.read) u :=
    kept_readClause fun _ hr =>
      readAt_of_kept (fun v _ => Ident.kept_read v) (by simp [holdsExpression, hr])
  have hmembers (owner : String) :
      (t.relaid layout).readAt 7 (Member.readList owner) = t.readAt 7 (Member.readList owner) :=
    readAt_of_kept (fun u _ => Member.kept_readList owner u) (hplain 7)
  simp only [hmembers, readAt_of_kept (fun u _ => hmodifier u) (hplain 0),
    readAt_of_kept (fun u _ => kept_readMarker _ u) (hplain 1),
    readAt_of_kept (fun u _ => kept_readMarker _ u) (hplain 2),
    readAt_of_kept (fun u _ => kept_text u) (hplain 3),
    readAt_of_kept (fun u _ => Ident.kept_read u) (hplain 4),
    readAt_of_kept (fun u _ => hbase u) (hplain 5)]

/-- Neither parentheses nor the places of tokens make a difference to what a tree stands for, up to
spans, or to the fault that is found in it. -/
theorem Program.kept_read (t : Tree) : Kept Program.read t := by
  intro layout
  have hclasses : Kept (readRow .program ClassDef.read) t :=
    kept_readRow (fun u _ => ClassDef.kept_read u) fun hr place => by simp [holdsExpression, hr]
  rw [Program.read_eq, Program.read_eq, hclasses layout]

end ClassLang
