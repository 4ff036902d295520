import ClassLang.Proofs.Parentheses
import Mathlib.Data.Set.Basic

namespace ClassLang

namespace Tree

mutual

/-- The nodes of a tree, from the root down and from left to right. -/
def nodes : Tree → List Tree
  | t@⟨_, _, children⟩ => t :: nodesOf children

def nodesOf : List Tree → List Tree
  | [] => []
  | t :: ts => t.nodes ++ nodesOf ts

end

theorem nodesOf_eq_flatMap (ts : List Tree) : nodesOf ts = ts.flatMap nodes := by
  induction ts with
  | nil => rfl
  | cons t ts ih => rw [nodesOf, ih, List.flatMap_cons]

theorem nodes_eq (t : Tree) : t.nodes = t :: t.children.flatMap nodes := by
  obtain ⟨rule, token, children⟩ := t
  rw [nodes, nodesOf_eq_flatMap]

def Inside (places : Set Span) (t : Tree) : Prop := ∀ node ∈ t.nodes, node.span ∈ places

variable {α β : Type} {places : Set Span} {t : Tree}

theorem Inside.span (h : t.Inside places) : t.span ∈ places := by
  refine h t ?_
  rw [nodes_eq]
  exact List.mem_cons_self

theorem Inside.child (h : t.Inside places) {u : Tree} (hu : u ∈ t.children) :
    u.Inside places := by
  intro node hn
  refine h node ?_
  rw [nodes_eq]
  exact List.mem_cons_of_mem _ (List.mem_flatMap_of_mem hu hn)

theorem induct_below {motive : Tree → Prop}
    (node : ∀ t : Tree, (∀ u ∈ t.children, motive u) →
      (∀ u ∈ t.children, ∀ v ∈ u.children, motive v) → motive t) (t : Tree) : motive t := by
  have h : motive t ∧ ∀ u ∈ t.children, motive u := by
    induction t using Tree.induct with
    | node t ih =>
      have hc : ∀ u ∈ t.children, motive u := fun u hu => (ih u hu).1
      exact ⟨node t hc fun u hu => (ih u hu).2, hc⟩
  exact h.1

/-- If something is read at all, it has the property. -/
structure Gives (P : α → Prop) (x : Except Malformed α) : Prop where
  of_ok : ∀ a, x = .ok a → P a

section Gives

variable {P : α → Prop} {Q : β → Prop}

theorem gives_ok {a : α} (h : P a) : Gives P (.ok a) := ⟨fun _ ha => Except.ok.inj ha ▸ h⟩

theorem gives_pure {a : α} (h : P a) : Gives P (pure a) := gives_ok h

theorem gives_error (fault : Malformed) : Gives P (.error fault) := ⟨nofun⟩

theorem gives_any (x : Except Malformed α) : Gives (fun _ => True) x := ⟨fun _ _ => trivial⟩

theorem Gives.imp {R : α → Prop} {x : Except Malformed α} (h : Gives P x) (hr : ∀ a, P a → R a) :
    Gives R x := ⟨fun a ha => hr a (h.of_ok a ha)⟩

theorem gives_bind {x : Except Malformed α} {f : α → Except Malformed β} (hx : Gives P x)
    (hf : ∀ a, P a → Gives Q (f a)) : Gives Q (x >>= f) := by
  cases x with
  | error fault => exact gives_error fault
  | ok a => exact hf a (hx.of_ok a rfl)

theorem gives_mapM {read : Tree → Except Malformed α} {ts : List Tree}
    (h : ∀ u ∈ ts, Gives P (read u)) : Gives (fun as => ∀ a ∈ as, P a) (ts.mapM read) := by
  induction ts with
  | nil => exact gives_pure (by simp)
  | cons t ts ih =>
    rw [List.mapM_cons]
    apply gives_bind (h t (by simp))
    intro a ha
    apply gives_bind (ih fun u hu => h u (by simp [hu]))
    intro as has
    exact gives_pure (List.forall_mem_cons.mpr ⟨ha, has⟩)

theorem gives_readAt {read : Tree → Except Malformed α} (h : ∀ u ∈ t.children, Gives P (read u))
    (index : Nat) : Gives P (t.readAt index read) := by
  unfold readAt
  cases hu : t.children[index]? with
  | none => exact gives_error _
  | some u => exact h u (List.mem_of_getElem? hu)

theorem gives_expect {P : Tree → Prop} (h : P t) (rule : Rule) : Gives P (t.expect rule) := by
  unfold expect
  split
  · exact gives_ok h
  · exact gives_error _

theorem gives_readRow {read : Tree → Except Malformed α} (h : ∀ u ∈ t.children, Gives P (read u))
    (rule : Rule) : Gives (fun as => ∀ a ∈ as, P a) (t.readRow rule read) := by
  apply gives_bind (gives_expect (P := (· = t)) rfl rule)
  rintro _ rfl
  exact gives_mapM h

theorem gives_readClause {read : Tree → Except Malformed α}
    (h : ∀ u ∈ t.children, Gives P (read u)) (rule : Rule) (index : Nat) :
    Gives (fun found => ∀ a ∈ found, P a) (t.readClause rule index read) := by
  apply gives_bind (gives_expect (P := (· = t)) rfl rule)
  rintro _ rfl
  split
  · exact gives_pure (by simp)
  · apply gives_bind (gives_readAt h index)
    intro a ha
    exact gives_pure (by simpa using ha)

theorem gives_child (h : t.Inside places) (index : Nat) :
    Gives (Inside places) (t.child index) := by
  unfold child
  cases hu : t.children[index]? with
  | none => exact gives_error _
  | some u => exact gives_ok (h.child (List.mem_of_getElem? hu))

theorem gives_part (h : t.Inside places) (index : Nat) (rule : Rule) :
    Gives (Inside places) (t.part index rule) := by
  apply gives_bind (gives_child h index)
  intro u hu
  exact gives_expect hu rule

theorem gives_optionalPart {read : Tree → Except Malformed α} (h : t.Inside places)
    (hr : ∀ u : Tree, u.Inside places → Gives P (read u)) (index : Nat) (rule : Rule) :
    Gives (fun found => ∀ a ∈ found, P a) (t.optionalPart index rule read) := by
  rw [optionalPart_eq]
  apply gives_readAt
  intro u hu
  exact gives_readClause (fun v hv => hr v ((h.child hu).child hv)) rule 0

end Gives

end Tree

open ClassLang.Tree

variable {places : Set Span} {t : Tree}

theorem Ident.gives_ofTree (h : t.Inside places) :
    Gives (fun name : Ident => name.span ∈ places) (ofTree t) := by
  apply gives_bind (gives_expect h _)
  intro u hu
  apply gives_bind (gives_any _)
  intro text _
  exact gives_pure hu.span

namespace Expr

mutual

def Placed (places : Set Span) : Expr → Prop
  | .literal _ _ span => span ∈ places
  | .ident name => name.span ∈ places
  | .member target name span => target.Placed places ∧ name.span ∈ places ∧ span ∈ places
  | .call callee arguments span =>
    callee.Placed places ∧ AllPlaced places arguments ∧ span ∈ places
  | .new className arguments span =>
    className.span ∈ places ∧ AllPlaced places arguments ∧ span ∈ places
  | .unary _ operand span => operand.Placed places ∧ span ∈ places
  | .binary left _ right span => left.Placed places ∧ right.Placed places ∧ span ∈ places
  | .assign target _ value span => target.Placed places ∧ value.Placed places ∧ span ∈ places

def AllPlaced (places : Set Span) : List Expr → Prop
  | [] => True
  | e :: rest => e.Placed places ∧ AllPlaced places rest

end

theorem allPlaced_of_forall {es : List Expr} (h : ∀ e ∈ es, e.Placed places) :
    AllPlaced places es := by
  induction es with
  | nil => trivial
  | cons e es ih => exact ⟨h e (by simp), ih fun d hd => h d (by simp [hd])⟩

theorem Placed.span {e : Expr} (h : e.Placed places) : e.span ∈ places := by
  cases e with
  | literal kind text span => exact h
  | ident name => exact h
  | unary operator operand span => exact h.2
  | member => exact h.2.2
  | call => exact h.2.2
  | new => exact h.2.2
  | binary => exact h.2.2
  | assign => exact h.2.2

theorem gives_literalOfTree (h : t.Inside places) (kind : LiteralKind) :
    Gives (Placed places) (literalOfTree kind t) := by
  apply gives_bind (gives_any _)
  intro text _
  exact gives_pure h.span

theorem gives_ofTree (h : t.Inside places) : Gives (Placed places) (ofTree t) := by
  induction t using Tree.induct_below with
  | node t children grandchildren =>
    have hat (index : Nat) : Gives (Placed places) (t.require index (at? t.children index)) := by
      rw [at?_eq_map]
      exact gives_readAt (fun u hu => children u hu (h.child hu)) index
    have harguments (index : Nat) :
        Gives (AllPlaced places) (t.require index (argumentsAt? t.children index)) := by
      rw [argumentsAt?_eq_map]
      refine gives_readAt (fun u hu => ?_) index
      refine (gives_readRow (fun v hv => ?_) .argumentList).imp fun _ => allPlaced_of_forall
      exact grandchildren u hu v hv ((h.child hu).child hv)
    obtain ⟨rule, token, children⟩ := t
    cases rule with
    | identifier => exact gives_bind (Ident.gives_ofTree h) fun _ hn => gives_pure hn
    | integerLiteral => exact gives_literalOfTree h .integer
    | realLiteral => exact gives_literalOfTree h .real
    | stringLiteral => exact gives_literalOfTree h .string
    | charLiteral => exact gives_literalOfTree h .char
    | booleanLiteral => exact gives_literalOfTree h .boolean
    | parenthesizedExpression => exact hat 1
    | memberAccess =>
      apply gives_bind (hat 0)
      intro target ht
      apply gives_bind (gives_child h 2)
      intro u hu
      apply gives_bind (Ident.gives_ofTree hu)
      intro name hn
      exact gives_pure ⟨ht, hn, h.span⟩
    | methodCall =>
      apply gives_bind (hat 0)
      intro callee hc
      apply gives_bind (harguments 2)
      intro arguments ha
      exact gives_pure ⟨hc, ha, h.span⟩
    | newExpression =>
      apply gives_bind (gives_child h 1)
      intro u hu
      apply gives_bind (Ident.gives_ofTree hu)
      intro className hc
      apply gives_bind (harguments 3)
      intro arguments ha
      exact gives_pure ⟨hc, ha, h.span⟩
    | unaryExpression =>
      apply gives_bind (gives_any _)
      intro u _
      apply gives_bind (gives_any _)
      intro operator _
      apply gives_bind (hat 1)
      intro operand ho
      exact gives_pure ⟨ho, h.span⟩
    | binaryExpression | assignmentExpression =>
      apply gives_bind (hat 0)
      intro left hl
      apply gives_bind (gives_any _)
      intro u _
      apply gives_bind (gives_any _)
      intro operator _
      apply gives_bind (hat 2)
      intro right hr
      exact gives_pure ⟨hl, hr, h.span⟩
    | _ => exact gives_error _

end Expr

structure Declarator.Placed (places : Set Span) (d : Declarator) : Prop where
  name : d.name.span ∈ places
  value : ∀ e ∈ d.value, e.Placed places
  span : d.span ∈ places

structure Declaration.Placed (places : Set Span) (d : Declaration) : Prop where
  typeName : d.typeName.span ∈ places
  declarators : ∀ declarator ∈ d.declarators, declarator.Placed places
  span : d.span ∈ places

def ForInit.Placed (places : Set Span) : ForInit → Prop
  | .declaration d => d.Placed places
  | .expression e => e.Placed places

theorem Declarator.gives_ofTree (h : t.Inside places) : Gives (Placed places) (ofTree t) := by
  apply gives_bind (gives_expect h _)
  intro u hu
  have hlast (value : Option Expr) (hvalue : ∀ e ∈ value, e.Placed places) :
      Gives (Placed places) (do return ⟨← Ident.ofTree (← u.child 0), value, u.span⟩) := by
    apply gives_bind (gives_child hu 0)
    intro v hv
    apply gives_bind (Ident.gives_ofTree hv)
    intro name hn
    exact gives_pure ⟨hn, hvalue, hu.span⟩
  split
  · exact hlast none (by simp)
  · apply gives_bind (gives_child hu 2)
    intro v hv
    apply gives_bind (Expr.gives_ofTree hv)
    intro e he
    exact hlast (some e) (by simpa using he)

theorem Declarator.gives_listOfTree (h : t.Inside places) :
    Gives (fun ds => ∀ d ∈ ds, Placed places d) (listOfTree t) :=
  gives_readRow (fun _ hu => gives_ofTree (h.child hu)) .fieldAtomList

theorem Declaration.gives_ofTree (h : t.Inside places) : Gives (Placed places) (ofTree t) := by
  apply gives_bind (gives_expect h _)
  intro u hu
  apply gives_bind (gives_child hu 0)
  intro v hv
  apply gives_bind (Ident.gives_ofTree hv)
  intro typeName hn
  apply gives_bind (gives_child hu 1)
  intro w hw
  apply gives_bind (Declarator.gives_listOfTree hw)
  intro declarators hd
  exact gives_pure ⟨hn, hd, hu.span⟩

theorem ForInit.gives_ofTree (h : t.Inside places) : Gives (Placed places) (ofTree t) := by
  unfold ofTree
  split
  · exact gives_bind (Declaration.gives_ofTree h) fun _ hd => gives_pure hd
  · exact gives_bind (Expr.gives_ofTree h) fun _ he => gives_pure he

namespace Stmt

mutual

def Placed (places : Set Span) : Stmt → Prop
  | .block statements span => AllPlaced places statements ∧ span ∈ places
  | .continueLoop span => span ∈ places
  | .breakLoop span => span ∈ places
  | .ret value span => (∀ e ∈ value, e.Placed places) ∧ span ∈ places
  | .declaration d => d.Placed places
  | .whileLoop condition body span => condition.Placed places ∧ body.Placed places ∧ span ∈ places
  | .doLoop body condition span => body.Placed places ∧ condition.Placed places ∧ span ∈ places
  | .ifThen condition thenBranch span =>
    condition.Placed places ∧ thenBranch.Placed places ∧ span ∈ places
  | .ifElse condition thenBranch elseBranch span =>
    condition.Placed places ∧ thenBranch.Placed places ∧ elseBranch.Placed places ∧ span ∈ places
  | .forLoop init condition step body span =>
    (∀ i ∈ init, i.Placed places) ∧ (∀ e ∈ condition, e.Placed places) ∧
      (∀ e ∈ step, e.Placed places) ∧ body.Placed places ∧ span ∈ places
  | .expression e span => e.Placed places ∧ span ∈ places

def AllPlaced (places : Set Span) : List Stmt → Prop
  | [] => True
  | s :: rest => s.Placed places ∧ AllPlaced places rest

end

theorem allPlaced_of_forall {ss : List Stmt} (h : ∀ s ∈ ss, s.Placed places) :
    AllPlaced places ss := by
  induction ss with
  | nil => trivial
  | cons s ss ih => exact ⟨h s (by simp), ih fun r hr => h r (by simp [hr])⟩

theorem Placed.span {s : Stmt} (h : s.Placed places) : s.span ∈ places := by
  cases s with
  | declaration d => exact Declaration.Placed.span h
  | continueLoop span | breakLoop span => exact h
  | block | ret | expression => exact h.2
  | whileLoop | doLoop | ifThen => exact h.2.2
  | ifElse => exact h.2.2.2
  | forLoop => exact h.2.2.2.2

theorem gives_listAt? (h : ∀ u ∈ t.children, ∀ v ∈ u.children, Gives (Placed places) (ofTree v))
    (index : Nat) : Gives (AllPlaced places) (t.require index (listAt? t.children index)) := by
  rw [listAt?_eq_map]
  refine gives_readAt (fun u hu => ?_) index
  exact (gives_readRow (h u hu) .statementList).imp fun _ => allPlaced_of_forall

theorem gives_ofTree (h : t.Inside places) : Gives (Placed places) (ofTree t) := by
  induction t using Tree.induct_below with
  | node t ih below =>
    have hat (index : Nat) : Gives (Placed places) (t.require index (at? t.children index)) := by
      rw [at?_eq_map]
      exact gives_readAt (fun u hu => ih u hu (h.child hu)) index
    have hbelow : ∀ u ∈ t.children, ∀ v ∈ u.children, Gives (Placed places) (ofTree v) :=
      fun u hu v hv => below u hu v hv ((h.child hu).child hv)
    have helse (index : Nat) : Gives (fun found => ∀ s ∈ found, Placed places s)
        (t.require index (elseAt? t.children index)) := by
      rw [elseAt?_eq_map]
      exact gives_readAt (fun u hu => gives_readClause (hbelow u hu) .elseClause 1) index
    have hlist := gives_listAt? hbelow
    obtain ⟨rule, token, children⟩ := t
    cases rule with
    | block => exact gives_bind (hlist 1) fun _ hs => gives_pure ⟨hs, h.span⟩
    | continueStatement | breakStatement => exact gives_pure h.span
    | returnStatement =>
      obtain _ | ⟨first, _ | ⟨value, _ | ⟨last, _ | ⟨next, rest⟩⟩⟩⟩ := children
      case cons.cons.cons.nil =>
        apply gives_bind (Expr.gives_ofTree (h.child (u := value) (by simp)))
        intro e he
        exact gives_pure ⟨by simpa using he, h.span⟩
      all_goals exact gives_pure ⟨by simp, h.span⟩
    | declarationStatement =>
      exact gives_bind (Declaration.gives_ofTree h) fun _ hd => gives_pure hd
    | whileStatement =>
      apply gives_bind (gives_child h 2)
      intro u hu
      apply gives_bind (Expr.gives_ofTree hu)
      intro condition hc
      apply gives_bind (hat 4)
      intro body hb
      exact gives_pure ⟨hc, hb, h.span⟩
    | doWhileStatement =>
      apply gives_bind (hat 1)
      intro body hb
      apply gives_bind (gives_child h 4)
      intro u hu
      apply gives_bind (Expr.gives_ofTree hu)
      intro condition hc
      exact gives_pure ⟨hb, hc, h.span⟩
    | ifStatement =>
      apply gives_bind (helse 5)
      intro otherwise ho
      apply gives_bind (gives_child h 2)
      intro u hu
      apply gives_bind (Expr.gives_ofTree hu)
      intro condition hc
      apply gives_bind (hat 4)
      intro thenBranch ht
      cases otherwise with
      | none => exact gives_pure ⟨hc, ht, h.span⟩
      | some elseBranch => exact gives_pure ⟨hc, ht, ho elseBranch rfl, h.span⟩
    | forStatement =>
      apply gives_bind (gives_optionalPart h (fun _ hu => ForInit.gives_ofTree hu) 2 .forInit)
      intro init hi
      apply gives_bind (gives_optionalPart h (fun _ hu => Expr.gives_ofTree hu) 4 .forCondition)
      intro condition hc
      apply gives_bind (gives_optionalPart h (fun _ hu => Expr.gives_ofTree hu) 6 .forStep)
      intro step hs
      apply gives_bind (hat 8)
      intro body hb
      exact gives_pure ⟨hi, hc, hs, hb, h.span⟩
    | expressionStatement =>
      apply gives_bind (gives_child h 0)
      intro u hu
      apply gives_bind (Expr.gives_ofTree hu)
      intro e he
      exact gives_pure ⟨he, h.span⟩
    | _ => exact gives_error _

end Stmt

structure Block.Placed (places : Set Span) (b : Block) : Prop where
  statements : Stmt.AllPlaced places b.statements
  span : b.span ∈ places

structure Parameter.Placed (places : Set Span) (p : Parameter) : Prop where
  typeName : p.typeName.span ∈ places
  name : p.name.span ∈ places

structure Routine.Placed (places : Set Span) (r : Routine) : Prop where
  name : r.name.span ∈ places
  parameters : ∀ p ∈ r.parameters, p.Placed places
  body : ∀ b ∈ r.body, b.Placed places

def MemberKind.Placed (places : Set Span) : MemberKind → Prop
  | .field declarators => ∀ d ∈ declarators, d.Placed places
  | .method routine | .operator routine => routine.Placed places

structure Member.Placed (places : Set Span) (m : Member) : Prop where
  declaredType : m.declaredType.span ∈ places
  span : m.span ∈ places
  kind : m.kind.Placed places

structure ClassDef.Placed (places : Set Span) (c : ClassDef) : Prop where
  ident : c.ident.span ∈ places
  base : ∀ base ∈ c.base, base.span ∈ places
  members : ∀ m ∈ c.members, m.Placed places
  span : c.span ∈ places

theorem Block.gives_ofTree (h : t.Inside places) : Gives (Placed places) (ofTree t) := by
  apply gives_bind (gives_expect h _)
  intro u hu
  have hlist := Stmt.gives_listAt? fun v hv w hw => Stmt.gives_ofTree ((hu.child hv).child hw)
  apply gives_bind (hlist 1)
  intro statements hs
  exact gives_pure ⟨hs, hu.span⟩

theorem Block.gives_ofTree? (h : t.Inside places) :
    Gives (fun body => ∀ b ∈ body, Placed places b) (ofTree? t) := by
  unfold ofTree?
  split
  · exact gives_bind (gives_ofTree h) fun b hb => gives_pure (by simpa using hb)
  · exact gives_pure (by simp)

theorem Parameter.gives_ofTree (h : t.Inside places) : Gives (Placed places) (ofTree t) := by
  apply gives_bind (gives_expect h _)
  intro u hu
  apply gives_bind (gives_child hu 0)
  intro v hv
  apply gives_bind (Ident.gives_ofTree hv)
  intro typeName ht
  apply gives_bind (gives_child hu 1)
  intro w hw
  apply gives_bind (Ident.gives_ofTree hw)
  intro name hn
  exact gives_pure ⟨ht, hn⟩

theorem Parameter.gives_listOfTree (h : t.Inside places) :
    Gives (fun ps => ∀ p ∈ ps, Placed places p) (listOfTree t) :=
  gives_readRow (fun _ hu => gives_ofTree (h.child hu)) .parameterList

namespace MemberKind

theorem gives_routine (make : Routine → MemberKind) (h : t.Inside places)
    (hmake : ∀ r : Routine, r.Placed places → (make r).Placed places) {name : Ident}
    (hn : name.span ∈ places) (parametersAt bodyAt : Nat) :
    Gives (Placed places) (do
      let parameters ← Parameter.listOfTree (← t.child parametersAt)
      return make ⟨name, parameters, ← Block.ofTree? (← t.child bodyAt)⟩) := by
  apply gives_bind (gives_child h parametersAt)
  intro u hu
  apply gives_bind (Parameter.gives_listOfTree hu)
  intro parameters hp
  apply gives_bind (gives_child h bodyAt)
  intro v hv
  apply gives_bind (Block.gives_ofTree? hv)
  intro body hb
  exact gives_pure (hmake _ ⟨hn, hp, hb⟩)

theorem gives_ofTree (h : t.Inside places) : Gives (Placed places) (ofTree t) := by
  unfold ofTree
  split
  · apply gives_bind (gives_child h 4)
    intro u hu
    exact gives_bind (Declarator.gives_listOfTree hu) fun _ hd => gives_pure hd
  · apply gives_bind (gives_child h 4)
    intro u hu
    apply gives_bind (Ident.gives_ofTree hu)
    intro name hn
    exact gives_routine .method h (fun _ hr => hr) hn 6 8
  · apply gives_bind (gives_child h 5)
    intro u hu
    apply gives_bind (gives_any _)
    intro symbol _
    exact gives_routine .operator h (fun _ hr => hr) hu.span 7 9
  · exact gives_error _

end MemberKind

theorem Member.gives_ofTree (h : t.Inside places) (owner : String) :
    Gives (Placed places) (ofTree owner t) := by
  apply gives_bind (gives_any _)
  intro accessor _
  apply gives_bind (gives_any _)
  intro visibility _
  apply gives_bind (gives_any _)
  intro word _
  apply gives_bind (gives_any _)
  intro modifier _
  apply gives_bind (gives_any _)
  intro isStatic _
  apply gives_bind (gives_child h 3)
  intro u hu
  apply gives_bind (Ident.gives_ofTree hu)
  intro declaredType ht
  apply gives_bind (MemberKind.gives_ofTree h)
  intro kind hk
  exact gives_pure ⟨ht, h.span, hk⟩

theorem ClassDef.gives_baseOfTree (h : t.Inside places) :
    Gives (fun base => ∀ name ∈ base, name.span ∈ places) (baseOfTree t) := by
  unfold baseOfTree
  split
  · exact gives_pure (by simp)
  · apply gives_bind (gives_child h 1)
    intro u hu
    exact gives_bind (Ident.gives_ofTree hu) fun name hn => gives_pure (by simpa using hn)

theorem ClassDef.gives_ofTree (h : t.Inside places) : Gives (Placed places) (ofTree t) := by
  apply gives_bind (gives_expect h _)
  intro u hu
  apply gives_bind (gives_any _)
  intro word _
  apply gives_bind (gives_any _)
  intro modifier _
  apply gives_bind (gives_any _)
  intro isPrimitive _
  apply gives_bind (gives_any _)
  intro isBackend _
  apply gives_bind (gives_any _)
  intro v _
  apply gives_bind (gives_any _)
  intro text _
  apply gives_bind (gives_any _)
  intro label _
  apply gives_bind (gives_child hu 4)
  intro v hv
  apply gives_bind (Ident.gives_ofTree hv)
  intro ident hi
  apply gives_bind (gives_part hu 5 _)
  intro w hw
  apply gives_bind (gives_baseOfTree hw)
  intro base hb
  apply gives_bind (gives_part hu 7 _)
  intro row hr
  apply gives_bind (gives_mapM fun m hm => Member.gives_ofTree (hr.child hm) ident.text)
  intro members hm
  exact gives_pure ⟨hi, hb, hm, hu.span⟩

theorem Program.gives_ofTree (h : t.Inside places) :
    Gives (fun p : Program => ∀ c ∈ p.classes, c.Placed places) (ofTree t) := by
  apply gives_bind (gives_expect h _)
  intro u hu
  apply gives_bind (gives_mapM fun c hc => ClassDef.gives_ofTree (hu.child hc))
  intro classes hc
  exact gives_pure hc

mutual

theorem Expr.placed_univ (e : Expr) : e.Placed Set.univ := by
  cases e with
  | literal kind text span | ident name => trivial
  | member target name span => exact ⟨target.placed_univ, trivial, trivial⟩
  | call callee arguments span =>
    exact ⟨callee.placed_univ, Expr.allPlaced_univ arguments, trivial⟩
  | new className arguments span => exact ⟨trivial, Expr.allPlaced_univ arguments, trivial⟩
  | unary operator operand span => exact ⟨operand.placed_univ, trivial⟩
  | binary left operator right span => exact ⟨left.placed_univ, right.placed_univ, trivial⟩
  | assign target operator value span => exact ⟨target.placed_univ, value.placed_univ, trivial⟩

theorem Expr.allPlaced_univ (es : List Expr) : Expr.AllPlaced Set.univ es := by
  cases es with
  | nil => trivial
  | cons e es => exact ⟨e.placed_univ, Expr.allPlaced_univ es⟩

end

theorem Declarator.placed_univ (d : Declarator) : d.Placed Set.univ :=
  ⟨trivial, fun e _ => e.placed_univ, trivial⟩

theorem Declaration.placed_univ (d : Declaration) : d.Placed Set.univ :=
  ⟨trivial, fun d _ => d.placed_univ, trivial⟩

theorem ForInit.placed_univ (init : ForInit) : init.Placed Set.univ := by
  cases init with
  | declaration d => exact d.placed_univ
  | expression e => exact e.placed_univ

mutual

theorem Stmt.placed_univ (s : Stmt) : s.Placed Set.univ := by
  cases s with
  | block statements span => exact ⟨Stmt.allPlaced_univ statements, trivial⟩
  | continueLoop span | breakLoop span => trivial
  | ret value span => exact ⟨fun e _ => e.placed_univ, trivial⟩
  | declaration d => exact d.placed_univ
  | whileLoop condition body span => exact ⟨condition.placed_univ, body.placed_univ, trivial⟩
  | doLoop body condition span => exact ⟨body.placed_univ, condition.placed_univ, trivial⟩
  | ifThen condition thenBranch span =>
    exact ⟨condition.placed_univ, thenBranch.placed_univ, trivial⟩
  | ifElse condition thenBranch elseBranch span =>
    exact ⟨condition.placed_univ, thenBranch.placed_univ, elseBranch.placed_univ, trivial⟩
  | forLoop init condition step body span =>
    exact ⟨fun i _ => i.placed_univ, fun e _ => e.placed_univ, fun e _ => e.placed_univ,
      body.placed_univ, trivial⟩
  | expression e span => exact ⟨e.placed_univ, trivial⟩

theorem Stmt.allPlaced_univ (statements : List Stmt) : Stmt.AllPlaced Set.univ statements := by
  cases statements with
  | nil => trivial
  | cons s rest => exact ⟨s.placed_univ, Stmt.allPlaced_univ rest⟩

end

theorem Routine.placed_univ (r : Routine) : r.Placed Set.univ :=
  ⟨trivial, fun _ _ => ⟨trivial, trivial⟩, fun b _ => ⟨Stmt.allPlaced_univ b.statements, trivial⟩⟩

theorem Member.placed_univ (m : Member) : m.Placed Set.univ := by
  refine ⟨trivial, trivial, ?_⟩
  cases m.kind with
  | field declarators => exact fun d _ => d.placed_univ
  | method routine | operator routine => exact routine.placed_univ

theorem ClassDef.placed_univ (c : ClassDef) : c.Placed Set.univ :=
  ⟨trivial, fun _ _ => trivial, fun m _ => m.placed_univ, trivial⟩

end ClassLang
