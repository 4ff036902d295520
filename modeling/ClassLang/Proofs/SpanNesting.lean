import ClassLang.Proofs.TokenOrder

namespace ClassLang

open Extent

def Ident.extent (name : Ident) : Extent := ⟨name.span, []⟩

mutual

def Expr.extent : Expr → Extent
  | .literal _ _ span => ⟨span, []⟩
  | .ident name => ⟨name.span, [name.extent]⟩
  | .member target name span => ⟨span, [target.extent, name.extent]⟩
  | .call callee arguments span => ⟨span, callee.extent :: Expr.extents arguments⟩
  | .new className arguments span => ⟨span, className.extent :: Expr.extents arguments⟩
  | .unary _ operand span => ⟨span, [operand.extent]⟩
  | .binary left _ right span => ⟨span, [left.extent, right.extent]⟩
  | .assign target _ value span => ⟨span, [target.extent, value.extent]⟩

def Expr.extents : List Expr → List Extent
  | [] => []
  | e :: rest => e.extent :: Expr.extents rest

end

def Declarator.extent (d : Declarator) : Extent :=
  ⟨d.span, d.name.extent :: d.value.toList.map Expr.extent⟩

def Declaration.extent (d : Declaration) : Extent :=
  ⟨d.span, d.typeName.extent :: d.declarators.map Declarator.extent⟩

def ForInit.extent : ForInit → Extent
  | .declaration d => d.extent
  | .expression e => e.extent

mutual

def Stmt.extent : Stmt → Extent
  | .block statements span => ⟨span, Stmt.extents statements⟩
  | .continueLoop span | .breakLoop span => ⟨span, []⟩
  | .ret value span => ⟨span, value.toList.map Expr.extent⟩
  | .declaration d => d.extent
  | .whileLoop condition body span => ⟨span, [condition.extent, body.extent]⟩
  | .doLoop body condition span => ⟨span, [body.extent, condition.extent]⟩
  | .ifThen condition thenBranch span => ⟨span, [condition.extent, thenBranch.extent]⟩
  | .ifElse condition thenBranch elseBranch span =>
    ⟨span, [condition.extent, thenBranch.extent, elseBranch.extent]⟩
  | .forLoop init condition step body span =>
    ⟨span, init.toList.map ForInit.extent ++ condition.toList.map Expr.extent ++
      step.toList.map Expr.extent ++ [body.extent]⟩
  | .expression e span => ⟨span, [e.extent]⟩

def Stmt.extents : List Stmt → List Extent
  | [] => []
  | s :: rest => s.extent :: Stmt.extents rest

end

def Parameter.extent (p : Parameter) : Extent :=
  ⟨⟨p.typeName.span.start, p.name.span.stop⟩, [p.typeName.extent, p.name.extent]⟩

def Block.extent (b : Block) : Extent := b.toStmt.extent

def Routine.extents (r : Routine) : List Extent :=
  r.name.extent :: (r.parameters.map Parameter.extent ++ r.body.toList.map Block.extent)

def MemberKind.extents : MemberKind → List Extent
  | .field declarators => declarators.map Declarator.extent
  | .method routine | .operator routine => routine.extents

def Member.extent (m : Member) : Extent := ⟨m.span, m.declaredType.extent :: m.kind.extents⟩

def ClassDef.extent (c : ClassDef) : Extent :=
  ⟨c.span, c.ident.extent :: (c.base.toList.map Ident.extent ++ c.members.map Member.extent)⟩

theorem Expr.extents_eq_map (es : List Expr) : Expr.extents es = es.map Expr.extent := by
  induction es with
  | nil => rfl
  | cons e es ih => rw [Expr.extents, ih, List.map_cons]

theorem Stmt.extents_eq_map (statements : List Stmt) :
    Stmt.extents statements = statements.map Stmt.extent := by
  induction statements with
  | nil => rfl
  | cons s rest ih => rw [Stmt.extents, ih, List.map_cons]

namespace Tree

def row (t : Tree) (index : Nat) : List Tree := t.children[index]?.toList.flatMap children

/-- The nodes right inside a node that are read as classes, members, names of declarations, blocks
and statements. -/
def constructs (t : Tree) : List Tree :=
  match t.rule with
  | .program => t.children
  | .classDefinition => t.row 7
  | .fieldDefinition => t.row 4
  | .methodDefinition => t.children[8]?.toList.filter (·.rule = .block)
  | .operatorDefinition => t.children[9]?.toList.filter (·.rule = .block)
  | .block | .declarationStatement => t.row 1
  | .whileStatement => t.children[4]?.toList
  | .doWhileStatement => t.children[1]?.toList
  | .ifStatement => t.children[4]?.toList ++ (t.row 5)[1]?.toList
  | .forStatement =>
    (t.row 2).head?.toList.filter (·.rule = .declarationStatement) ++ t.children[8]?.toList
  | _ => []

variable {t u : Tree}

theorem of_mem_row {index : Nat} (h : u ∈ t.row index) : ∃ v ∈ t.children, u ∈ v.children := by
  obtain ⟨v, hv, hu⟩ := List.mem_flatMap.mp h
  exact ⟨v, List.mem_of_getElem? (Option.mem_toList.mp hv), hu⟩

theorem row_eq {index : Nat} (hu : t.children[index]? = some u) : t.row index = u.children := by
  simp [row, hu]

theorem of_mem_constructs (h : u ∈ t.constructs) :
    u ∈ t.children ∨ ∃ v ∈ t.children, u ∈ v.children := by
  have hat {index : Nat} (h : u ∈ t.children[index]?.toList) :
      u ∈ t.children ∨ ∃ v ∈ t.children, u ∈ v.children :=
    .inl (List.mem_of_getElem? (Option.mem_toList.mp h))
  unfold constructs at h
  split at h
  case h_1 => exact .inl h
  case h_2 | h_3 | h_6 | h_7 => exact .inr (of_mem_row h)
  case h_4 | h_5 => exact hat (List.mem_of_mem_filter h)
  case h_8 | h_9 => exact hat h
  case h_10 =>
    obtain h | h := List.mem_append.mp h
    · exact hat h
    · exact .inr (of_mem_row (List.mem_of_getElem? (Option.mem_toList.mp h)))
  case h_11 =>
    obtain h | h := List.mem_append.mp h
    · have hhead := Option.mem_toList.mp (List.mem_of_mem_filter h)
      exact .inr (of_mem_row (List.mem_of_mem_head? hhead))
    · exact hat h
  case h_12 => exact absurd h List.not_mem_nil

theorem sizeOf_lt_of_mem_children (h : u ∈ t.children) : sizeOf u < sizeOf t := by
  obtain ⟨rule, token, children⟩ := t
  have hlt : sizeOf u < sizeOf children := List.sizeOf_lt_of_mem h
  simp only [Tree.mk.sizeOf_spec]
  omega

theorem sizeOf_lt_of_mem_constructs (h : u ∈ t.constructs) : sizeOf u < sizeOf t := by
  obtain h | ⟨v, hv, hu⟩ := of_mem_constructs h
  · exact sizeOf_lt_of_mem_children h
  · exact (sizeOf_lt_of_mem_children hu).trans (sizeOf_lt_of_mem_children hv)

def lowered (t : Tree) : List Tree :=
  t.constructs.attach.flatMap fun u => u.1 :: lowered u.1
termination_by sizeOf t
decreasing_by exact sizeOf_lt_of_mem_constructs u.2

theorem lowered_eq (t : Tree) : t.lowered = t.constructs.flatMap fun u => u :: u.lowered := by
  rw [lowered]
  simp

/-- The nodes that are read as these parts of a program hold tokens. -/
def Filled (t : Tree) : Prop := ∀ u ∈ t.lowered, u.locations ≠ []

theorem Filled.construct (h : t.Filled) (hu : u ∈ t.constructs) :
    u.locations ≠ [] ∧ u.Filled := by
  rw [Filled, lowered_eq] at h
  refine ⟨h u (List.mem_flatMap_of_mem hu List.mem_cons_self), fun v hv => ?_⟩
  exact h v (List.mem_flatMap_of_mem hu (List.mem_cons_of_mem u hv))

end Tree

open ClassLang.Tree

variable {t : Tree}

theorem Tree.gives_sameRule (t : Tree) (rule : Rule) :
    Gives (fun u => u = t ∧ u.rule = rule) (t.expect rule) := by
  unfold expect
  split
  case isTrue h => exact gives_ok ⟨rfl, h⟩
  case isFalse => exact gives_error _

theorem Ident.gives_span (t : Tree) :
    Gives (fun name : Ident => name.span = t.span ∧ t.locations ≠ []) (ofTree t) := by
  apply gives_bind (gives_sameRule t _)
  rintro _ ⟨rfl, -⟩
  exact gives_bind (gives_text _) fun text ht => gives_pure ⟨rfl, ht⟩

theorem Ident.gives_fit (hr : t.Regular) :
    Gives (fun name : Ident => Fit t.locations [name.extent]) (ofTree t) := by
  refine (gives_span t).imp fun name hname => ?_
  rw [extent, hname.1]
  exact fit_nil.node hr hname.2

namespace Expr

theorem gives_fit_literal (hr : t.Regular) (kind : LiteralKind) :
    Gives (fun e => Fit t.locations [e.extent]) (literalOfTree kind t) :=
  gives_bind (gives_text t) fun _ ht => gives_pure (fit_nil.node hr ht)

theorem gives_fit_ident (hr : t.Regular) :
    Gives (fun e : Expr => Fit t.locations [e.extent])
      (do return .ident (← Ident.ofTree t)) := by
  apply gives_bind (Ident.gives_span t)
  rintro name ⟨hspan, ht⟩
  refine gives_pure ?_
  rw [extent, Ident.extent, hspan]
  exact (fit_nil.node hr ht).node hr ht

theorem gives_fit (hr : t.Regular) : Gives (fun e => Fit t.locations [e.extent]) (ofTree t) := by
  induction t using Tree.induct_below with
  | node t ih below =>
    have hat (index : Nat) :
        Gives (fun e => FitAt t index [e.extent]) (t.require index (at? t.children index)) := by
      rw [at?_eq_map]
      refine gives_fitAt fun u hu => ?_
      have hm : u ∈ t.children := List.mem_of_getElem? hu
      exact ih u hm (hr.child hm)
    have harguments (index : Nat) : Gives (fun es => FitAt t index (extents es))
        (t.require index (argumentsAt? t.children index)) := by
      rw [argumentsAt?_eq_map]
      refine gives_fitAt fun u hu => ?_
      have hm : u ∈ t.children := List.mem_of_getElem? hu
      simp only [extents_eq_map]
      exact gives_fit_readRow (hr.child hm)
        (fun v hv => below u hm v hv ((hr.child hm).child hv)) .argumentList
    obtain ⟨rule, token, children⟩ := t
    cases rule with
    | identifier => exact gives_fit_ident hr
    | integerLiteral => exact gives_fit_literal hr .integer
    | realLiteral => exact gives_fit_literal hr .real
    | stringLiteral => exact gives_fit_literal hr .string
    | charLiteral => exact gives_fit_literal hr .char
    | booleanLiteral => exact gives_fit_literal hr .boolean
    | parenthesizedExpression =>
      -- The expression in parentheses keeps its own place, which ends before theirs does.
      refine (hat 1).imp ?_
      rintro e ⟨u, hu, he⟩
      exact he.mono (locations_subset (List.mem_of_getElem? hu))
    | memberAccess =>
      apply gives_bind (hat 0)
      intro target ht
      apply gives_fitAt_bind hr 2 fun _ => Ident.gives_fit
      intro name hn
      have hrow := fit_row hr [(0, [target.extent]), (2, [name.extent])] (by simp)
        (by simp [ht, hn])
      exact gives_pure (hrow.around hr (by simp))
    | methodCall =>
      apply gives_bind (hat 0)
      intro callee hc
      apply gives_bind (harguments 2)
      intro arguments ha
      have hrow := fit_row hr [(0, [callee.extent]), (2, extents arguments)] (by simp)
        (by simp [hc, ha])
      exact gives_pure (by simpa [extent] using hrow.around hr (by simp))
    | newExpression =>
      apply gives_fitAt_bind hr 1 fun _ => Ident.gives_fit
      intro className hc
      apply gives_bind (harguments 3)
      intro arguments ha
      have hrow := fit_row hr [(1, [className.extent]), (3, extents arguments)] (by simp)
        (by simp [hc, ha])
      exact gives_pure (by simpa [extent] using hrow.around hr (by simp))
    | unaryExpression =>
      apply gives_bind (gives_any _)
      intro u _
      apply gives_bind (gives_any _)
      intro operator _
      apply gives_bind (hat 1)
      intro operand ho
      have hrow := fit_row hr [(1, [operand.extent])] (by simp) (by simpa using ho)
      exact gives_pure (hrow.around hr (by simp))
    | binaryExpression | assignmentExpression =>
      apply gives_bind (hat 0)
      intro left hl
      apply gives_bind (gives_any _)
      intro u _
      apply gives_bind (gives_any _)
      intro operator _
      apply gives_bind (hat 2)
      intro right hright
      have hrow := fit_row hr [(0, [left.extent]), (2, [right.extent])] (by simp)
        (by simp [hl, hright])
      exact gives_pure (hrow.around hr (by simp))
    | _ => exact gives_error _

end Expr

theorem Declarator.gives_fit (hr : t.Regular) :
    Gives (fun d : Declarator => Fit t.locations [d.extent]) (ofTree t) := by
  apply gives_bind (gives_sameRule t _)
  rintro u ⟨rfl, -⟩
  have hlast (value : Option Expr) (hvalue : ∀ e ∈ value, FitAt u 2 [e.extent]) :
      Gives (fun d : Declarator => Fit u.locations [d.extent])
        (do return ⟨← Ident.ofTree (← u.child 0), value, u.span⟩) := by
    apply gives_fitAt_bind hr 0 fun _ => Ident.gives_fit
    intro name hname
    have hparts : Fit u.locations (name.extent :: value.toList.map Expr.extent) := by
      cases value with
      | none => exact fit_row hr [(0, [name.extent])] (by simp) (by simpa using hname)
      | some e =>
        exact fit_row hr [(0, [name.extent]), (2, [e.extent])] (by simp)
          (by simp [hname, hvalue e rfl])
    exact gives_pure (hparts.around hr (by simp))
  split
  · exact hlast none (by simp)
  · apply gives_fitAt_bind hr 2 fun _ => Expr.gives_fit
    intro e he
    exact hlast (some e) (by simpa using he)

theorem Declarator.gives_fit_list (hr : t.Regular) :
    Gives (fun ds => Fit t.locations (ds.map extent)) (listOfTree t) :=
  gives_fit_readRow hr (fun _ hu => gives_fit (hr.child hu)) .fieldAtomList

theorem Declaration.gives_fit (hr : t.Regular) :
    Gives (fun d : Declaration => Fit t.locations [d.extent]) (ofTree t) := by
  apply gives_bind (gives_sameRule t _)
  rintro u ⟨rfl, -⟩
  apply gives_fitAt_bind hr 0 fun _ => Ident.gives_fit
  intro typeName ht
  apply gives_fitAt_bind hr 1 fun _ => Declarator.gives_fit_list
  intro declarators hd
  have hrow := fit_row hr [(0, [typeName.extent]), (1, declarators.map Declarator.extent)]
    (by simp) (by simp [ht, hd])
  exact gives_pure (by simpa [extent] using hrow.around hr (by simp))

theorem ForInit.gives_fit (hr : t.Regular) :
    Gives (fun init : ForInit => Fit t.locations [init.extent]) (ofTree t) := by
  unfold ofTree
  split
  · exact gives_bind (Declaration.gives_fit hr) fun _ hd => gives_pure hd
  · exact gives_bind (Expr.gives_fit hr) fun _ he => gives_pure he

namespace Stmt

theorem gives_fitAt_list {index : Nat} (hr : t.Regular)
    (h : ∀ u, t.children[index]? = some u → ∀ v ∈ u.children,
      Gives (fun s : Stmt => Fit v.locations [s.extent]) (ofTree v)) :
    Gives (fun statements => FitAt t index (extents statements))
      (t.require index (listAt? t.children index)) := by
  rw [listAt?_eq_map]
  refine gives_fitAt fun u hu => ?_
  simp only [extents_eq_map]
  exact gives_fit_readRow (hr.child (List.mem_of_getElem? hu)) (h u hu) .statementList

theorem gives_fit (hr : t.Regular) (hf : t.Filled) (hn : t.locations ≠ []) :
    Gives (fun s : Stmt => Fit t.locations [s.extent]) (ofTree t) := by
  induction t using Tree.induct_below with
  | node t ih below =>
    have hat (index : Nat) (hc : ∀ u, t.children[index]? = some u → u ∈ t.constructs) :
        Gives (fun s : Stmt => FitAt t index [s.extent])
          (t.require index (at? t.children index)) := by
      rw [at?_eq_map]
      refine gives_fitAt fun u hu => ?_
      have hm : u ∈ t.children := List.mem_of_getElem? hu
      obtain ⟨hn, hf⟩ := hf.construct (hc u hu)
      exact ih u hm (hr.child hm) hf hn
    have hbelow {u v : Tree} (hu : u ∈ t.children) (hv : v ∈ u.children) (hc : v ∈ t.constructs) :
        Gives (fun s : Stmt => Fit v.locations [s.extent]) (ofTree v) := by
      obtain ⟨hn, hf⟩ := hf.construct hc
      exact below u hu v hv ((hr.child hu).child hv) hf hn
    have helse (index : Nat) (hc : ∀ v ∈ (t.row index)[1]?, v ∈ t.constructs) :
        Gives (fun found => FitAt t index (found.toList.map extent))
          (t.require index (elseAt? t.children index)) := by
      rw [elseAt?_eq_map]
      refine gives_fitAt fun u hu => gives_fit_readClause (fun v hv => ?_) .elseClause
      refine hbelow (List.mem_of_getElem? hu) (List.mem_of_getElem? hv) (hc v ?_)
      rwa [row_eq hu]
    have hlist (index : Nat) (hc : t.row index ⊆ t.constructs) :
        Gives (fun statements => FitAt t index (extents statements))
          (t.require index (listAt? t.children index)) := by
      refine gives_fitAt_list hr fun u hu v hv => ?_
      refine hbelow (List.mem_of_getElem? hu) hv (hc ?_)
      rwa [row_eq hu]
    obtain ⟨rule, token, children⟩ := t
    cases rule with
    | block =>
      apply gives_bind (hlist 1 (by simp [constructs]))
      intro statements hs
      have hrow := fit_row hr [(1, extents statements)] (by simp) (by simpa using hs)
      exact gives_pure (by simpa [extent] using hrow.node hr hn)
    | continueStatement | breakStatement => exact gives_pure (fit_nil.node hr hn)
    | returnStatement =>
      obtain _ | ⟨first, _ | ⟨value, _ | ⟨last, _ | ⟨next, rest⟩⟩⟩⟩ := children
      case cons.cons.cons.nil =>
        apply gives_bind (Expr.gives_fit (hr.child (u := value) (by simp)))
        intro e he
        exact gives_pure ((he.mono (locations_subset (by simp))).node hr hn)
      all_goals exact gives_pure (fit_nil.node hr hn)
    | declarationStatement =>
      exact gives_bind (Declaration.gives_fit hr) fun _ hd => gives_pure hd
    | whileStatement =>
      apply gives_fitAt_bind hr 2 fun _ => Expr.gives_fit
      intro condition hc
      apply gives_bind (hat 4 (by simp [constructs]))
      intro body hb
      have hrow := fit_row hr [(2, [condition.extent]), (4, [body.extent])] (by simp)
        (by simp [hc, hb])
      exact gives_pure (hrow.node hr hn)
    | doWhileStatement =>
      apply gives_bind (hat 1 (by simp [constructs]))
      intro body hb
      apply gives_fitAt_bind hr 4 fun _ => Expr.gives_fit
      intro condition hc
      have hrow := fit_row hr [(1, [body.extent]), (4, [condition.extent])] (by simp)
        (by simp [hb, hc])
      exact gives_pure (hrow.node hr hn)
    | ifStatement =>
      apply gives_bind (helse 5 (by simp +contextual [constructs]))
      intro otherwise ho
      apply gives_fitAt_bind hr 2 fun _ => Expr.gives_fit
      intro condition hc
      apply gives_bind (hat 4 (by simp +contextual [constructs]))
      intro thenBranch ht
      have hrow := fit_row hr [(2, [condition.extent]), (4, [thenBranch.extent]),
        (5, otherwise.toList.map extent)] (by simp) (by simp [hc, ht, ho])
      cases otherwise with
      | none => exact gives_pure (hrow.node hr hn)
      | some elseBranch => exact gives_pure (hrow.node hr hn)
    | forStatement =>
      apply gives_bind (gives_fitAt_optionalPart hr (fun _ hu => ForInit.gives_fit hu) 2 .forInit)
      intro init hi
      apply gives_bind (gives_fitAt_optionalPart hr (fun _ hu => Expr.gives_fit hu) 4 .forCondition)
      intro condition hc
      apply gives_bind (gives_fitAt_optionalPart hr (fun _ hu => Expr.gives_fit hu) 6 .forStep)
      intro step hs
      apply gives_bind (hat 8 (by simp +contextual [constructs]))
      intro body hb
      have hrow := fit_row hr [(2, init.toList.map ForInit.extent),
        (4, condition.toList.map Expr.extent), (6, step.toList.map Expr.extent),
        (8, [body.extent])] (by simp) (by simp [hi, hc, hs, hb])
      exact gives_pure (by simpa [extent] using hrow.node hr hn)
    | expressionStatement =>
      apply gives_fitAt_bind hr 0 fun _ => Expr.gives_fit
      intro e he
      have hrow := fit_row hr [(0, [e.extent])] (by simp) (by simpa using he)
      exact gives_pure (hrow.node hr hn)
    | _ => exact gives_error _

end Stmt

theorem Block.gives_fit (hr : t.Regular) (hf : t.Filled) (hn : t.locations ≠ []) :
    Gives (fun b : Block => Fit t.locations [b.extent]) (ofTree t) := by
  apply gives_bind (gives_sameRule t _)
  rintro u ⟨rfl, hrule⟩
  have hlist : Gives (fun statements => FitAt u 1 (Stmt.extents statements))
      (u.require 1 (Stmt.listAt? u.children 1)) := by
    refine Stmt.gives_fitAt_list hr fun v hv w hw => ?_
    have hc : w ∈ u.constructs := by
      simp only [constructs, hrule, row_eq hv]
      exact hw
    obtain ⟨hn, hf⟩ := hf.construct hc
    exact Stmt.gives_fit ((hr.child (List.mem_of_getElem? hv)).child hw) hf hn
  apply gives_bind hlist
  rintro statements ⟨v, hv, hs⟩
  exact gives_pure ((hs.mono (locations_subset (List.mem_of_getElem? hv))).node hr hn)

theorem Parameter.gives_fit (hr : t.Regular) :
    Gives (fun p : Parameter => Fit t.locations [p.extent]) (ofTree t) := by
  apply gives_bind (gives_sameRule t _)
  rintro u ⟨rfl, -⟩
  apply gives_fitAt_bind hr 0 fun _ => Ident.gives_fit
  intro typeName ht
  apply gives_fitAt_bind hr 1 fun _ => Ident.gives_fit
  intro name hn
  have hrow := fit_row hr [(0, [typeName.extent]), (1, [name.extent])] (by simp)
    (by simp [ht, hn])
  exact gives_pure hrow.between

theorem Parameter.gives_fit_list (hr : t.Regular) :
    Gives (fun ps => Fit t.locations (ps.map extent)) (listOfTree t) :=
  gives_fit_readRow hr (fun _ hu => gives_fit (hr.child hu)) .parameterList

theorem Block.gives_fitAt (hr : t.Regular) (hf : t.Filled) {index : Nat}
    (hc : t.children[index]?.toList.filter (·.rule = .block) ⊆ t.constructs) {u : Tree}
    (hu : t.children[index]? = some u) :
    Gives (fun body => FitAt t index (body.toList.map extent)) (ofTree? u) := by
  unfold ofTree?
  split
  case isTrue hrule =>
    have hm : u ∈ t.constructs := hc (by simp [hu, hrule])
    obtain ⟨hn, hf⟩ := hf.construct hm
    refine gives_bind (gives_fit (hr.child (List.mem_of_getElem? hu)) hf hn) fun b hb => ?_
    exact gives_pure ⟨u, hu, hb⟩
  case isFalse => exact gives_pure ⟨u, hu, fit_nil⟩

namespace MemberKind

def FitBehind (t : Tree) (kind : MemberKind) : Prop :=
  ∀ declaredType : Extent, FitAt t 3 [declaredType] →
    Fit t.locations (declaredType :: kind.extents)

theorem gives_fitBehind_routine (make : Routine → MemberKind) (hr : t.Regular) (hf : t.Filled)
    (hmake : ∀ r, (make r).extents = r.extents) {name : Ident} (nameAt parametersAt bodyAt : Nat)
    (hc : t.children[bodyAt]?.toList.filter (·.rule = .block) ⊆ t.constructs)
    (hplaces : [3, nameAt, parametersAt, bodyAt].Pairwise (· < ·))
    (hn : FitAt t nameAt [name.extent]) :
    Gives (FitBehind t) (do
      let parameters ← Parameter.listOfTree (← t.child parametersAt)
      return make ⟨name, parameters, ← Block.ofTree? (← t.child bodyAt)⟩) := by
  apply gives_fitAt_bind hr parametersAt fun _ => Parameter.gives_fit_list
  intro parameters hp
  apply gives_bind (gives_regularChild hr bodyAt)
  rintro v ⟨hv, -⟩
  apply gives_bind (Block.gives_fitAt hr hf hc hv)
  intro body hb
  refine gives_pure fun declaredType ht => ?_
  have hrow := fit_row hr [(3, [declaredType]), (nameAt, [name.extent]),
    (parametersAt, parameters.map Parameter.extent), (bodyAt, body.toList.map Block.extent)]
    (List.pairwise_map.mp hplaces) (by simp [ht, hn, hp, hb])
  simpa [hmake, Routine.extents] using hrow

theorem gives_fitBehind (hr : t.Regular) (hf : t.Filled) : Gives (FitBehind t) (ofTree t) := by
  unfold ofTree
  split
  case h_1 =>
    apply gives_fitAt_bind hr 4 fun _ => Declarator.gives_fit_list
    intro declarators hd
    refine gives_pure fun declaredType ht => ?_
    have hrow := fit_row hr [(3, [declaredType]), (4, declarators.map Declarator.extent)]
      (by simp) (by simp [ht, hd])
    simpa [extents] using hrow
  case h_2 hrule =>
    apply gives_fitAt_bind hr 4 fun _ => Ident.gives_fit
    intro name hn
    exact gives_fitBehind_routine .method hr hf (fun _ => rfl) 4 6 8 (by simp [constructs, hrule])
      (by decide) hn
  case h_3 hrule =>
    apply gives_bind (gives_regularChild hr 5)
    rintro u ⟨hu, hru⟩
    apply gives_bind (gives_text u)
    intro symbol hn
    exact gives_fitBehind_routine .operator hr hf (fun _ => rfl) 5 7 9 (by simp [constructs, hrule])
      (by decide) ⟨u, hu, fit_nil.node hru hn⟩
  case h_4 => exact gives_error _

end MemberKind

theorem Member.gives_fit (hr : t.Regular) (hf : t.Filled) (owner : String) :
    Gives (fun m : Member => Fit t.locations [m.extent]) (ofTree owner t) := by
  apply gives_bind (gives_any _)
  intro accessor _
  apply gives_bind (gives_any _)
  intro visibility _
  apply gives_bind (gives_any _)
  intro word _
  apply gives_bind (gives_any _)
  intro modifier _
  apply gives_bind (gives_any _)
  intro isStatic _
  apply gives_fitAt_bind hr 3 fun _ => Ident.gives_fit
  intro declaredType ht
  apply gives_bind (MemberKind.gives_fitBehind hr hf)
  intro kind hk
  exact gives_pure ((hk declaredType.extent ht).around hr (by simp))

theorem ClassDef.gives_fit_base (hr : t.Regular) :
    Gives (fun base => Fit t.locations (base.toList.map Ident.extent)) (baseOfTree t) := by
  unfold baseOfTree
  split
  · exact gives_pure fit_nil
  · apply gives_fitAt_bind hr 1 fun _ => Ident.gives_fit
    intro name hn
    exact gives_pure (fit_row hr [(1, [name.extent])] (by simp) (by simpa using hn))

theorem ClassDef.gives_fit (hr : t.Regular) (hf : t.Filled) :
    Gives (fun c : ClassDef => Fit t.locations [c.extent]) (ofTree t) := by
  apply gives_bind (gives_sameRule t _)
  rintro u ⟨rfl, hrule⟩
  apply gives_bind (gives_any _)
  intro word _
  apply gives_bind (gives_any _)
  intro modifier _
  apply gives_bind (gives_any _)
  intro isPrimitive _
  apply gives_bind (gives_any _)
  intro isBackend _
  apply gives_bind (gives_any _)
  intro v _
  apply gives_bind (gives_any _)
  intro text _
  apply gives_bind (gives_any _)
  intro label _
  apply gives_fitAt_bind hr 4 fun _ => Ident.gives_fit
  intro ident hi
  apply gives_bind (gives_regularPart hr 5 _)
  rintro w ⟨hw, hrw⟩
  apply gives_bind (gives_fit_base hrw)
  intro base hb
  apply gives_bind (gives_regularPart hr 7 _)
  rintro row ⟨hrow, hrr⟩
  have hmembers : Gives (fun members => Fit row.locations (members.map Member.extent))
      (row.children.mapM (Member.ofTree ident.text)) := by
    refine gives_fit_mapM hrr fun m hm => ?_
    have hc : m ∈ u.constructs := by
      simp only [constructs, hrule, row_eq hrow]
      exact hm
    exact Member.gives_fit (hrr.child hm) (hf.construct hc).2 ident.text
  apply gives_bind hmembers
  intro members hm
  have hbase : FitAt u 5 (base.toList.map Ident.extent) := ⟨w, hw, hb⟩
  have hlist : FitAt u 7 (members.map Member.extent) := ⟨row, hrow, hm⟩
  have hparts := fit_row hr [(4, [ident.extent]), (5, base.toList.map Ident.extent),
    (7, members.map Member.extent)] (by simp) (by simp [hi, hbase, hlist])
  exact gives_pure (by simpa [extent] using hparts.around hr (by simp))

theorem Program.gives_fit (hr : t.Regular) (hf : t.Filled) :
    Gives (fun p : Program => Fit t.locations (p.classes.map ClassDef.extent)) (ofTree t) := by
  apply gives_bind (gives_sameRule t _)
  rintro u ⟨rfl, hrule⟩
  have hclasses : Gives (fun classes => Fit u.locations (classes.map ClassDef.extent))
      (u.children.mapM ClassDef.ofTree) := by
    refine gives_fit_mapM hr fun c hc => ?_
    have hm : c ∈ u.constructs := by
      simp only [constructs, hrule]
      exact hc
    exact ClassDef.gives_fit (hr.child hc) (hf.construct hm).2
  exact gives_bind hclasses fun _ hc => gives_pure hc

/-- In what is read from a tree whose tokens stand at the leaves, in order, no place ends before it
begins, each part lies inside the one around it, and the parts right inside another one, such as the
items of a list, come one after the other. The classes come one after the other too. -/
theorem Program.extents_nested {p : Program} (h : Program.ofTree t = .ok p)
    (hleaves : t.TokensAtLeaves) (hordered : t.Ordered) (hfilled : t.Filled) :
    (∀ c ∈ p.classes, c.extent.Nested) ∧
      (p.classes.map ClassDef.extent).Pairwise fun a b => a.span.Precedes b.span := by
  have hfit : Fit t.locations (p.classes.map ClassDef.extent) :=
    (gives_fit ⟨hleaves, hordered⟩ hfilled).of_ok p h
  exact ⟨fun c hc => hfit.nested _ (List.mem_map_of_mem hc), hfit.apart⟩

namespace Tree

def word (rule : Rule) (text : String) (position : UInt32) : Tree :=
  .leaf rule text ⟨0, position, position⟩

/-- The tree of `int size = 1;`, from the sixth word on. -/
def sizeField : Tree :=
  .node .fieldDefinition [.node .accessor [], .node .memberModifier [], .node .staticMarker [],
    word .identifier "int" 5,
    .node .fieldAtomList [.node .fieldAtom
      [word .identifier "size" 6, word .operator "=" 7, word .integerLiteral "1" 8]],
    word .punctuation ";" 9]

/-- The tree of `if (by) return (size); else {}`, from the eighteenth word on. -/
def growBranch : Tree :=
  .node .ifStatement [word .keyword "if" 17, word .punctuation "(" 18, word .identifier "by" 19,
    word .punctuation ")" 20,
    .node .returnStatement [word .keyword "return" 21,
      .node .parenthesizedExpression
        [word .punctuation "(" 22, word .identifier "size" 23, word .punctuation ")" 24],
      word .punctuation ";" 25],
    .node .elseClause [word .keyword "else" 26,
      .node .block
        [word .punctuation "\x7b" 27, .node .statementList [], word .punctuation "\x7d" 28]]]

/-- The tree of a method `int grow(int by)` around that branch. -/
def growMethod : Tree :=
  .node .methodDefinition [.node .accessor [], .node .memberModifier [], .node .staticMarker [],
    word .identifier "int" 10, word .identifier "grow" 11, word .punctuation "(" 12,
    .node .parameterList
      [.node .parameter [word .identifier "int" 13, word .identifier "by" 14]],
    word .punctuation ")" 15,
    .node .block [word .punctuation "\x7b" 16, .node .statementList [growBranch],
      word .punctuation "\x7d" 29]]

/-- The tree of `class Box : Root` with that field and that method. -/
def boxClass : Tree :=
  .node .program [.node .classDefinition [.node .classModifier [], .node .primitiveMarker [],
    .node .backendMarker [], word .keyword "class" 0, word .identifier "Box" 1,
    .node .baseClause [word .punctuation ":" 2, word .identifier "Root" 3],
    word .punctuation "\x7b" 4, .node .memberList [sizeField, growMethod],
    word .punctuation "\x7d" 30]]

end Tree

/-- The class spans all words, its members the words from the sixth to the tenth and from the
eleventh to the thirtieth. -/
theorem Program.extents_nested_in_boxClass :
    let words (first last : UInt32) : Span := ⟨⟨0, first, first⟩, ⟨0, last, last⟩⟩
    ∃ p, Program.ofTree boxClass = .ok p ∧ boxClass.TokensAtLeaves ∧ boxClass.Ordered ∧
      boxClass.Filled ∧
      p.classes.map (fun c => (c.name, c.span, c.members.map fun m => (m.name, m.span))) =
        [("Box", words 0 30, [("size", words 5 9), ("grow", words 10 29)])] ∧
      (∀ c ∈ p.classes, c.extent.Nested) ∧
      (p.classes.map ClassDef.extent).Pairwise fun a b => a.span.Precedes b.span := by
  intro words
  have hleaves : boxClass.TokensAtLeaves := by
    unfold TokensAtLeaves
    decide +kernel
  have hordered : boxClass.Ordered := by
    unfold Ordered
    decide +kernel
  have hfilled : boxClass.Filled := by
    unfold Filled
    decide +kernel
  exact ⟨_, rfl, hleaves, hordered, hfilled, by decide +kernel,
    extents_nested rfl hleaves hordered hfilled⟩

end ClassLang
