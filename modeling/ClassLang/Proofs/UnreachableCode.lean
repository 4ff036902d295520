import ClassLang.Analysis
import ClassLang.Proofs.BlindClass
import ClassLang.Proofs.OrderIndependence
import ClassLang.Proofs.Visits
import ClassLang.Types.WordChar

namespace ClassLang

/-- The statements differ in one block only, at any depth, and there only after the first statement
that always returns. -/
inductive Stmt.Twin : Stmt → Stmt → Prop
  | unreached {live rest others : List Stmt} {last next other : Stmt} {span : Span}
      (reached : ∀ u ∈ live, u.alwaysReturns = false) (returns : last.alwaysReturns = true)
      (place : other.span = next.span) :
      Twin (.block (live ++ last :: next :: rest) span)
        (.block (live ++ last :: other :: others) span)
  | inBlock {before after : List Stmt} {s t : Stmt} {span : Span} (inner : Twin s t) :
      Twin (.block (before ++ s :: after) span) (.block (before ++ t :: after) span)
  | whileBody {condition : Expr} {s t : Stmt} {span : Span} (inner : Twin s t) :
      Twin (.whileLoop condition s span) (.whileLoop condition t span)
  | doBody {condition : Expr} {s t : Stmt} {span : Span} (inner : Twin s t) :
      Twin (.doLoop s condition span) (.doLoop t condition span)
  | ifThen {condition : Expr} {s t : Stmt} {span : Span} (inner : Twin s t) :
      Twin (.ifThen condition s span) (.ifThen condition t span)
  | choiceThen {condition : Expr} {s t elseBranch : Stmt} {span : Span} (inner : Twin s t) :
      Twin (.ifElse condition s elseBranch span) (.ifElse condition t elseBranch span)
  | choiceElse {condition : Expr} {thenBranch s t : Stmt} {span : Span} (inner : Twin s t) :
      Twin (.ifElse condition thenBranch s span) (.ifElse condition thenBranch t span)
  | forBody {init : Option ForInit} {condition step : Option Expr} {s t : Stmt} {span : Span}
      (inner : Twin s t) :
      Twin (.forLoop init condition step s span) (.forLoop init condition step t span)

inductive Member.Twin : Member → Member → Prop
  | method {m : Member} {name : Ident} {parameters : List Parameter} {b d : Block}
      (body : b.toStmt.Twin d.toStmt) :
      Twin { m with kind := .method ⟨name, parameters, some b⟩ }
        { m with kind := .method ⟨name, parameters, some d⟩ }
  | operator {m : Member} {name : Ident} {parameters : List Parameter} {b d : Block}
      (body : b.toStmt.Twin d.toStmt) :
      Twin { m with kind := .operator ⟨name, parameters, some b⟩ }
        { m with kind := .operator ⟨name, parameters, some d⟩ }

inductive Program.Twin : Program → Program → Prop
  | member {m n : Member} (inner : m.Twin n) (classes others : List ClassDef) (c : ClassDef)
      (before after : List Member) :
      Twin ⟨classes ++ { c with members := before ++ m :: after } :: others⟩
        ⟨classes ++ { c with members := before ++ n :: after } :: others⟩

namespace Stmt

variable {live rest : List Stmt} {last next : Stmt}

theorem revisedAll_unreached (reached : ∀ u ∈ live, u.alwaysReturns = false)
    (returns : last.alwaysReturns = true) :
    revisedAll .cut (live ++ last :: next :: rest) =
      live.map (revised .cut) ++ [last.revised .cut, .breakLoop next.span] := by
  induction live with
  | nil =>
    rw [List.nil_append, revisedAll, returns]
    rfl
  | cons u live ih =>
    obtain ⟨hu, hlive⟩ := List.forall_mem_cons.mp reached
    rw [List.cons_append, revisedAll_of_not_returns hu, ih hlive]
    rfl

theorem revisedAll_congr {s t : Stmt} (h : t.revised .cut = s.revised .cut)
    (before after : List Stmt) :
    revisedAll .cut (before ++ t :: after) = revisedAll .cut (before ++ s :: after) := by
  have hreturns : t.alwaysReturns = s.alwaysReturns := by
    have ht : (t.revised .cut).alwaysReturns = t.alwaysReturns := t.alwaysReturns_revised
    rw [← ht, h, s.alwaysReturns_revised]
  have hspan : t.span = s.span := by
    have ht : (t.revised .cut).span = t.span := t.span_revised
    rw [← ht, h]
    exact s.span_revised
  induction before with
  | nil => rw [List.nil_append, List.nil_append, revisedAll, revisedAll, h, hreturns]
  | cons b before ih =>
    rw [List.cons_append, List.cons_append, revisedAll, revisedAll, ih]
    -- only the place of the first statement is left, be it one of the two or not
    cases before with
    | nil => simp [remnant, hspan]
    | cons next before => rfl

theorem Twin.revised {s t : Stmt} (h : s.Twin t) : t.revised .cut = s.revised .cut := by
  induction h with
  | unreached reached returns place =>
    rw [Stmt.revised, Stmt.revised, revisedAll_unreached reached returns,
      revisedAll_unreached reached returns, place]
  | @inBlock before after s t span inner ih =>
    rw [Stmt.revised, Stmt.revised, revisedAll_congr ih before after]
  | whileBody inner ih | doBody inner ih | ifThen inner ih | choiceThen inner ih
  | choiceElse inner ih | forBody inner ih => rw [Stmt.revised, Stmt.revised, ih]

end Stmt

theorem Block.revised_of_twin {b d : Block} (h : b.toStmt.Twin d.toStmt) :
    d.revised .cut = b.revised .cut := by
  obtain ⟨hstatements, hspan⟩ := Stmt.block.inj h.revised
  rw [revised, revised, hstatements, hspan]

theorem Member.Twin.revised {m n : Member} (h : m.Twin n) : n.revised .cut = m.revised .cut := by
  cases h with
  | method body | operator body =>
    simp only [Member.revised, MemberKind.revised, Routine.revised, Option.map_some,
      Block.revised_of_twin body]

theorem Program.Twin.revised {p q : Program} (h : p.Twin q) :
    q.revised .cut = p.revised .cut := by
  obtain ⟨inner⟩ := h
  simp only [Program.revised, ClassDef.revised, List.map_append, List.map_cons, inner.revised]

variable [Alphabet]

namespace Program

variable (p : Program)

theorem blind_check_cut : (p.check .empty).Blind .cut ((p.revised .cut).check .empty) :=
  p.blind_check .empty

theorem findings_cut : ((p.revised .cut).check .empty).findings = (p.check .empty).findings := by
  rw [p.blind_check_cut.findings]
  exact List.map_id _

theorem names_cut : ((p.revised .cut).check .empty).table.names = (p.check .empty).table.names := by
  rw [p.blind_check_cut.table, ClassTable.names_revised]

end Program

omit [Alphabet] in
theorem Scoped.or_fail (failed : Bool) (problem : Problem) (span : Span) :
    Bool.or failed <$> (liftM (Check.fail problem span) : Scoped Bool) =
      liftM (Check.fail problem span) := by
  cases failed <;> rfl

namespace Stmt

variable {live : List Stmt} {last : Stmt}

theorem checkAll_unreached (reached : ∀ u ∈ live, u.alwaysReturns = false)
    (returns : last.alwaysReturns = true) (next : Stmt) (rest : List Stmt) :
    checkAll (live ++ last :: next :: rest) = (do
      let _ ← anyFails check (live ++ [last])
      Check.fail .unreachableCode next.span) := by
  induction live with
  | nil =>
    rw [List.nil_append, checkAll_of_returns returns]
    simp [anyFails]
  | cons u live ih =>
    obtain ⟨hu, hlive⟩ := List.forall_mem_cons.mp reached
    rw [List.cons_append, checkAll_of_not_returns hu, ih hlive]
    simp [anyFails, Scoped.or_fail]

/-- Nothing is made of a block but the checks of what can be reached, and one more finding. -/
theorem check_unreached (reached : ∀ u ∈ live, u.alwaysReturns = false)
    (returns : last.alwaysReturns = true) (next : Stmt) (rest : List Stmt) (span : Span)
    (s : Site) :
    let checks := anyFails check (live ++ [last])
    let inner := s.push .block .code
    let b := block (live ++ last :: next :: rest) span
    s.answer b.check = true ∧
      s.findings b.check = inner.findings checks ++ [⟨.unreachableCode, next.span⟩] ∧
      (s.after b.check).scopes = (inner.after checks).scopes.pop ∧
      (s.after b.check).table = (inner.after checks).table := by
  intro checks inner b
  have hb : b.check = Scoped.within .block .code (do
      let _ ← checks
      Check.fail .unreachableCode next.span) := by
    rw [← checkAll_unreached reached returns next rest, Stmt.check]
  rw [hb]
  refine ⟨rfl, ?_, rfl, rfl⟩
  rw [s.findings_within]
  rfl

end Stmt

/-- Programs that differ only inside one block, after its first statement that always returns, fail
or pass alike, with the same diagnostics, and leave the same classes behind. The statements of such
a block are checked in order up to that one, then the next is reported, and that is all. -/
theorem unreachable_code_immaterial :
    (∀ (p q : Program) (file : String), p.Twin q →
      (Context.run { file } q.check).1 = (Context.run { file } p.check).1 ∧
      (Context.run { file } q.check).2.diagnostics = (Context.run { file } p.check).2.diagnostics ∧
      (Context.run { file } q.check).2.classes.names =
        (Context.run { file } p.check).2.classes.names) ∧
    ∀ (live rest : List Stmt) (last next : Stmt) (span : Span) (s : Site),
      (∀ u ∈ live, u.alwaysReturns = false) → last.alwaysReturns = true →
      let checks := anyFails Stmt.check (live ++ [last])
      let inner := s.push .block .code
      let b : Block := ⟨live ++ last :: next :: rest, span⟩
      s.answer b.check = true ∧
        s.findings b.check = inner.findings checks ++ [⟨.unreachableCode, next.span⟩] ∧
        (s.after b.check).scopes = (inner.after checks).scopes.pop ∧
        (s.after b.check).table = (inner.after checks).table := by
  constructor
  · intro p q file h
    have hp (p : Program) : (Context.run { file } p.check).1 =
        ((p.revised .cut).check .empty).result := p.blind_check_cut.result.symm
    have hnames (p : Program) : (Context.run { file } p.check).2.classes.names =
        ((p.revised .cut).check .empty).table.names := p.names_cut.symm
    refine ⟨?_, ?_, ?_⟩
    · rw [hp, hp, h.revised]
    · rw [q.diagnostics_run, p.diagnostics_run, ← q.findings_cut, ← p.findings_cut, h.revised]
    · rw [hnames, hnames, h.revised]
  · intro live rest last next span s reached returns
    exact Stmt.check_unreached reached returns next rest span s

end ClassLang

namespace ClassLang

attribute [local instance] Alphabet.unicode

section Example

def Stmt.back : Stmt := .ret (some (.ident (.provided "number"))) .nowhere

def Member.early (unreached : List Stmt) : Member :=
  let number : Expr := .ident (.provided "number")
  let choice : Stmt :=
    .ifThen (.binary number "<" number .nowhere) (.block (.back :: unreached) .nowhere) .nowhere
  { Member.provided "Early" "Get" "int" [] with
    kind := .method ⟨.provided "Get", [.provided "int" "number"],
      some ⟨[choice, .back], .nowhere⟩⟩ }

theorem Member.twin_early {next other : Stmt} (place : other.span = next.span)
    (rest others : List Stmt) :
    (Member.early (next :: rest)).Twin (Member.early (other :: others)) := by
  have hblock : (Stmt.block ([] ++ .back :: next :: rest) .nowhere).Twin
      (.block ([] ++ .back :: other :: others) .nowhere) := .unreached (by simp) rfl place
  have hbody (condition : Expr) :
      (Block.mk ([] ++ .ifThen condition (.block (.back :: next :: rest) .nowhere) .nowhere ::
        [.back]) .nowhere).toStmt.Twin
      (Block.mk ([] ++ .ifThen condition (.block (.back :: other :: others) .nowhere) .nowhere ::
        [.back]) .nowhere).toStmt := .inBlock (.ifThen hblock)
  exact .method (hbody _)

/-- In the second program what can not be reached would be wrong in more than one way, and would
bring in a class of lists. -/
theorem unreachable_code_immaterial_in_early :
    let numbers : Stmt := .declaration ⟨.provided "int_list", [], .nowhere⟩
    let ghost : Stmt := .declaration ⟨.provided "Ghost", [], .nowhere⟩
    let p : Program := ⟨[Program.simpleClass "Early" none [.early [.back]]]⟩
    let q : Program :=
      ⟨[Program.simpleClass "Early" none [.early [numbers, ghost, .continueLoop .nowhere]]]⟩
    p.Twin q ∧
      (Context.run { file := "Main.lang" } p.check).2.diagnostics.map (fun d => d.problem) =
        [.unreachableCode] ∧
      (Context.run { file := "Main.lang" } q.check).2.diagnostics =
        (Context.run { file := "Main.lang" } p.check).2.diagnostics ∧
      (Context.run { file := "Main.lang" } q.check).2.classes.names = ["Early"] ∧
      Site.findings ⟨[], q.registered⟩ (Block.mk [.back, numbers, ghost] .nowhere).check =
        [⟨.returnOutsideFunction, .nowhere⟩, ⟨.unreachableCode, .nowhere⟩] := by
  intro numbers ghost p q
  have hplace : numbers.span = Stmt.back.span := rfl
  have htwin : p.Twin q :=
    .member (Member.twin_early hplace _ _) [] [] (Program.simpleClass "Early" none []) [] []
  obtain ⟨-, hdiagnostics, hnames⟩ := unreachable_code_immaterial.1 p q "Main.lang" htwin
  obtain ⟨-, hfindings, -⟩ := unreachable_code_immaterial.2 [] [ghost] .back numbers .nowhere
    ⟨[], q.registered⟩ (by simp) rfl
  exact ⟨htwin, by decide +kernel, hdiagnostics, hnames.trans (by decide +kernel), hfindings⟩

end Example

end ClassLang
