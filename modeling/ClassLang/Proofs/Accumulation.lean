import ClassLang.Proofs.ClassFactoring
import ClassLang.Proofs.Parts
import ClassLang.Proofs.Resolution
import ClassLang.Proofs.Verdict
import ClassLang.Types.WordChar

namespace ClassLang

namespace Context

variable {α β : Type}

theorem run_bind (ctx : Context) (c : Check α) (f : α → Check β) :
    ctx.run (c >>= f) = (ctx.run c).2.run (f (ctx.run c).1) := by
  simp [run]

end Context

/-- What the run does in two contexts can not be told apart but by what each context held before and
by its file. -/
structure Run.Accumulates {α : Type} (r : Run α) (ctx other : Context) : Prop where
  result : (r other).1 = (r ctx).1
  classes : (r other).2.classes = (r ctx).2.classes
  file : (r ctx).2.file = ctx.file ∧ (r other).2.file = other.file
  diagnostics : ∃ found : List Finding,
    (r ctx).2.diagnostics = ctx.diagnostics ++ found.map (fun f => f.inFile ctx.file) ∧
    (r other).2.diagnostics = other.diagnostics ++ found.map (fun f => f.inFile other.file)

theorem Check.accumulates_toRun {α : Type} {ctx other : Context} (h : other.classes = ctx.classes)
    (c : Check α) : c.toRun.Accumulates ctx other := by
  have hsame : c other.classes = c ctx.classes := by rw [h]
  refine ⟨?_, ?_, ⟨rfl, rfl⟩, (c ctx.classes).findings, rfl, ?_⟩
  · exact congrArg Outcome.result hsame
  · exact congrArg Outcome.table hsame
  · exact congrArg (fun o => other.diagnostics ++ o.findings.map fun f => f.inFile other.file) hsame

variable [Alphabet]

theorem ClassTable.Grows.prefix_classes {table grown : ClassTable} (h : table.Grows grown) :
    table.classes <+: grown.classes := by
  obtain ⟨elements, hl⟩ := h.listsFollow
  exact ⟨_, hl.classes.symm⟩

namespace Part

def examine : (part : Part) → ScopedRun part.Answer
  | .classDef c => c.examine
  | .member c m => m.examine c
  | .block b => b.examine
  | .statement s => s.examine
  | .initializer declared e => do e.examineInitializer (← get) declared
  | .expression e => do e.examine (← get)

theorem toRun_check (part : Part) : part.check.toRun = part.examine := by
  cases part with
  | classDef c => exact c.toRun_check
  | member c m => exact m.toRun_check c
  | block b => exact b.toRun_check
  | statement s => exact s.toRun_check
  | initializer declared e =>
    have hreading := Scoped.toRun_reading fun scopes => e.checkInitializer scopes declared
    simp only [Expr.toRun_checkInitializer] at hreading
    exact hreading
  | expression e =>
    have hreading := Scoped.toRun_reading fun scopes => e.denote scopes
    simp only [Expr.toRun_denote] at hreading
    exact hreading

theorem grows_check (part : Part) (scopes : ScopeStack) (table : ClassTable) :
    table.Grows (part.check scopes table).table := by
  cases part with
  | classDef c => exact (c.honest_check.check scopes table).grows
  | member c m => exact ((m.honest_check c).check scopes table).grows
  | block b => exact (b.toStmt.honest_check.check scopes table).grows
  | statement s => exact (s.honest_check.check scopes table).grows
  | initializer declared e => exact (@e.honest_checkInitializer _ none scopes declared table).grows
  | expression e => exact (@e.honest_denote _ none scopes table).grows

end Part

namespace Program

theorem grows_check (p : Program) (table : ClassTable) :
    (table.registerAll p.classes).Grows (p.check table).table :=
  (p.honest_checkClasses (table.registerAll p.classes)).grows

theorem run_checkClasses (ctx : Context) (p : Program) :
    (ctx.run p.checkClasses).2 =
      p.classes.foldl (fun ctx c => (ctx.run (c.check [])).2) ctx := by
  unfold checkClasses
  generalize p.classes = classes
  induction classes generalizing ctx with
  | nil => simp [Context.run, anyFails]
  | cons c classes ih =>
    rw [anyFails, Context.run_bind, Context.run_bind, List.foldl_cons, ClassDef.checkAlone,
      Context.run_bind, ← ih]
    simp [Context.run]

theorem context_examine (p : Program) (ctx : Context) :
    (p.examine ctx).2 = p.classes.foldl (fun ctx c => (c.examine [] ctx).2)
      { ctx with classes := ctx.classes.registerAll p.classes } := by
  rw [← p.toRun_check]
  simp only [← ClassDef.toRun_check]
  exact run_checkClasses { ctx with classes := ctx.classes.registerAll p.classes } p

end Program

namespace Context

/-- No part of a check reads the diagnostics or the file of its context, though both are at hand:
two runs on the same classes give the same result, scopes and classes, and find the same. They only
add to what is there, be it diagnostics or classes, except that a program registers its own classes
first. -/
theorem checks_accumulate {ctx other : Context} (h : other.classes = ctx.classes) :
    (∀ (part : Part) (scopes : ScopeStack),
      Run.Accumulates (part.examine scopes) ctx other ∧
        ctx.classes.classes <+: (part.examine scopes ctx).2.classes.classes) ∧
    ∀ p : Program,
      p.examine.Accumulates ctx other ∧
        (ctx.classes.registerAll p.classes).classes <+: (p.examine ctx).2.classes.classes ∧
        (p.examine ctx).2 = p.classes.foldl (fun ctx c => (c.examine [] ctx).2)
          { ctx with classes := ctx.classes.registerAll p.classes } := by
  refine ⟨fun part scopes => ?_, fun p => ⟨?_, ?_, p.context_examine ctx⟩⟩
  · rw [← part.toRun_check]
    exact ⟨(part.check scopes).accumulates_toRun h,
      (part.grows_check scopes ctx.classes).prefix_classes⟩
  · rw [← p.toRun_check]
    exact p.check.accumulates_toRun h
  · rw [← p.toRun_check]
    exact (p.grows_check ctx.classes).prefix_classes

end Context

end ClassLang

namespace ClassLang

attribute [local instance] Alphabet.unicode

namespace Context

/-- A list that is filled with a name nobody declared, and a `break` outside of all loops. -/
def strayBlock : Stmt :=
  let missing : Expr := .ident (.provided "missing")
  .block
    [.declaration ⟨.provided "int_list", [⟨.provided "rows", some missing, .nowhere⟩], .nowhere⟩,
      .breakLoop .nowhere] .nowhere

/-- Both problems are found in both contexts, after what was found before, and the class of the list
comes behind the others. -/
theorem checks_accumulate_in_strayBlock :
    let table := ClassTable.empty.register (.listOf (.primitive .bool))
    let ctx : Context := { file := "first", classes := table }
    let stale : Diagnostic := Finding.inFile ⟨.returnOutsideFunction, .nowhere⟩ "older"
    let other : Context := { file := "second", diagnostics := [stale], classes := table }
    let part : Part := .statement strayBlock
    let found : List Finding := [⟨.identifierNotFound "missing", .nowhere⟩,
      ⟨.statementMustAppearInLoop "break", .nowhere⟩]
    other.classes = ctx.classes ∧ Run.Accumulates (part.examine []) ctx other ∧
      (part.examine [] ctx).2.diagnostics = found.map (fun f => f.inFile "first") ∧
      (part.examine [] other).2.diagnostics = stale :: found.map (fun f => f.inFile "second") ∧
      (part.examine [] ctx).2.classes.names = ["bool_list", "int_list"] := by
  intro table ctx stale other part found
  have hsame : other.classes = ctx.classes := rfl
  refine ⟨hsame, ((checks_accumulate hsame).1 part []).1, ?_, ?_, ?_⟩
  · decide +kernel
  · decide +kernel
  · decide +kernel

end Context

end ClassLang
