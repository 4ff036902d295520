import ClassLang.Program.Reading.Class
import ClassLang.Run.Class

namespace ClassLang

/-- Make a check. What it finds wrong is filed under the current file. -/
def Context.run {α : Type} (ctx : Context) (c : Check α) : α × Context :=
  let outcome := c ctx.classes
  let found := outcome.findings.map (fun f => f.inFile ctx.file)
  (outcome.result, ⟨ctx.file, ctx.diagnostics ++ found, outcome.table⟩)

structure Analysis where
  program : Program
  classes : ClassTable
  diagnostics : List Diagnostic

def Analysis.succeeded (a : Analysis) : Bool := a.diagnostics.isEmpty

variable [Alphabet]

def Program.analyze (p : Program) (file : String) : Analysis :=
  let (_, ctx) := p.examine { file }
  ⟨p, ctx.classes, ctx.diagnostics⟩

def analyze (t : Tree) (file : String) : Except Malformed Analysis := do
  return (← Program.ofTree t).analyze file

end ClassLang
