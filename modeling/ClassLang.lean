import ClassLang.Analysis
import ClassLang.Check.Basic
import ClassLang.ClassTable.Ancestry
import ClassLang.ClassTable.Basic
import ClassLang.ClassTable.ListClass
import ClassLang.ClassTable.Resolve
import ClassLang.Diagnostic
import ClassLang.Grammar.Rule
import ClassLang.Outline
import ClassLang.Program.Class
import ClassLang.Program.Expr
import ClassLang.Program.Member
import ClassLang.Program.Reading.Class
import ClassLang.Program.Reading.Expr
import ClassLang.Program.Reading.Stmt
import ClassLang.Program.Stmt
import ClassLang.Proofs.Accumulation
import ClassLang.Proofs.Agreement
import ClassLang.Proofs.Assignability
import ClassLang.Proofs.Bare
import ClassLang.Proofs.BareReading
import ClassLang.Proofs.BaseWalks
import ClassLang.Proofs.BlindClass
import ClassLang.Proofs.BlindExpr
import ClassLang.Proofs.Blindness
import ClassLang.Proofs.Chains
import ClassLang.Proofs.ClassAgreement
import ClassLang.Proofs.ClassHonesty
import ClassLang.Proofs.ClassScope
import ClassLang.Proofs.CleanClass
import ClassLang.Proofs.CleanVisits
import ClassLang.Proofs.CompoundAssignment
import ClassLang.Proofs.ControlFlow
import ClassLang.Proofs.CycleDetection
import ClassLang.Proofs.DeclaredTypes
import ClassLang.Proofs.DiagnosticPlaces
import ClassLang.Proofs.ExprAgreement
import ClassLang.Proofs.ExprHonesty
import ClassLang.Proofs.FieldAccess
import ClassLang.Proofs.FieldEnvironment
import ClassLang.Proofs.FinalTable
import ClassLang.Proofs.Hierarchy
import ClassLang.Proofs.Honesty
import ClassLang.Proofs.Instantiation
import ClassLang.Proofs.LayoutIrrelevance
import ClassLang.Proofs.ListMethods
import ClassLang.Proofs.ListSurface
import ClassLang.Proofs.MemberUniqueness
import ClassLang.Proofs.Modularity
import ClassLang.Proofs.NestedLists
import ClassLang.Proofs.NoShadowing
import ClassLang.Proofs.OrderIndependence
import ClassLang.Proofs.Outcomes
import ClassLang.Proofs.Overriding
import ClassLang.Proofs.Parentheses
import ClassLang.Proofs.ProgramLayout
import ClassLang.Proofs.Queries
import ClassLang.Proofs.Resolution
import ClassLang.Proofs.ReturnSoundness
import ClassLang.Proofs.RevisedTables
import ClassLang.Proofs.Revision
import ClassLang.Proofs.RoundTrip
import ClassLang.Proofs.Safeguards
import ClassLang.Proofs.ScopeDiscipline
import ClassLang.Proofs.ScopeGrowth
import ClassLang.Proofs.Scripts
import ClassLang.Proofs.SpanNesting
import ClassLang.Proofs.Stability
import ClassLang.Proofs.SteadyTyping
import ClassLang.Proofs.StmtHonesty
import ClassLang.Proofs.TableGrowth
import ClassLang.Proofs.TableLookup
import ClassLang.Proofs.TypeIdentity
import ClassLang.Proofs.TypeNames
import ClassLang.Proofs.UnreachableCode
import ClassLang.Proofs.ValueSources
import ClassLang.Proofs.Verdict
import ClassLang.Proofs.VisitGrowth
import ClassLang.Proofs.VisitedSites
import ClassLang.Proofs.Visits
import ClassLang.Proofs.VoidFlow
import ClassLang.Proofs.WiderTables
import ClassLang.Scope
import ClassLang.Source.Span
import ClassLang.Tree.Basic
import ClassLang.Tree.Layout
import ClassLang.Tree.Malformed
import ClassLang.Types.Meaning
import ClassLang.Types.WordChar
