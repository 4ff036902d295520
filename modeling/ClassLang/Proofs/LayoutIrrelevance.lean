import ClassLang.Proofs.BlindClass
import ClassLang.Proofs.ClassFactoring
import ClassLang.Proofs.Parentheses

namespace ClassLang

variable [Alphabet]

namespace Program

omit [Alphabet] in
theorem ofTree_relaid (t : Tree) (layout : Tree.Relayout) :
    (∃ fault, ofTree t = .error fault ∧ ofTree (t.relaid layout) = .error fault) ∨
      ∃ p q, ofTree t = .ok p ∧ ofTree (t.relaid layout) = .ok q ∧ q.bare = p.bare := by
  have hread : bare <$> ofTree (t.relaid layout) = bare <$> ofTree t := kept_read t layout
  cases hp : ofTree t with
  | error fault =>
    cases hq : ofTree (t.relaid layout) with
    | error other =>
      rw [hp, hq] at hread
      cases hread
      exact .inl ⟨fault, rfl, rfl⟩
    | ok q =>
      rw [hp, hq] at hread
      cases hread
  | ok p =>
    cases hq : ofTree (t.relaid layout) with
    | error other =>
      rw [hp, hq] at hread
      cases hread
    | ok q =>
      rw [hp, hq] at hread
      exact .inr ⟨p, q, rfl, rfl, Except.ok.inj hread⟩

variable (p : Program) (file : String)

theorem blind_check_empty : (p.check .empty).Blind .bare (p.bare.check .empty) := by
  rw [← p.revised_bare]
  exact p.blind_check .empty

theorem problems_analyze :
    (p.analyze file).diagnostics.map (fun d => d.problem) =
      (p.bare.check .empty).findings.map Finding.problem := by
  rw [analyze_eq, p.blind_check_empty.findings, List.map_map, List.map_map]
  rfl

theorem names_analyze :
    (p.analyze file).classes.names = (p.bare.check .empty).table.names := by
  rw [analyze_eq, p.blind_check_empty.table, ClassTable.names_revised]

end Program

/-- Trees that differ in parentheses and places are both refused for the same reason, or have the
same problems, in the same order, and bring the same classes into the table. -/
theorem analyze_relaid (t : Tree) (layout : Tree.Relayout) (file : String) :
    (∃ fault, analyze t file = .error fault ∧ analyze (t.relaid layout) file = .error fault) ∨
      ∃ a b, analyze t file = .ok a ∧ analyze (t.relaid layout) file = .ok b ∧
        b.diagnostics.map (fun d => d.problem) = a.diagnostics.map (fun d => d.problem) ∧
        b.classes.names = a.classes.names := by
  unfold analyze
  obtain ⟨fault, ht, hr⟩ | ⟨p, q, hp, hq, hbare⟩ := Program.ofTree_relaid t layout
  · rw [ht, hr]
    exact .inl ⟨fault, rfl, rfl⟩
  · rw [hp, hq]
    refine .inr ⟨p.analyze file, q.analyze file, rfl, rfl, ?_, ?_⟩
    · rw [Program.problems_analyze, Program.problems_analyze, hbare]
    · rw [Program.names_analyze, Program.names_analyze, hbare]

end ClassLang
