import ClassLang.Proofs.BaseLinks
import ClassLang.Proofs.DiagnosticPlaces
import ClassLang.Types.WordChar

namespace ClassLang

open ClassTable Scoped

def uncyclic : Set Finding := {f | ∀ name, f.problem ≠ .cyclicInheritance name}

theorem insideAt_subset_uncyclic (places : Set Span) : insideAt places ⊆ uncyclic := by
  intro f hf name hn
  have hhead := hf.2
  rw [hn] at hhead
  cases hhead

namespace ClassDef

variable [Alphabet]

section Cyclic

variable {table : ClassTable} {c : ClassDef}

/-- Of a class on or below a cycle nothing is checked but its base. Should that be a list, the
classes that come to the table with it leave the cycle as it is. -/
theorem checkBase_of_cyclic (h : table.isCyclic c = true) {base : Ident} (hb : c.base = some base)
    (hk : table.contains base.text = true) :
    c.checkBase table =
      ⟨none, (table.resolve base.text).2, [⟨.cyclicInheritance c.name, c.ident.span⟩]⟩ := by
  have hgrows : table.Grows (table.resolve base.text).2 := .resolve table base.text
  obtain ⟨parent, hp⟩ := contains_iff.mp hk
  rw [checkBase, hb]
  dsimp only
  rw [Check.resolve_bind_apply, Check.classes_bind_apply, hgrows.get?_of_some hp]
  dsimp only
  rw [if_pos ((hgrows.isCyclic c).trans h)]
  rfl

theorem check_of_checkBase_none {after : ClassTable} {found : List Finding}
    (h : c.checkBase table = ⟨none, after, found⟩) (scopes : ScopeStack) :
    (c.check scopes table).result = (true, scopes) ∧
      (c.check scopes table).findings = (c.checkBackend table).findings ++ found := by
  have ht : (c.checkBackend table).table = table := Check.table_failIf table _ _ _
  rw [ClassDef.check, bind_apply, Check.result_bind, Check.findings_bind, findings_lift,
    result_lift, table_lift, ht]
  rw [bind_apply, Check.result_bind, Check.findings_bind, findings_lift, result_lift, table_lift, h]
  exact ⟨rfl, congrArg ((c.checkBackend table).findings ++ ·) (List.append_nil found)⟩

omit [Alphabet] in
theorem findings_checkBackend (c : ClassDef) (table : ClassTable) :
    (c.checkBackend table).findings =
      if c.isBackend && !isBackendName c.name then [⟨.unknownBackendClass c.name, c.ident.span⟩]
      else [] := by
  unfold checkBackend Check.failIf
  split <;> rfl

end Cyclic

section Acyclic

variable {start : ClassTable} {c : ClassDef}

theorem finds_checkBase_of_acyclic (h : start.isCyclic c = false) :
    Check.Finds start uncyclic c.checkBase := by
  unfold checkBase
  split
  · exact Check.finds_pure _
  · next base hb =>
    apply Check.finds_bind (Check.finds_quiet (Check.quiet_resolve base.text))
    intro _
    apply Check.finds_classes_bind
    intro table ht
    split
    · exact Check.finds_refuse nofun
    · next parent hp =>
      rw [if_neg (by simp [ht.isCyclic c, h])]
      have hm : Check.Finds start uncyclic (c.checkBaseModifier base parent) := by
        unfold checkBaseModifier
        split
        · exact Check.finds_fail nofun
        · apply Check.finds_failIf
          nofun
      exact Check.finds_bind hm fun _ => Check.finds_pure _

theorem finds_check_of_acyclic (h : start.isCyclic c = false) :
    Scoped.Finds start uncyclic c.check := by
  have hplaced : ∀ a ∈ start.classes, a.Placed Set.univ := fun a _ => a.placed_univ
  have hbody := (finds_checkBody hplaced c.placed_univ).mono (insideAt_subset_uncyclic Set.univ)
  have hbackend : Check.Finds start uncyclic c.checkBackend := by
    apply Check.finds_failIf
    nofun
  have hlabel : Check.Finds start uncyclic c.checkLabel := by
    apply Check.finds_failIf
    nofun
  apply finds_bind (finds_lift hbackend)
  intro backendFailed
  apply finds_bind (finds_lift (finds_checkBase_of_acyclic h))
  intro base
  cases base with
  | none => exact finds_pure true
  | some baseFailed =>
    apply finds_bind (finds_lift hlabel)
    intro labelFailed
    exact finds_bind (finds_within hbody) fun _ => finds_pure _

end Acyclic

/-- A class is cyclic exactly if base links never end above it, be it on the cycle or below. Exactly
then its check reports a cycle. It fails with that, leaves the scopes as they were, and reports
nothing else than perhaps, before, that the class is no backend class. -/
theorem cycle_detection_exact {table : ClassTable} {c : ClassDef}
    (hc : table.get? c.name = some c) (scopes : ScopeStack) :
    (table.isCyclic c = true ↔ table.Endless c) ∧
    ((∃ place, ⟨.cyclicInheritance c.name, place⟩ ∈ (c.check scopes table).findings) ↔
      table.Endless c) ∧
    (table.Endless c →
      (c.check scopes table).result = (true, scopes) ∧
      (c.check scopes table).findings =
        (if c.isBackend && !isBackendName c.name then [⟨.unknownBackendClass c.name, c.ident.span⟩]
          else []) ++ [⟨.cyclicInheritance c.name, c.ident.span⟩]) := by
  have hiff : table.isCyclic c = true ↔ table.Endless c := isCyclic_iff_endless hc
  have hcyclic (h : table.Endless c) : (c.check scopes table).result = (true, scopes) ∧
      (c.check scopes table).findings =
        (c.checkBackend table).findings ++ [⟨.cyclicInheritance c.name, c.ident.span⟩] := by
    obtain ⟨name, hname, hk⟩ := h c .refl
    obtain ⟨base, hb, rfl⟩ := Option.map_eq_some_iff.mp hname
    exact check_of_checkBase_none (checkBase_of_cyclic (hiff.mpr h) hb hk) scopes
  refine ⟨hiff, ⟨fun hf => ?_, fun h => ⟨c.ident.span, ?_⟩⟩, ?_⟩
  · obtain ⟨place, hm⟩ := hf
    by_contra hn
    have hacyclic : table.isCyclic c = false := Bool.eq_false_iff.mpr fun h => hn (hiff.mp h)
    exact (finds_check_of_acyclic hacyclic scopes table (.refl table)).2 _ hm c.name rfl
  · rw [(hcyclic h).2]
    exact List.mem_append_right _ (List.mem_singleton_self _)
  · rw [← findings_checkBackend c table]
    exact hcyclic

def leaf : ClassDef :=
  { Program.simpleClass "Leaf" (some "Ring") (Program.holder "Missing").members with
    isBackend := true }

def wreath : ClassTable :=
  empty.registerAll [leaf, Program.simpleClass "Ring" (some "Link") [],
    Program.simpleClass "Link" (some "Ring") []]

end ClassDef

end ClassLang

namespace ClassLang

open ClassTable Scoped

attribute [local instance] Alphabet.unicode

namespace ClassDef

theorem cycle_detection_exact_in_wreath :
    wreath.get? leaf.name = some leaf ∧ wreath.Endless leaf ∧
      (leaf.check [] wreath).result = (true, []) ∧
      (leaf.check [] wreath).findings =
        [⟨.unknownBackendClass "Leaf", .nowhere⟩, ⟨.cyclicInheritance "Leaf", .nowhere⟩] := by
  have hc : wreath.get? leaf.name = some leaf := rfl
  obtain ⟨hiff, -, hchecked⟩ := cycle_detection_exact hc []
  have h : wreath.Endless leaf := hiff.mp (by decide +kernel)
  exact ⟨hc, h, (hchecked h).1, (hchecked h).2⟩

end ClassDef

end ClassLang
