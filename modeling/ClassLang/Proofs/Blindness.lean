import ClassLang.Check.Stmt
import ClassLang.Proofs.Outcomes
import ClassLang.Proofs.RevisedTables

namespace ClassLang

section Lists

variable {α β : Type} {m : Type → Type} [Monad m] {Related : m Bool → m Bool → Prop}

/-- A relation that `bind` keeps holds of the checks of two lists if it holds item by item. -/
theorem related_anyFails (hpure : ∀ b, Related (pure b) (pure b))
    (hbind : ∀ {c d f g}, Related c d → (∀ b, Related (f b) (g b)) → Related (c >>= f) (d >>= g))
    {f : α → m Bool} {g : β → m Bool} {h : α → β} {items : List α}
    (hitems : ∀ a ∈ items, Related (f a) (g (h a))) :
    Related (anyFails f items) (anyFails g (items.map h)) := by
  induction items with
  | nil => exact hpure false
  | cons a items ih =>
    apply hbind (hitems a (by simp))
    intro failed
    apply hbind (ih fun b hb => hitems b (by simp [hb]))
    intro restFailed
    exact hpure _

theorem related_failsAt (hpure : ∀ b, Related (pure b) (pure b))
    (hbind : ∀ {c d f g}, Related c d → (∀ b, Related (f b) (g b)) → Related (c >>= f) (d >>= g))
    {f : α → m Bool} {g : β → m Bool} {h : α → β} {items : List α}
    (hitems : ∀ a ∈ items, Related (f a) (g (h a))) :
    Related (failsAt f items) (failsAt g (items.map h)) := by
  induction items with
  | nil => exact hpure false
  | cons a items ih =>
    apply hbind (hitems a (by simp))
    intro failed
    cases failed with
    | true => exact hpure true
    | false => exact ih fun b hb => hitems b (by simp [hb])

end Lists

def Finding.revised (rev : Revision) (f : Finding) : Finding := ⟨f.problem, rev.place f.span⟩

/-- The second outcome is what the first would be on a revised table: it has the same result and the
same findings, where these are moved. -/
structure Outcome.Blind {α : Type} (rev : Revision) (seen blind : Outcome α) : Prop where
  result : blind.result = seen.result
  table : blind.table = seen.table.revised rev
  findings : blind.findings = seen.findings.map (Finding.revised rev)

/-- The second check does on revised tables what the first does, up to the places of what it
finds. -/
def Check.Blind {α : Type} (rev : Revision) (c d : Check α) : Prop :=
  ∀ table, (c table).Blind rev (d (table.revised rev))

variable {rev : Revision}

namespace Check

variable {α β γ : Type}

theorem map_apply (h : α → β) (c : Check α) (table : ClassTable) :
    (h <$> c) table = ⟨h (c table).result, (c table).table, (c table).findings⟩ :=
  Outcome.ext (by rfl) (by rfl) (List.append_nil _)

theorem blind_pure (a : α) : Blind rev (pure a) (pure a) := fun _ => ⟨rfl, rfl, rfl⟩

theorem blind_map_bind {h : α → β} {c : Check α} {d : Check β} {f : α → Check γ} {g : β → Check γ}
    (hc : Blind rev (h <$> c) d) (hf : ∀ a, Blind rev (f a) (g (h a))) :
    Blind rev (c >>= f) (d >>= g) := by
  intro table
  have hfirst := hc table
  rw [map_apply] at hfirst
  obtain ⟨hresult, htable, hfindings⟩ := hfirst
  dsimp only at hresult htable hfindings
  have hrest := hf (c table).result (c table).table
  rw [← hresult, ← htable] at hrest
  refine ⟨hrest.result, hrest.table, ?_⟩
  rw [findings_bind, findings_bind, List.map_append, hfindings, hrest.findings]

theorem blind_bind {c d : Check α} {f g : α → Check β} (hc : Blind rev c d)
    (hf : ∀ a, Blind rev (f a) (g a)) : Blind rev (c >>= f) (d >>= g) :=
  blind_map_bind (h := id) (by rwa [id_map]) hf

theorem blind_classes_bind {f g : ClassTable → Check α}
    (h : ∀ table : ClassTable, Blind rev (f table) (g (table.revised rev))) :
    Blind rev (classes >>= f) (classes >>= g) := fun table => h table table

theorem blind_ite {condition : Bool} {c c' d d' : Check α} (hc : Blind rev c c')
    (hd : Blind rev d d') :
    Blind rev (if condition then c else d) (if condition then c' else d') := by
  cases condition with
  | true => exact hc
  | false => exact hd

theorem blind_report (problem : Problem) (span : Span) :
    Blind rev (report problem span) (report problem (rev.place span)) := fun _ => ⟨rfl, rfl, rfl⟩

theorem blind_fail (problem : Problem) (span : Span) :
    Blind rev (fail problem span) (fail problem (rev.place span)) :=
  blind_bind (blind_report problem span) fun _ => blind_pure true

theorem blind_failIf (condition : Bool) (problem : Problem) (span : Span) :
    Blind rev (failIf condition problem span) (failIf condition problem (rev.place span)) :=
  blind_ite (blind_fail problem span) (blind_pure false)

theorem blind_refuse (problem : Problem) (span : Span) :
    Blind rev (refuse problem span : Check (Option α)) (refuse problem (rev.place span)) :=
  blind_bind (blind_report problem span) fun _ => blind_pure none

theorem blind_registerAll (classes : List ClassDef) :
    Blind rev (registerAll classes) (registerAll (classes.map (ClassDef.revised rev))) := by
  intro table
  exact ⟨rfl, (table.registerAll_revised classes).symm, rfl⟩

theorem blind_anyFails {f : α → Check Bool} {g : β → Check Bool} {h : α → β} {items : List α}
    (hitems : ∀ a ∈ items, Blind rev (f a) (g (h a))) :
    Blind rev (anyFails f items) (anyFails g (items.map h)) :=
  related_anyFails blind_pure blind_bind hitems

variable [Alphabet]

theorem blind_resolve (name : String) : Blind rev (resolve name) (resolve name) := by
  intro table
  rw [resolve, resolve, table.resolve_revised]
  exact ⟨rfl, rfl, rfl⟩

theorem blind_forEach_resolve (names : List String) :
    Blind rev (forEach resolve names) (forEach resolve names) := by
  induction names with
  | nil => exact blind_pure []
  | cons name names ih =>
    apply blind_bind (blind_resolve name)
    intro ty
    apply blind_bind ih
    intro rest
    exact blind_pure _

theorem blind_expectType (name : Ident) :
    Blind rev (expectType name) (expectType (name.revised rev)) := by
  apply blind_bind (blind_resolve name.text)
  intro ty
  cases ty with
  | none => exact blind_refuse _ name.span
  | some ty => exact blind_pure _

theorem blind_expectValueType (name : Ident) :
    Blind rev (expectValueType name) (expectValueType (name.revised rev)) := by
  apply blind_bind (blind_expectType name)
  intro ty
  split
  · exact blind_refuse _ name.span
  · exact blind_pure _

end Check

def Scoped.Blind {α : Type} (rev : Revision) (c d : Scoped α) : Prop :=
  ∀ scopes, Check.Blind rev (Prod.map id (ScopeStack.revised rev) <$> c scopes)
    (d (scopes.revised rev))

namespace Scoped

variable {α β γ : Type}

theorem blind_pure (a : α) : Blind rev (pure a) (pure a) := fun _ _ => ⟨rfl, rfl, rfl⟩

theorem blind_bind {c d : Scoped α} {f g : α → Scoped β} (hc : Blind rev c d)
    (hf : ∀ a, Blind rev (f a) (g a)) : Blind rev (c >>= f) (d >>= g) := by
  intro scopes
  rw [bind_apply, bind_apply, map_bind]
  exact Check.blind_map_bind (hc scopes) fun r => hf r.1 r.2

theorem blind_reading {c d : ScopeStack → Check α}
    (h : ∀ scopes : ScopeStack, Check.Blind rev (c scopes) (d (scopes.revised rev))) :
    Blind rev (reading c) (reading d) := by
  intro scopes
  unfold reading
  rw [map_bind]
  apply Check.blind_bind (h scopes)
  intro a
  rw [map_pure]
  exact Check.blind_pure _

theorem blind_lift {c d : Check α} (h : Check.Blind rev c d) :
    Blind rev (liftM c : Scoped α) (liftM d : Scoped α) := blind_reading fun _ => h

theorem blind_classes_bind {f g : ClassTable → Scoped α}
    (h : ∀ table : ClassTable, Blind rev (f table) (g (table.revised rev))) :
    Blind rev ((liftM Check.classes : Scoped ClassTable) >>= f)
      ((liftM Check.classes : Scoped ClassTable) >>= g) :=
  fun scopes table => h table scopes table

theorem blind_declare (v : Variable) (span : Span) :
    Blind rev (declare v span) (declare v (rev.place span)) := by
  intro scopes
  unfold declare
  rw [scopes.declare_revised]
  cases scopes.declare v with
  | ok inner => exact Check.blind_pure _
  | error problem =>
    dsimp only [Except.map]
    rw [map_bind]
    apply Check.blind_bind (Check.blind_fail problem span)
    intro failed
    rw [map_pure]
    exact Check.blind_pure _

theorem blind_within (kind : ScopeKind) (owner : ScopeOwner) {c d : Scoped α}
    (h : Blind rev c d) : Blind rev (within kind owner c) (within kind (owner.revised rev) d) := by
  intro scopes
  unfold within
  rw [map_bind, ← scopes.push_revised]
  apply Check.blind_map_bind (h (scopes.push kind owner))
  intro r
  rw [map_pure]
  simp only [Prod.map, ScopeStack.pop_revised]
  exact Check.blind_pure _

theorem blind_both {c c' d d' : Scoped Bool} (hc : Blind rev c c') (hd : Blind rev d d') :
    Blind rev
      (do
        let failed ← c
        let alsoFailed ← d
        return failed || alsoFailed)
      (do
        let failed ← c'
        let alsoFailed ← d'
        return failed || alsoFailed) :=
  blind_bind hc fun _ => blind_bind hd fun _ => blind_pure _

theorem blind_anyFails {f : α → Scoped Bool} {g : β → Scoped Bool} {h : α → β} {items : List α}
    (hitems : ∀ a ∈ items, Blind rev (f a) (g (h a))) :
    Blind rev (anyFails f items) (anyFails g (items.map h)) :=
  related_anyFails blind_pure blind_bind hitems

theorem blind_failsAt {f : α → Scoped Bool} {g : β → Scoped Bool} {h : α → β} {items : List α}
    (hitems : ∀ a ∈ items, Blind rev (f a) (g (h a))) :
    Blind rev (failsAt f items) (failsAt g (items.map h)) :=
  related_failsAt blind_pure blind_bind hitems

theorem blind_checkOptional {f : α → Scoped Bool} {g : β → Scoped Bool} {h : α → β}
    (hf : ∀ a, Blind rev (f a) (g (h a))) (part : Option α) :
    Blind rev (checkOptional f part) (checkOptional g (part.map h)) := by
  cases part with
  | none => exact blind_pure false
  | some a => exact hf a

end Scoped

end ClassLang
