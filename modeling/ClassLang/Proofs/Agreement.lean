import ClassLang.Check.Stmt
import ClassLang.Proofs.Chains
import ClassLang.Proofs.Outcomes
import ClassLang.Proofs.Queries

namespace ClassLang

open ClassTable Mentions

variable [Alphabet]

theorem ClassTable.mentioned_typeOf? (table : ClassTable) (name : String) :
    mentioned (table.typeOf? name) ⊆ {.find name} := by
  cases htype : table.typeOf? name with
  | none => simp
  | some ty =>
    rw [mentioned_some, ← name_of_typeOf? htype]
    exact mentioned_ty_subset ty

/-- A relation between two tables that checks keep and can not tell apart. It says which questions
have one answer in both tables; these lead to no others, and never become fewer. -/
structure Kinship where
  related : ClassTable → ClassTable → Prop
  allowed : ClassTable → ClassTable → Set Query
  get?_eq {table other : ClassTable} (h : related table other) {name : String}
    (hn : .find name ∈ allowed table other) : other.get? name = table.get? name
  exposed {table other : ClassTable} (h : related table other) {name : String} {c : ClassDef}
    (hn : .find name ∈ allowed table other) (hc : table.get? name = some c) :
    c.exposed ⊆ allowed table other
  primitive {table other : ClassTable} (h : related table other) (p : Primitive) :
    .find p.keyword ∈ allowed table other
  typeOf?_eq {table other : ClassTable} (h : related table other) {name : String}
    (hn : .resolve name ∈ allowed table other) : other.typeOf? name = table.typeOf? name
  resolve {table other : ClassTable} (h : related table other) {name : String}
    (hn : .resolve name ∈ allowed table other) :
    related (table.resolve name).2 (other.resolve name).2
  keeps {table other : ClassTable} (h : related table other) {name : String}
    (hn : .resolve name ∈ allowed table other) :
    allowed table other ⊆ allowed (table.resolve name).2 (other.resolve name).2
  resolved {table other : ClassTable} (h : related table other) {name : String}
    (hn : .resolve name ∈ allowed table other) :
    mentioned (table.typeOf? name) ⊆ allowed (table.resolve name).2 (other.resolve name).2

namespace Kinship

variable {kin : Kinship} {table other : ClassTable}

theorem sameOn (h : kin.related table other) :
    SameOn {name | .find name ∈ kin.allowed table other} table other := by
  refine ⟨fun name hn => kin.get?_eq h hn, fun name hn c hc base hb => ?_⟩
  exact kin.exposed h hn hc (.inl ⟨base, .inr hb, rfl⟩)

theorem exposed_of_mem_lineage (h : kin.related table other) {name : String}
    (hn : .find name ∈ kin.allowed table other) {owner : ClassDef}
    (ho : owner ∈ table.lineage name) : owner.exposed ⊆ kin.allowed table other := by
  have hname : .find owner.name ∈ kin.allowed table other :=
    (sameOn h).name_mem_of_mem_lineage hn ho
  exact kin.exposed h hname (get?_of_mem (mem_classes_of_mem_lineage ho))

theorem exposed_of_mem_ancestors (h : kin.related table other) {c : ClassDef}
    (hb : ∀ base ∈ c.baseName?, .find base ∈ kin.allowed table other) {a : ClassDef}
    (ha : a ∈ table.ancestors c) : a.exposed ⊆ kin.allowed table other := by
  have hname : .find a.name ∈ kin.allowed table other :=
    (sameOn h).name_mem_of_mem_climb [c.name] hb ha
  exact kin.exposed h hname (get?_of_mem (mem_classes_of_mem_climb ha))

section Types

variable {ty : Ty}

theorem find_className (h : kin.related table other) (ht : mentioned ty ⊆ kin.allowed table other)
    {className : String} (hc : ty.className? = some className) :
    .find className ∈ kin.allowed table other := by
  cases ty with
  | void => cases hc
  | classRef _ | list _ =>
    cases hc
    exact ht rfl
  | primitive p =>
    cases hc
    exact kin.primitive h p

theorem isInstantiable (h : kin.related table other)
    (ht : mentioned ty ⊆ kin.allowed table other) :
    other.isInstantiable ty = table.isInstantiable ty := by
  cases ty with
  | classRef name =>
    have hg : other.get? name = table.get? name := kin.get?_eq h (ht rfl)
    rw [ClassTable.isInstantiable, ClassTable.isInstantiable, hg]
  | primitive _ | list _ | void => rfl

theorem isAssignable (h : kin.related table other) (hs : mentioned ty ⊆ kin.allowed table other)
    (target : Ty) : other.isAssignable ty target = table.isAssignable ty target := by
  cases ty with
  | classRef name =>
    cases target with
    | classRef ancestor =>
      have hn : .find name ∈ kin.allowed table other := hs rfl
      have ha : other.isAncestor ancestor name = table.isAncestor ancestor name :=
        (sameOn h).isAncestor hn ancestor
      rw [ClassTable.isAssignable, ClassTable.isAssignable, ha]
    | primitive _ | list _ | void => rfl
  | primitive _ | list _ | void => rfl

theorem builtinBinary (h : kin.related table other) {left right : Ty}
    (hl : mentioned left ⊆ kin.allowed table other)
    (hr : mentioned right ⊆ kin.allowed table other) (symbol : String) :
    other.builtinBinary symbol left right = table.builtinBinary symbol left right := by
  rw [ClassTable.builtinBinary, ClassTable.builtinBinary, isAssignable h hl, isAssignable h hr]

end Types

/-- Kin that are related in a further way, which resolving a name in both tables keeps. -/
def along (kin : Kinship) (also : ClassTable → ClassTable → Prop)
    (step : ∀ {table other : ClassTable} {name : String}, kin.related table other →
      .resolve name ∈ kin.allowed table other → also table other →
      also (table.resolve name).2 (other.resolve name).2) : Kinship where
  related table other := kin.related table other ∧ also table other
  allowed := kin.allowed
  get?_eq h := kin.get?_eq h.1
  exposed h := kin.exposed h.1
  primitive h := kin.primitive h.1
  typeOf?_eq h := kin.typeOf?_eq h.1
  resolve h _ hn := ⟨kin.resolve h.1 hn, step h.1 hn h.2⟩
  keeps h := kin.keeps h.1
  resolved h := kin.resolved h.1

end Kinship

/-- Two outcomes that differ in their tables only. Those are kin again; what was allowed before
still is, and so is what the result mentions. -/
structure Outcome.Agree {α : Type} [Mentions α] (kin : Kinship) (before : Set Query)
    (left right : Outcome α) : Prop where
  result : right.result = left.result
  findings : right.findings = left.findings
  related : kin.related left.table right.table
  keeps : before ⊆ kin.allowed left.table right.table
  mentions : mentioned left.result ⊆ kin.allowed left.table right.table

/-- The check goes the same way on kin of which it may ask what is `known`. -/
def Check.Agree {α : Type} [Mentions α] (kin : Kinship) (known : Set Query) (c : Check α) : Prop :=
  ∀ ⦃table other⦄, kin.related table other → known ⊆ kin.allowed table other →
    (c table).Agree kin (kin.allowed table other) (c other)

namespace Check

variable {α β γ : Type} [Mentions α] [Mentions β] {kin : Kinship} {known : Set Query}

theorem Agree.mono {c : Check α} {more : Set Query} (h : Agree kin known c) (hk : known ⊆ more) :
    Agree kin more c := fun _ _ ht hm => h ht (hk.trans hm)

theorem agree_pure {a : α} (h : mentioned a ⊆ known) : Agree kin known (pure a) :=
  fun _ _ ht hk => ⟨rfl, rfl, ht, subset_rfl, h.trans hk⟩

theorem agree_bind {c : Check α} {f : α → Check β} (hc : Agree kin known c)
    (hf : ∀ a more, known ⊆ more → mentioned a ⊆ more → Agree kin more (f a)) :
    Agree kin known (c >>= f) := by
  intro table other ht hk
  have h := hc ht hk
  have k := hf (c table).result _ (hk.trans h.keeps) h.mentions h.related subset_rfl
  refine ⟨?_, ?_, ?_, ?_, ?_⟩
  · rw [result_bind, result_bind, h.result]
    exact k.result
  · rw [findings_bind, findings_bind, h.findings, h.result, k.findings]
  · rw [table_bind, table_bind, h.result]
    exact k.related
  · rw [table_bind, table_bind, h.result]
    exact h.keeps.trans k.keeps
  · rw [table_bind, table_bind, h.result]
    exact k.mentions

theorem agree_seq {c : Check α} {f : α → Check β} (hc : Agree kin known c)
    (hf : ∀ a, Agree kin known (f a)) : Agree kin known (c >>= f) :=
  agree_bind hc fun a _ hk _ => (hf a).mono hk

theorem agree_report (problem : Problem) (span : Span) : Agree kin known (report problem span) :=
  fun _ _ ht _ => ⟨rfl, rfl, ht, subset_rfl, Set.empty_subset _⟩

theorem agree_fail (problem : Problem) (span : Span) : Agree kin known (fail problem span) := by
  apply agree_seq (agree_report problem span)
  intro _
  exact agree_pure (by simp)

theorem agree_failIf (condition : Bool) (problem : Problem) (span : Span) :
    Agree kin known (failIf condition problem span) := by
  unfold failIf
  split
  · exact agree_fail problem span
  · exact agree_pure (by simp)

theorem agree_refuse (problem : Problem) (span : Span) :
    Agree kin known (refuse problem span : Check (Option α)) := by
  apply agree_seq (agree_report problem span)
  intro _
  exact agree_pure (by simp)

theorem agree_resolve {name : String} (h : .resolve name ∈ known) :
    Agree kin known (resolve name) := by
  intro table other ht hk
  have hn := hk h
  exact ⟨kin.typeOf?_eq ht hn, rfl, kin.resolve ht hn, kin.keeps ht hn, kin.resolved ht hn⟩

theorem agree_classes_bind {f : ClassTable → Check β}
    (h : ∀ ⦃table other⦄, kin.related table other → known ⊆ kin.allowed table other →
      (f table table).Agree kin (kin.allowed table other) (f other other)) :
    Agree kin known (classes >>= f) := h

theorem agree_forEach {f : γ → Check β} {items : List γ} (h : ∀ a ∈ items, Agree kin known (f a)) :
    Agree kin known (forEach f items) := by
  induction items with
  | nil => exact agree_pure (by simp)
  | cons a items ih =>
    apply agree_bind (h a (by simp))
    intro b more hk hb
    apply agree_bind ((ih fun b hb => h b (by simp [hb])).mono hk)
    intro rest wider hm hr
    exact agree_pure (by simpa using ⟨hb.trans hm, hr⟩)

theorem agree_expectType (name : Ident) (h : .resolve name.text ∈ known) :
    Agree kin known (expectType name) := by
  apply agree_bind (agree_resolve h)
  intro ty more _ hty
  cases ty with
  | none => exact agree_refuse _ _
  | some ty => exact agree_pure hty

theorem agree_expectValueType (name : Ident) (h : .resolve name.text ∈ known) :
    Agree kin known (expectValueType name) := by
  apply agree_bind (agree_expectType name h)
  intro ty more _ hty
  split
  · exact agree_refuse _ _
  · exact agree_pure hty

theorem agree_anyFails {f : γ → Check Bool} {items : List γ}
    (h : ∀ a ∈ items, Agree kin known (f a)) : Agree kin known (anyFails f items) := by
  induction items with
  | nil => exact agree_pure (by simp)
  | cons a items ih =>
    apply agree_seq (h a (by simp))
    intro failed
    apply agree_seq (ih fun b hb => h b (by simp [hb]))
    intro restFailed
    exact agree_pure (by simp)

end Check

def Scoped.Agree {α : Type} [Mentions α] (kin : Kinship) (known : Set Query) (c : Scoped α) :
    Prop :=
  ∀ ⦃more scopes⦄, known ⊆ more → mentioned scopes ⊆ more → Check.Agree kin more (c scopes)

namespace Scoped

variable {α β γ : Type} [Mentions α] [Mentions β] {kin : Kinship} {known : Set Query}

theorem Agree.mono {c : Scoped α} {more : Set Query} (h : Agree kin known c) (hk : known ⊆ more) :
    Agree kin more c := fun _ _ hm hs => h (hk.trans hm) hs

theorem agree_pure {a : α} (h : mentioned a ⊆ known) : Agree kin known (pure a) :=
  fun _ _ hk hs => Check.agree_pure (Set.union_subset (h.trans hk) hs)

theorem agree_bind {c : Scoped α} {f : α → Scoped β} (hc : Agree kin known c)
    (hf : ∀ a more, known ⊆ more → mentioned a ⊆ more → Agree kin more (f a)) :
    Agree kin known (c >>= f) := by
  intro more scopes hk hs
  rw [bind_apply]
  apply Check.agree_bind (hc hk hs)
  intro r wider hm hr
  obtain ⟨ha, hi⟩ := Set.union_subset_iff.mp hr
  exact hf r.1 wider (hk.trans hm) ha subset_rfl hi

theorem agree_seq {c : Scoped α} {f : α → Scoped β} (hc : Agree kin known c)
    (hf : ∀ a, Agree kin known (f a)) : Agree kin known (c >>= f) :=
  agree_bind hc fun a _ hk _ => (hf a).mono hk

theorem agree_reading {c : ScopeStack → Check α}
    (h : ∀ more scopes, known ⊆ more → mentioned scopes ⊆ more → Check.Agree kin more (c scopes)) :
    Agree kin known (reading c) := by
  intro more scopes hk hs
  apply Check.agree_bind (h more scopes hk hs)
  intro a wider hm ha
  exact Check.agree_pure (Set.union_subset ha (hs.trans hm))

theorem agree_lift {c : Check α} (h : Check.Agree kin known c) :
    Agree kin known (liftM c : Scoped α) :=
  agree_reading fun _ _ hk _ => h.mono hk

theorem agree_classes_bind {f : ClassTable → Scoped α}
    (h : ∀ ⦃table other⦄, kin.related table other → known ⊆ kin.allowed table other →
      f other = f table ∧ Agree kin (kin.allowed table other) (f table)) :
    Agree kin known ((liftM Check.classes : Scoped ClassTable) >>= f) := by
  intro more scopes hk hs table other ht hm
  obtain ⟨he, ha⟩ := h ht (hk.trans hm)
  change (f table scopes table).Agree kin _ (f other scopes other)
  rw [he]
  exact ha subset_rfl (hs.trans hm) ht subset_rfl

theorem agree_declare {v : Variable} (span : Span) (hv : mentioned v.ty ⊆ known) :
    Agree kin known (declare v span) := by
  intro more scopes hk hs
  unfold declare
  cases hd : scopes.declare v with
  | ok inner =>
    have hi := ScopeStack.mentioned_declare hd hs (hv.trans hk)
    exact Check.agree_pure (by simpa using hi)
  | error problem =>
    apply Check.agree_bind (Check.agree_fail problem span)
    intro failed wider hw _
    exact Check.agree_pure (by simpa using hs.trans hw)

theorem agree_within {kind : ScopeKind} {owner : ScopeOwner} {c : Scoped α}
    (ho : mentioned owner ⊆ known) (h : Agree kin known c) :
    Agree kin known (within kind owner c) := by
  intro more scopes hk hs
  have hp : mentioned (scopes.push kind owner) ⊆ more := by
    rw [ScopeStack.mentioned_push]
    exact Set.union_subset (ho.trans hk) hs
  apply Check.agree_bind (h hk hp)
  intro r wider _ hr
  obtain ⟨ha, hi⟩ := Set.union_subset_iff.mp hr
  exact Check.agree_pure (Set.union_subset ha (ScopeStack.mentioned_pop.trans hi))

theorem agree_both {c d : Scoped Bool} (hc : Agree kin known c) (hd : Agree kin known d) :
    Agree kin known (do
      let failed ← c
      let alsoFailed ← d
      return failed || alsoFailed) := by
  apply agree_seq hc
  intro failed
  apply agree_seq hd
  intro alsoFailed
  exact agree_pure (by simp)

theorem agree_anyFails {f : γ → Scoped Bool} {items : List γ}
    (h : ∀ a ∈ items, Agree kin known (f a)) : Agree kin known (anyFails f items) := by
  induction items with
  | nil => exact agree_pure (by simp)
  | cons a items ih => exact agree_both (h a (by simp)) (ih fun b hb => h b (by simp [hb]))

theorem agree_failsAt {f : γ → Scoped Bool} {items : List γ}
    (h : ∀ a ∈ items, Agree kin known (f a)) : Agree kin known (failsAt f items) := by
  induction items with
  | nil => exact agree_pure (by simp)
  | cons a items ih =>
    apply agree_seq (h a (by simp))
    intro failed
    cases failed with
    | true => exact agree_pure (by simp)
    | false => exact ih fun b hb => h b (by simp [hb])

theorem agree_checkOptional {f : γ → Scoped Bool} {item : Option γ}
    (h : ∀ a ∈ item, Agree kin known (f a)) : Agree kin known (checkOptional f item) := by
  cases item with
  | none => exact agree_pure (by simp)
  | some a => exact h a rfl

end Scoped

end ClassLang
