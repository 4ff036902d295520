import ClassLang.Proofs.BaseLinks
import ClassLang.Proofs.Hierarchy

namespace ClassLang

/-- What comes of an iteration: the state for the next one, or the outcome of the loop. -/
inductive Iteration (State Outcome : Type) where
  | again (state : State)
  | leave (outcome : Outcome)

namespace Iteration

variable {State Outcome : Type} {body : State → Iteration State Outcome} {n m : Nat}
  {state next : State} {outcome : Outcome}

/-- The outcome of a loop if it is left within so many iterations. The one that leaves it counts as
well, be it only a look at the condition. -/
def within (body : State → Iteration State Outcome) : Nat → State → Option Outcome
  | 0, _ => none
  | n + 1, state =>
    match body state with
    | .again next => within body n next
    | .leave outcome => some outcome

theorem within_of_again (h : body state = .again next) :
    within body (n + 1) state = within body n next := by
  rw [within, h]

theorem within_of_leave (h : body state = .leave outcome) :
    within body (n + 1) state = some outcome := by
  rw [within, h]

theorem within_mono (h : within body n state = some outcome) (hm : n ≤ m) :
    within body m state = some outcome := by
  induction n generalizing m state with
  | zero => cases h
  | succ n ih =>
    obtain ⟨m, rfl⟩ := Nat.exists_eq_add_of_le' (Nat.one_le_of_lt hm)
    cases hb : body state with
    | again next =>
      rw [within_of_again hb] at h ⊢
      exact ih h (Nat.le_of_succ_le_succ hm)
    | leave last =>
      rw [within_of_leave hb] at h ⊢
      exact h

end Iteration

/-- The loop over classes: the names met so far, the ancestors found so far, and the class that
comes next. -/
structure ClassWalk where
  visited : List String
  found : List ClassDef
  next : Option ClassDef

structure NameWalk where
  visited : List String
  next : Option String

def ClassWalk.start (table : ClassTable) (c : ClassDef) : ClassWalk :=
  ⟨[c.name], [], table.baseOf? c⟩

def NameWalk.start (c : ClassDef) : NameWalk := ⟨[c.name], c.baseName?⟩

def ChainEnd.isRepeated : ChainEnd → Bool
  | .repeated _ => true
  | .root | .unknown _ => false

namespace ClassTable

open Iteration Relation

variable {table : ClassTable} {c : ClassDef} {visited : List String} {name : String}

section ClassLoop

variable {found : List ClassDef}

def visitClass (table : ClassTable) (walk : ClassWalk) : Iteration ClassWalk (List ClassDef) :=
  match walk.next with
  | none => .leave walk.found
  | some c =>
    if c.name ∈ walk.visited then .leave walk.found
    else .again ⟨c.name :: walk.visited, walk.found ++ [c], table.baseOf? c⟩

theorem visitClass_of_mem (hv : name ∈ visited) :
    table.visitClass ⟨visited, found, table.get? name⟩ = .leave found := by
  cases hc : table.get? name with
  | none => rfl
  | some c => exact if_pos (get?_name hc ▸ hv)

theorem visitClass_of_not_mem (hv : name ∉ visited) (hc : table.get? name = some c) :
    table.visitClass ⟨visited, found, some c⟩ =
      .again ⟨name :: visited, found ++ [c], table.baseOf? c⟩ := by
  obtain rfl := get?_name hc
  exact if_neg hv

/-- The loop adds the rest of the way up to what it has found, with one iteration for each class and
one to stop. -/
theorem within_visitClass (table : ClassTable) (visited : List String) (found : List ClassDef)
    (base : Option String) :
    within table.visitClass ((table.climb visited base).ancestors.length + 1)
      ⟨visited, found, base.bind table.get?⟩ =
        some (found ++ (table.climb visited base).ancestors) := by
  fun_induction climb table visited base generalizing found with
  | case1 visited =>
    rw [List.append_nil]
    exact within_of_leave rfl
  | case2 visited name hv =>
    rw [List.append_nil]
    exact within_of_leave (visitClass_of_mem hv)
  | case3 visited name hv hc =>
    rw [Option.bind_some, hc, List.append_nil]
    exact within_of_leave rfl
  | case4 visited name hv c hc rest ih =>
    have hrest := ih (found ++ [c])
    rw [List.append_assoc] at hrest
    rw [Option.bind_some, hc, List.length_cons, within_of_again (visitClass_of_not_mem hv hc)]
    exact hrest

end ClassLoop

section NameLoop

/-- Meet the next name, unless it was met before. It need not be registered, and then no name comes
after it. -/
def visitName (table : ClassTable) (walk : NameWalk) : Iteration NameWalk Bool :=
  match walk.next with
  | none => .leave false
  | some name =>
    if name ∈ walk.visited then .leave true
    else .again ⟨name :: walk.visited, (table.get? name).bind ClassDef.baseName?⟩

theorem visitName_of_not_mem (hv : name ∉ visited) :
    table.visitName ⟨visited, some name⟩ =
      .again ⟨name :: visited, (table.get? name).bind ClassDef.baseName?⟩ := if_neg hv

theorem within_visitName (table : ClassTable) (visited : List String) (base : Option String) :
    within table.visitName ((table.climb visited base).ancestors.length + 2) ⟨visited, base⟩ =
      some (table.climb visited base).ending.isRepeated := by
  fun_induction climb table visited base with
  | case1 visited => exact within_of_leave rfl
  | case2 visited name hv => exact within_of_leave (if_pos hv)
  | case3 visited name hv hc =>
    rw [within_of_again (visitName_of_not_mem hv), hc]
    exact within_of_leave rfl
  | case4 visited name hv c hc rest ih =>
    rw [List.length_cons, within_of_again (visitName_of_not_mem hv), hc]
    exact ih

theorem isCyclic_eq_isRepeated (table : ClassTable) (c : ClassDef) :
    table.isCyclic c = (table.chain c).ending.isRepeated := by
  unfold isCyclic
  cases (table.chain c).ending <;> rfl

end NameLoop

theorem length_climb_le (table : ClassTable) (visited : List String) (base : Option String) :
    (table.climb visited base).ancestors.length ≤ unvisited visited table.classes := by
  fun_induction climb table visited base with
  | case1 | case2 | case3 => exact Nat.zero_le _
  | case4 visited name hv c hc rest ih =>
    obtain rfl := get?_name hc
    exact Nat.succ_le_of_lt (Nat.lt_of_le_of_lt ih (unvisited_lt (mem_of_get? hc) hv))

theorem length_ancestors_lt (hc : table.get? c.name = some c) :
    (table.ancestors c).length < table.size :=
  calc (table.ancestors c).length
    _ ≤ unvisited [c.name] table.classes := table.length_climb_le [c.name] c.baseName?
    _ < unvisited [] table.classes := unvisited_lt (mem_of_get? hc) List.not_mem_nil
    _ ≤ table.size := List.countP_le_length

theorem isChain_climb (table : ClassTable) (visited : List String) (base : Option String) :
    ∀ c : ClassDef, c.baseName? = base →
      (c :: (table.climb visited base).ancestors).IsChain table.Extends := by
  fun_induction climb table visited base with
  | case1 | case2 | case3 => exact fun c _ => .singleton c
  | case4 visited name hv parent hp rest ih =>
    intro c hb
    exact .cons_cons (extends_iff.mpr ⟨name, hb, hp⟩) (ih parent rfl)

theorem mem_ancestors_iff (hc : table.get? c.name = some c) {a : ClassDef} :
    a ∈ table.ancestors c ↔ TransGen table.Extends c a ∧ a ≠ c := by
  constructor
  · intro ha
    refine ⟨transGen_of_mem_ancestors ha, ?_⟩
    rintro rfl
    have hnodup := table.nodup_ancestors a
    rw [List.map_cons, List.nodup_cons] at hnodup
    exact hnodup.1 (List.mem_map_of_mem ha)
  · rintro ⟨hr, hne⟩
    have hm : a ∈ c :: table.ancestors c := (mem_line_iff hc).mpr hr.to_reflTransGen
    exact (List.mem_cons.mp hm).resolve_left hne

/-- From a registered class, both loops are left within one iteration more than there are classes,
whatever cycles there are and wherever a base is missing. The ancestors are the classes that base
links lead to from the class, without the class itself and each of them once. They come in the order
of the walk, which goes from each class to its base. The lineage is the class before its ancestors,
and no name is in it twice. -/
theorem base_walks_exact (hc : table.get? c.name = some c) :
    within table.visitClass (table.size + 1) (.start table c) = some (table.ancestors c) ∧
    within table.visitName (table.size + 1) (.start c) = some (table.isCyclic c) ∧
    (∀ a, a ∈ table.ancestors c ↔ TransGen table.Extends c a ∧ a ≠ c) ∧
    (table.ancestors c).Nodup ∧
    (c :: table.ancestors c).IsChain table.Extends ∧
    table.lineage c.name = c :: table.ancestors c ∧
    ((table.lineage c.name).map ClassDef.name).Nodup := by
  have hlength := length_ancestors_lt hc
  have hnames := table.nodup_ancestors c
  have hnodup : (c :: table.ancestors c).Nodup := .of_map ClassDef.name hnames
  have hclasses : within table.visitClass ((table.ancestors c).length + 1) (.start table c) =
      some (table.ancestors c) := table.within_visitClass [c.name] [] c.baseName?
  have hcyclic : within table.visitName ((table.ancestors c).length + 2) (.start c) =
      some (table.isCyclic c) := by
    rw [isCyclic_eq_isRepeated]
    exact table.within_visitName [c.name] c.baseName?
  refine ⟨within_mono hclasses (by omega), within_mono hcyclic (by omega),
    fun _ => mem_ancestors_iff hc, hnodup.of_cons, table.isChain_climb [c.name] _ c rfl,
    lineage_of_get? hc, ?_⟩
  rw [lineage_of_get? hc]
  exact hnames

section Whirl

def eddy : ClassDef := Program.simpleClass "Eddy" (some "Stream") []

def whirl : ClassTable :=
  (empty.registerAll [eddy, Program.simpleClass "Stream" (some "Pool") [],
    Program.simpleClass "Pool" (some "Stream") [],
    Program.simpleClass "Pond" (some "Well") []]).ensureList (.primitive .int)

theorem base_walks_exact_in_whirl :
    whirl.get? eddy.name = some eddy ∧ whirl.size = 5 ∧
      within whirl.visitClass 6 (.start whirl eddy) = some (whirl.ancestors eddy) ∧
      within whirl.visitName 6 (.start eddy) = some true ∧
      (whirl.ancestors eddy).map ClassDef.name = ["Stream", "Pool"] ∧
      (eddy :: whirl.ancestors eddy).IsChain whirl.Extends ∧
      whirl.lineage "Eddy" = eddy :: whirl.ancestors eddy := by
  have hc : whirl.get? eddy.name = some eddy := rfl
  have hcyclic : whirl.isCyclic eddy = true := by decide +kernel
  obtain ⟨hclasses, hnames, -, -, hchain, hlineage, -⟩ := base_walks_exact hc
  rw [hcyclic] at hnames
  exact ⟨hc, rfl, hclasses, hnames, by decide +kernel, hchain, hlineage⟩

end Whirl

end ClassTable

end ClassLang
