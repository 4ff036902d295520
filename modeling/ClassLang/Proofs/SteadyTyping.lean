import ClassLang.Proofs.ValueSources
import ClassLang.Proofs.WiderTables
import ClassLang.Types.WordChar

namespace ClassLang

open ClassTable

variable [Alphabet]

/-- The check resolves some names and reports nothing, and on every wider table it resolves the same
names and has the same result. -/
def Check.Steady {α : Type} (table : ClassTable) (c : Check α) : Prop :=
  ∃ names, ∀ wide, table.Widens wide → c wide = ⟨(c table).result, wide.resolveAll names, []⟩

namespace Check

variable {α β : Type} {table : ClassTable}

namespace Steady

variable {c : Check α}

theorem grows (h : Steady table c) : table.Grows (c table).table := by
  obtain ⟨names, h⟩ := h
  exact ⟨names, congrArg Outcome.table (h table (.refl table))⟩

theorem again (h : Steady table c) :
    c (c table).table = ⟨(c table).result, (c table).table, []⟩ := by
  have hgrows := h.grows
  obtain ⟨names, h⟩ := h
  have htable : (c table).table = table.resolveAll names :=
    congrArg Outcome.table (h table (.refl table))
  rw [h _ hgrows.widens, htable, resolveAll_resolveAll]

end Steady

theorem steady_pure (a : α) : Steady table (pure a) := ⟨[], fun _ _ => rfl⟩

theorem steady_bind {c : Check α} {f : α → Check β} (hc : Steady table c)
    (hf : Steady (c table).table (f (c table).result)) : Steady table (c >>= f) := by
  obtain ⟨first, hc⟩ := hc
  obtain ⟨second, hf⟩ := hf
  have htable : (c table).table = table.resolveAll first :=
    congrArg Outcome.table (hc table (.refl table))
  refine ⟨first ++ second, fun wide hw => ?_⟩
  have hnext := hf (wide.resolveAll first) (htable ▸ hw.resolveAll first)
  apply Outcome.ext
  · rw [result_bind, hc wide hw, hnext, result_bind]
  · rw [table_bind, hc wide hw, hnext, resolveAll_append]
  · rw [findings_bind, hc wide hw, hnext]
    rfl

theorem steady_classes_bind {f : ClassTable → Check β} (hf : Steady table (f table))
    (he : ∀ wide, table.Widens wide → f wide = f table) : Steady table (classes >>= f) := by
  obtain ⟨names, hf⟩ := hf
  refine ⟨names, fun wide hw => ?_⟩
  rw [classes_bind_apply, classes_bind_apply, he wide hw]
  exact hf wide hw

theorem steady_resolve (name : String) : Steady table (resolve name) :=
  ⟨[name], fun _ hw => Outcome.ext (hw.typeOf? name) rfl rfl⟩

theorem steady_forEach_resolve (names : List String) : Steady table (forEach resolve names) := by
  induction names generalizing table with
  | nil => exact steady_pure []
  | cons name names ih =>
    apply steady_bind (steady_resolve name)
    apply steady_bind ih
    exact steady_pure _

theorem steady_expectType {name : Ident} {ty : Ty}
    (h : (expectType name table).result = some ty) : Steady table (expectType name) := by
  have hty : (resolve name.text table).result = some ty := resolve_of_expectType h
  apply steady_bind (steady_resolve name.text)
  rw [hty]
  exact steady_pure _

section Operations

variable {meaning : Meaning} {span : Span}

/-- Which arguments are accepted does not change: what parameters are declared as is registered once
it is resolved. -/
theorem steady_accepts (parameters : List String) (arguments : List Ty) :
    Steady table (accepts parameters arguments) := by
  unfold accepts
  split
  · apply steady_bind (steady_forEach_resolve parameters)
    refine steady_classes_bind (steady_pure _) fun wide hw => ?_
    have hgrows : table.Grows (forEach resolve parameters table).table :=
      (steady_forEach_resolve parameters).grows
    congr 1
    rw [Bool.eq_iff_iff, List.all_eq_true, List.all_eq_true]
    refine forall₂_congr ?_
    rintro ⟨parameter, argument⟩ hpair
    have hparameter := (List.of_mem_zip hpair).1
    rw [result_forEach_resolve] at hparameter
    obtain ⟨name, -, hname⟩ := List.mem_map.mp hparameter
    cases parameter with
    | none => simp
    | some ty =>
      have hregisters : table.Registers ty := registers_of_typeOf? hname
      simp only [Option.any_some, hw.isAssignable (hgrows.widens.registers hregisters)]
  · exact steady_pure false

theorem steady_firstAccepting (operands : List Ty) (candidates : List Member) :
    Steady table (firstAccepting operands candidates) := by
  induction candidates generalizing table with
  | nil => exact steady_pure none
  | cons m candidates ih =>
    apply steady_bind (steady_accepts m.parameterTypes operands)
    split
    · exact steady_resolve m.declaredType.text
    · exact ih

theorem steady_definedOperation (operator : String) (first : Ty) (others : List Ty) :
    Steady table (definedOperation operator first others) := by
  unfold definedOperation
  split
  · exact steady_pure none
  · next className _ =>
    apply steady_classes_bind (steady_firstAccepting _ _)
    intro wide hw
    rw [hw.operatorCandidates]

theorem steady_unaryResult (operator : String) (operand : Ty) :
    Steady table (unaryResult operator operand) := by
  unfold unaryResult
  split
  · exact steady_pure _
  · exact steady_definedOperation operator operand []

/-- Here it matters that both types are registered. Otherwise two values may become comparable by a
class that comes to the table, and the operator of a class is not asked for any more. -/
theorem steady_binaryResult (operator : String) {left right : Ty} (hl : table.Registers left)
    (hr : table.Registers right) : Steady table (binaryResult operator left right) := by
  unfold binaryResult
  split
  · exact steady_pure none
  · apply steady_classes_bind
    · split
      · exact steady_pure _
      · exact steady_definedOperation operator left [right]
    · intro wide hw
      rw [hw.builtinBinary hl hr]

theorem steady_unaryMeaning {operator : String} {operand : Meaning}
    (h : (unaryMeaning operator operand span table).result = some meaning) :
    Steady table (unaryMeaning operator operand span) := by
  unfold unaryMeaning at h ⊢
  cases hv : operand.valueType? with
  | none =>
    rw [hv] at h
    cases h
  | some ty =>
    rw [hv] at h
    obtain ⟨result, hresult, -⟩ := exists_of_result_bind (fun _ => rfl) h
    apply steady_bind (steady_unaryResult operator ty)
    rw [hresult]
    exact steady_pure _

theorem steady_binaryMeaning {operator : String} {left right : Meaning}
    (hl : ∀ ty ∈ left.valueType?, table.Registers ty)
    (hr : ∀ ty ∈ right.valueType?, table.Registers ty)
    (h : (binaryMeaning operator left right span table).result = some meaning) :
    Steady table (binaryMeaning operator left right span) := by
  unfold binaryMeaning at h ⊢
  cases hlt : left.valueType? with
  | none =>
    rw [hlt] at h
    cases h
  | some leftType =>
    cases hrt : right.valueType? with
    | none =>
      rw [hlt, hrt] at h
      cases h
    | some rightType =>
      rw [hlt, hrt] at h
      obtain ⟨result, hresult, -⟩ := exists_of_result_bind (fun _ => rfl) h
      apply steady_bind (steady_binaryResult operator (hl leftType hlt) (hr rightType hrt))
      rw [hresult]
      exact steady_pure _

theorem steady_storedType {operator : String} {target value stored : Ty}
    (ht : table.Registers target) (hv : table.Registers value)
    (h : (storedType operator target value span table).result = some stored) :
    Steady table (storedType operator target value span) := by
  unfold storedType at h ⊢
  cases hc : compoundOperator? operator with
  | none => exact steady_pure _
  | some binary =>
    rw [hc] at h
    obtain ⟨result, hresult, -⟩ := exists_of_result_bind (fun _ => rfl) h
    apply steady_bind (steady_binaryResult binary ht hv)
    rw [hresult]
    exact steady_pure _

theorem steady_assignMeaning {operator : String} {target value : Meaning}
    {targetSpan valueSpan : Span} (ht : ∀ ty ∈ target.valueType?, table.Registers ty)
    (hv : ∀ ty ∈ value.valueType?, table.Registers ty)
    (h : (assignMeaning operator target value targetSpan valueSpan span table).result =
      some meaning) :
    Steady table (assignMeaning operator target value targetSpan valueSpan span) := by
  unfold assignMeaning at h ⊢
  split at h
  · next targetType =>
    cases hvt : value.valueType? with
    | none =>
      rw [hvt] at h
      cases h
    | some valueType =>
      rw [hvt] at h
      obtain ⟨stored, hstored, h⟩ := exists_of_result_bind (fun _ => rfl) h
      have hsteady := steady_storedType (ht targetType rfl) (hv valueType hvt) hstored
      apply steady_bind hsteady
      rw [hstored]
      dsimp only at h ⊢
      rw [classes_bind_apply] at h
      have hregisters := hsteady.grows.widens.registers (ht targetType rfl)
      split at h
      · next hassign =>
        apply steady_classes_bind
        · rw [if_pos hassign]
          exact steady_pure _
        · intro wide hw
          rw [hw.isAssignable hregisters]
      · cases h
  · cases h

end Operations

section Access

variable {scopes : ScopeStack} {meaning : Meaning} {span : Span}

theorem steady_nameMeaning {name : Ident}
    (h : (nameMeaning scopes name table).result = some meaning) :
    Steady table (nameMeaning scopes name) := by
  unfold nameMeaning at h ⊢
  cases hl : scopes.lookup? name.text with
  | some v => exact steady_pure _
  | none =>
    rw [hl] at h
    apply steady_bind (steady_resolve name.text)
    rw [result_bind] at h
    generalize (resolve name.text table).result = ty at h ⊢
    generalize (resolve name.text table).table = later at h ⊢
    rw [classes_bind_apply] at h
    cases hf : ty.filter (fun ty => !ty.isVoid) with
    | some found => exact steady_classes_bind (steady_pure _) fun _ _ => rfl
    | none =>
      rw [hf] at h
      cases hc : scopes.currentClass? with
      | none =>
        rw [hc] at h
        cases h
      | some c =>
        rw [hc, Option.bind_some] at h
        cases hm : later.findMethod? c.name name.text with
        | none =>
          rw [hm] at h
          cases h
        | some found =>
          apply steady_classes_bind
          · rw [Option.bind_some, hm]
            exact steady_pure _
          · intro wide hw
            have hwide : wide.findMethod? c.name name.text = some found := hw.findSome?_lineage hm
            rw [Option.bind_some, Option.bind_some, hm, hwide]

theorem steady_memberOfType {ty : Ty} {throughType : Bool} {name : Ident}
    (h : (memberOfType scopes ty throughType name table).result = some meaning) :
    Steady table (memberOfType scopes ty throughType name) := by
  unfold memberOfType at h ⊢
  rw [classes_bind_apply] at h
  cases hc : ty.className? with
  | none =>
    rw [hc] at h
    cases h
  | some className =>
    rw [hc, Option.bind_some] at h
    cases hm : table.findMember? className name.text with
    | none =>
      rw [hm] at h
      cases h
    | some found =>
      obtain ⟨owner, m⟩ := found
      rw [hm] at h
      dsimp only at h
      cases ha : table.isAccessible scopes owner m with
      | false =>
        rw [ha] at h
        cases h
      | true =>
        rw [ha] at h
        apply steady_classes_bind
        · rw [Option.bind_some, hm]
          dsimp only
          rw [ha]
          split at h
          · cases h
          · next hshown =>
            rw [if_neg hshown]
            split at h
            · cases h
            · next hstatic =>
              rw [if_neg hstatic]
              cases hk : m.kind with
              | field declarators =>
                rw [hk] at h
                obtain ⟨fieldType, hfield, -⟩ := exists_of_result_bind (fun _ => rfl) h
                apply steady_bind (steady_expectType hfield)
                rw [hfield]
                exact steady_pure _
              | method r | operator r => exact steady_pure _
        · intro wide hw
          have hwide : wide.findMember? className name.text = some (owner, m) :=
            hw.findSome?_lineage hm
          rw [Option.bind_some, Option.bind_some, hm, hwide]
          dsimp only
          rw [ha, hw.isAccessible ha]

theorem steady_memberMeaning {target : Meaning} {name : Ident}
    (h : (memberMeaning scopes target name table).result = some meaning) :
    Steady table (memberMeaning scopes target name) := by
  cases target with
  | value ty assignable => exact steady_memberOfType h
  | typeName ty => exact steady_memberOfType h
  | method className method throughType => cases h

theorem steady_methodResult {className name : String} {arguments : List Meaning} {callee : Span}
    (h : (methodResult className name arguments callee span table).result = some meaning) :
    Steady table (methodResult className name arguments callee span) := by
  unfold methodResult at h ⊢
  rw [classes_bind_apply] at h
  cases hm : table.findMethod? className name with
  | none =>
    rw [hm] at h
    cases h
  | some found =>
    obtain ⟨owner, m⟩ := found
    rw [hm] at h
    dsimp only at h
    cases ht : arguments.mapM Meaning.valueType? with
    | none =>
      rw [ht] at h
      cases h
    | some types =>
      rw [ht] at h
      apply steady_classes_bind
      · rw [hm]
        dsimp only
        apply steady_bind (steady_accepts m.parameterTypes types)
        rw [result_bind] at h
        split at h
        · next hmatched =>
          rw [if_pos hmatched]
          exact steady_bind (steady_resolve m.declaredType.text) (steady_pure _)
        · cases h
      · intro wide hw
        have hwide : wide.findMethod? className name = some (owner, m) := hw.findSome?_lineage hm
        rw [hm, hwide]

theorem steady_callResult {callee : Meaning} {arguments : List (Option Meaning)}
    {calleeSpan : Span}
    (h : (callResult callee arguments calleeSpan span table).result = some meaning) :
    Steady table (callResult callee arguments calleeSpan span) := by
  cases callee with
  | method className name throughType =>
    unfold callResult at h ⊢
    cases ha : arguments.mapM id with
    | none =>
      rw [ha] at h
      cases h
    | some values =>
      rw [ha] at h
      exact steady_methodResult h
  | value ty assignable => cases h
  | typeName ty => cases h

theorem not_mem_of_callResult {callee : Meaning} {arguments : List (Option Meaning)}
    {calleeSpan : Span}
    (h : (callResult callee arguments calleeSpan span table).result = some meaning) :
    none ∉ arguments := by
  intro hn
  have hh : Honest (.faulty none) (none ∈ arguments) (· = none)
      (callResult callee arguments calleeSpan span) :=
    honest_callResult callee arguments calleeSpan span
  cases ((hh table).told (.inr hn)).symm.trans h

end Access

end Check

namespace Expr

open Check

variable {scopes : ScopeStack}

theorem registers_of_denote {table : ClassTable} (hs : scopes.Typed table.Registers) {e : Expr}
    {meaning : Meaning} (h : (e.denote scopes table).result = some meaning) :
    ∀ ty ∈ meaning.valueType?, table.Registers ty := by
  have hsource : meaning.Sourced table scopes :=
    ((e.yields_denote scopes) table (.refl table)).2 meaning h
  intro ty hty
  cases meaning with
  | value ty assignable =>
    cases hty
    obtain hknown | ⟨x, hx, rfl⟩ := hsource.known_or_live
    · exact registers_of_typeOf? hknown
    · exact hs x hx
  | typeName ty => cases hty
  | method className name throughType => cases hty

theorem typed_after {table : ClassTable} {α : Type} {c : Check α} (h : Steady table c)
    (hs : scopes.Typed table.Registers) : scopes.Typed (c table).table.Registers :=
  fun x hx => h.grows.widens.registers (hs x hx)

mutual

theorem steady_denote {table : ClassTable} (hs : scopes.Typed table.Registers) (e : Expr)
    {meaning : Meaning} (h : (e.denote scopes table).result = some meaning) :
    Steady table (e.denote scopes) := by
  cases e with
  | literal kind text span => exact steady_pure _
  | ident name => exact steady_nameMeaning h
  | member target name span =>
    obtain ⟨receiver, hreceiver, h⟩ := exists_of_result_bind (fun _ => rfl) h
    apply steady_bind (steady_denote hs target hreceiver)
    rw [hreceiver]
    exact steady_memberMeaning h
  | call callee arguments span =>
    obtain ⟨method, hmethod, h⟩ := exists_of_result_bind (fun _ => rfl) h
    have hcallee := steady_denote hs callee hmethod
    apply steady_bind hcallee
    rw [hmethod]
    apply steady_bind (steady_denoteAll (typed_after hcallee hs) arguments
      (not_mem_of_callResult h))
    exact steady_callResult h
  | new className arguments span =>
    obtain ⟨ty, hty, h⟩ := exists_of_result_bind (fun _ => rfl) h
    apply steady_bind (steady_expectType hty)
    rw [hty]
    dsimp only at h ⊢
    rw [classes_bind_apply] at h
    split at h
    · next hinstantiable =>
      split at h
      · next hempty =>
        apply steady_classes_bind
        · rw [if_pos hinstantiable, if_pos hempty]
          exact steady_pure _
        · intro wide hw
          rw [if_pos hinstantiable, if_pos (hw.isInstantiable hinstantiable)]
      · cases h
    · cases h
  | unary operator operand span =>
    obtain ⟨operandMeaning, hoperand, h⟩ := exists_of_result_bind (fun _ => rfl) h
    apply steady_bind (steady_denote hs operand hoperand)
    rw [hoperand]
    exact steady_unaryMeaning h
  | binary left operator right span =>
    obtain ⟨leftMeaning, hleft, h⟩ := exists_of_result_bind (fun _ => rfl) h
    obtain ⟨rightMeaning, hright, h⟩ := exists_of_result_bind (fun _ => rfl) h
    have hl := steady_denote hs left hleft
    have hlater := typed_after hl hs
    have hr := steady_denote hlater right hright
    apply steady_bind hl
    apply steady_bind hr
    rw [hleft, hright]
    refine steady_binaryMeaning (fun ty hty => ?_) (fun ty hty => ?_) h
    · exact (hl.grows.trans hr.grows).widens.registers (registers_of_denote hs hleft ty hty)
    · exact hr.grows.widens.registers (registers_of_denote hlater hright ty hty)
  | assign target operator value span =>
    obtain ⟨targetMeaning, htarget, h⟩ := exists_of_result_bind (fun _ => rfl) h
    obtain ⟨valueMeaning, hvalue, h⟩ := exists_of_result_bind (fun _ => rfl) h
    have ht := steady_denote hs target htarget
    have hlater := typed_after ht hs
    have hv := steady_denote hlater value hvalue
    apply steady_bind ht
    apply steady_bind hv
    rw [htarget, hvalue]
    refine steady_assignMeaning (fun ty hty => ?_) (fun ty hty => ?_) h
    · exact (ht.grows.trans hv.grows).widens.registers (registers_of_denote hs htarget ty hty)
    · exact hv.grows.widens.registers (registers_of_denote hlater hvalue ty hty)

theorem steady_denoteAll {table : ClassTable} (hs : scopes.Typed table.Registers) (es : List Expr)
    (h : none ∉ (denoteAll scopes es table).result) : Steady table (denoteAll scopes es) := by
  cases es with
  | nil => exact steady_pure []
  | cons e es =>
    obtain ⟨hfirst, hrest⟩ := not_or.mp (List.mem_cons.not.mp h)
    obtain ⟨meaning, hmeaning⟩ := Option.ne_none_iff_exists'.mp (Ne.symm hfirst)
    have he := steady_denote hs e hmeaning
    apply steady_bind he
    exact steady_bind (steady_denoteAll (typed_after he hs) es hrest) (steady_pure _)

end

end Expr

namespace Context

omit [Alphabet] in
theorem run_eq {α : Type} {ctx : Context} {c : Check α} {a : α} {table : ClassTable}
    (h : c ctx.classes = ⟨a, table, []⟩) : ctx.run c = (a, { ctx with classes := table }) := by
  rw [run, h]
  simp

/-- What an expression denotes does not change while names are resolved, whatever classes behind
lists these bring in, and nothing is reported. To ask a second time changes nothing at all. -/
theorem typing_monotone (ctx : Context) {scopes : ScopeStack}
    (hs : ∀ x ∈ scopes.live, ctx.classes.Registers x.ty) {e : Expr} {meaning : Meaning}
    (h : (ctx.run (e.denote scopes)).1 = some meaning) :
    (∀ later : Context, ctx.classes.Grows later.classes →
      (later.run (e.denote scopes)).1 = some meaning ∧
        (later.run (e.denote scopes)).2.diagnostics = later.diagnostics) ∧
    (ctx.run (e.denote scopes)).2.run (e.denote scopes) =
      (some meaning, (ctx.run (e.denote scopes)).2) := by
  have hsteady : Check.Steady ctx.classes (e.denote scopes) := Expr.steady_denote hs e h
  constructor
  · intro later hgrows
    obtain ⟨names, hsame⟩ := hsteady
    rw [run_eq (hsame later.classes hgrows.widens)]
    exact ⟨h, rfl⟩
  · have hagain : e.denote scopes (ctx.run (e.denote scopes)).2.classes =
        ⟨some meaning, (ctx.run (e.denote scopes)).2.classes, []⟩ :=
      hsteady.again.trans (Outcome.ext h rfl rfl)
    exact run_eq hagain

/-- Numbers inherit from a list whose class is not there until `Sorted` is asked for. -/
def withNumbers : Context where
  file := "Main.lang"
  classes := ClassTable.empty.registerAll
    [Program.simpleClass "Numbers" (some "int_list") [.provided "Numbers" "Sorted" "int_list" []]]

def numbersInSight : ScopeStack := [⟨.block, .code, [⟨"n", .classRef "Numbers", true⟩]⟩]

end Context

end ClassLang

namespace ClassLang

open ClassTable

attribute [local instance] Alphabet.unicode

namespace Context

theorem typing_monotone_with_numbers :
    let sorted : Expr :=
      .call (.member (.ident (.provided "n")) (.provided "Sorted") .nowhere) [] .nowhere
    let once := withNumbers.run (sorted.denote numbersInSight)
    let later := (withNumbers.run (Check.resolve "int_list_list")).2
    (∀ x ∈ numbersInSight.live, withNumbers.classes.Registers x.ty) ∧
      once.1 = some (.result (.list (.primitive .int))) ∧
      once.2.classes.names = ["Numbers", "int_list"] ∧
      (later.run (sorted.denote numbersInSight)).1 = some (.result (.list (.primitive .int))) ∧
      once.2.run (sorted.denote numbersInSight) =
        (some (.result (.list (.primitive .int))), once.2) := by
  intro sorted once later
  have hs : ∀ x ∈ numbersInSight.live, withNumbers.classes.Registers x.ty := by decide +kernel
  have hdenotes : once.1 = some (.result (.list (.primitive .int))) := by decide +kernel
  obtain ⟨hlater, hagain⟩ := typing_monotone withNumbers hs hdenotes
  have hgrows : withNumbers.classes.Grows later.classes := .resolve _ "int_list_list"
  exact ⟨hs, hdenotes, by decide +kernel, (hlater later hgrows).1, hagain⟩

end Context

end ClassLang
