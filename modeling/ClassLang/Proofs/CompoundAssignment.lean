import ClassLang.Proofs.SteadyTyping
import ClassLang.Types.WordChar

namespace ClassLang

theorem compoundOperator?_append {operator : String} (h : operator ≠ "") :
    compoundOperator? (operator ++ "=") = some operator := by
  have hlist : (operator ++ "=").toList = operator.toList ++ ['='] := String.toList_append
  have hne : operator.toList ≠ [] := by simpa using h
  simp only [compoundOperator?, hlist, List.dropLast_concat]
  rw [if_pos ⟨by simp, hne⟩, String.ofList_toList]

theorem compoundOperator?_plain : compoundOperator? "=" = none := by decide

namespace Check

variable {α β : Type} {table : ClassTable}

/-- If one of the two checks succeeds, then so does the other, with the same outcome. -/
def SameSuccess (table : ClassTable) (c d : Check (Option α)) : Prop :=
  (c table).result ≠ none ∨ (d table).result ≠ none → c table = d table

theorem sameSuccess_of_none {c d : Check (Option α)} (hc : (c table).result = none)
    (hd : (d table).result = none) : SameSuccess table c d := by
  rintro (h | h)
  · exact absurd hc h
  · exact absurd hd h

theorem sameSuccess_bind {c : Check α} {f g : α → Check (Option β)}
    (h : SameSuccess (c table).table (f (c table).result) (g (c table).result)) :
    SameSuccess table (c >>= f) (c >>= g) := by
  intro hsome
  have he := h hsome
  apply Outcome.ext
  · rw [result_bind, result_bind, he]
  · rw [table_bind, table_bind, he]
  · rw [findings_bind, findings_bind, he]

theorem sameSuccess_classes_bind {f g : ClassTable → Check (Option β)}
    (h : SameSuccess table (f table) (g table)) :
    SameSuccess table (classes >>= f) (classes >>= g) := sameSuccess_bind h

end Check

variable [Alphabet]

namespace Check

variable {table : ClassTable}

theorem result_assignMeaning_eq_none {target : Meaning} (h : target.isAssignable = false)
    (operator : String) (value : Meaning) (targetSpan valueSpan span : Span) (table : ClassTable) :
    (assignMeaning operator target value targetSpan valueSpan span table).result = none := by
  cases target with
  | value ty assignable =>
    obtain rfl : assignable = false := h
    rfl
  | typeName ty => rfl
  | method className name throughType => rfl

section Store

variable {operator : String} {value : Meaning}
  {targetSpan valueSpan span resultSpan outer inner : Span}
  {g : Option Meaning → Check (Option Meaning)}

/-- With a target that can be assigned to, both sides ask for the type of the operation and then
whether the target can store it. -/
theorem sameSuccess_store {targetType : Ty} (ho : operator ≠ "") (hnone : g none = pure none)
    (hsome : ∀ stored,
      g (some stored) =
        assignMeaning "=" (.value targetType true) stored targetSpan resultSpan outer) :
    SameSuccess table
      (assignMeaning (operator ++ "=") (.value targetType true) value targetSpan valueSpan span)
      (binaryMeaning operator (.value targetType true) value inner >>= g) := by
  have hstops (later : ClassTable) : (g none later).result = none := by
    rw [hnone]
    rfl
  unfold assignMeaning binaryMeaning
  cases hv : value.valueType? with
  | none => exact sameSuccess_of_none rfl (hstops table)
  | some valueType =>
    dsimp only [Meaning.valueType?]
    rw [storedType, compoundOperator?_append ho]
    dsimp only
    rw [bind_assoc, bind_assoc]
    apply sameSuccess_bind
    cases (binaryResult operator targetType valueType table).result with
    | none => exact sameSuccess_of_none rfl (hstops _)
    | some ty =>
      have hplain : storedType "=" targetType ty outer = pure (some ty) := by
        rw [storedType, compoundOperator?_plain]
      dsimp only
      rw [pure_bind, pure_bind, hsome]
      change SameSuccess _ _ (storedType "=" targetType ty outer >>= _)
      rw [hplain, pure_bind]
      apply sameSuccess_classes_bind
      split
      · exact fun _ => rfl
      · exact sameSuccess_of_none rfl rfl

theorem sameSuccess_assignMeaning {target : Meaning} (ho : operator ≠ "")
    (hnone : g none = pure none)
    (hsome : ∀ stored,
      g (some stored) = assignMeaning "=" target stored targetSpan resultSpan outer) :
    SameSuccess table
      (assignMeaning (operator ++ "=") target value targetSpan valueSpan span)
      (binaryMeaning operator target value inner >>= g) := by
  cases ht : target.isAssignable with
  | false =>
    apply sameSuccess_of_none (result_assignMeaning_eq_none ht ..)
    rw [result_bind]
    cases (binaryMeaning operator target value inner table).result with
    | none =>
      rw [hnone]
      rfl
    | some stored => rw [hsome, result_assignMeaning_eq_none ht]
  | true =>
    cases target with
    | value targetType assignable =>
      obtain rfl : assignable = true := ht
      exact sameSuccess_store ho hnone hsome
    | typeName ty => cases ht
    | method className name throughType => cases ht

end Store

end Check

namespace Expr

open Check

variable {scopes : ScopeStack} {table : ClassTable}

theorem sameSuccess_denote (hs : scopes.Typed table.Registers) (x v : Expr) {operator : String}
    (ho : operator ≠ "") (span outer inner : Span) :
    SameSuccess table ((assign x (operator ++ "=") v span).denote scopes)
      ((assign x "=" (binary x operator v inner) outer).denote scopes) := by
  rw [denote, denote]
  apply sameSuccess_bind
  cases hx : (x.denote scopes table).result with
  | none => exact sameSuccess_of_none rfl rfl
  | some target =>
    -- the expansion looks at `x` once more, on the table that the first look has left
    have hagain := (steady_denote hs x hx).again
    rw [hx] at hagain
    generalize (x.denote scopes table).table = later at hagain
    have htwice (f : Option Meaning → Check (Option Meaning)) :
        (x.denote scopes >>= f) later = f (some target) later := bind_of_eq hagain f
    rw [denote, bind_assoc]
    unfold SameSuccess
    rw [htwice, bind_assoc]
    apply sameSuccess_bind
    cases (v.denote scopes later).result with
    | none => exact sameSuccess_of_none rfl rfl
    | some value => exact sameSuccess_assignMeaning ho rfl fun _ => rfl

end Expr

namespace Context

/-- `x op= v` denotes the same as `x = (x op v)`, if one of them denotes anything, and then both
leave the same context, to which nothing is reported. -/
theorem compound_assignment_expands (ctx : Context) {scopes : ScopeStack}
    (hs : ∀ x ∈ scopes.live, ctx.classes.Registers x.ty) (x v : Expr) {operator : String}
    (ho : operator ≠ "") (span outer inner : Span) :
    let compound := (Expr.assign x (operator ++ "=") v span).denote scopes
    let expanded := (Expr.assign x "=" (.binary x operator v inner) outer).denote scopes
    (∀ meaning, (ctx.run compound).1 = some meaning ↔ (ctx.run expanded).1 = some meaning) ∧
      ((ctx.run compound).1 ≠ none →
        (ctx.run compound).2 = (ctx.run expanded).2 ∧
          (ctx.run compound).2.diagnostics = ctx.diagnostics) := by
  intro compound expanded
  have hsame : Check.SameSuccess ctx.classes compound expanded :=
    Expr.sameSuccess_denote hs x v ho span outer inner
  have hrun (h : (ctx.run compound).1 ≠ none ∨ (ctx.run expanded).1 ≠ none) :
      ctx.run compound = ctx.run expanded := by
    unfold run
    rw [hsame h]
  refine ⟨fun meaning => ⟨fun h => ?_, fun h => ?_⟩, fun h => ⟨?_, ?_⟩⟩
  · rw [← hrun (.inl (by simp [h])), h]
  · rw [hrun (.inr (by simp [h])), h]
  · rw [hrun (.inl h)]
  · obtain ⟨meaning, hmeaning⟩ := Option.ne_none_iff_exists'.mp h
    obtain ⟨names, hquiet⟩ := Expr.steady_denote hs _ hmeaning
    rw [run_eq (hquiet ctx.classes (.refl _))]

/-- Totals can be added to by numbers, and a `Ledger` lists them. The class behind that list is not
there until `All` is asked for. -/
def withLedger : Context where
  file := "Main.lang"
  classes := ClassTable.empty.registerAll
    [Program.simpleClass "Total" none [
      { Member.provided "Total" "" "Total" [] with
        isStatic := true
        kind := .operator ⟨.provided "+", [.provided "Total" "t", .provided "int" "n"], none⟩ },
      { Member.provided "Total" "" "Total" [] with
        kind := .field [⟨.provided "carried", none, .nowhere⟩] }],
     Program.simpleClass "Ledger" none [.provided "Ledger" "All" "Total_list" []]]

def ledgerInSight : ScopeStack := [⟨.block, .code, [⟨"ledger", .classRef "Ledger", true⟩]⟩]

end Context

end ClassLang

namespace ClassLang

attribute [local instance] Alphabet.unicode

namespace Context

/-- `ledger.All().At(0).carried += 1` -/
theorem compound_assignment_expands_in_ledger :
    let one : Expr := .literal .integer "1" .nowhere
    let ask (e : Expr) (name : String) (arguments : List Expr) : Expr :=
      .call (.member e (.provided name) .nowhere) arguments .nowhere
    let carried : Expr :=
      .member (ask (ask (.ident (.provided "ledger")) "All" []) "At" [one]) (.provided "carried")
        .nowhere
    let compound := (Expr.assign carried "+=" one .nowhere).denote ledgerInSight
    let expanded :=
      (Expr.assign carried "=" (.binary carried "+" one .nowhere) .nowhere).denote ledgerInSight
    (∀ x ∈ ledgerInSight.live, withLedger.classes.Registers x.ty) ∧
      (withLedger.run compound).1 = some (.result (.classRef "Total")) ∧
      (withLedger.run expanded).1 = some (.result (.classRef "Total")) ∧
      (withLedger.run compound).2 = (withLedger.run expanded).2 ∧
      (withLedger.run compound).2.classes.names = ["Total", "Ledger", "Total_list"] ∧
      (withLedger.run compound).2.diagnostics = [] := by
  intro one ask carried compound expanded
  have hs : ∀ x ∈ ledgerInSight.live, withLedger.classes.Registers x.ty := by decide +kernel
  have hcompound : (withLedger.run compound).1 = some (.result (.classRef "Total")) := by
    decide +kernel
  obtain ⟨hiff, hsame⟩ := compound_assignment_expands withLedger hs carried one
    (show "+" ≠ "" by decide) .nowhere .nowhere .nowhere
  obtain ⟨hcontext, hquiet⟩ := hsame (hcompound.trans_ne nofun)
  exact ⟨hs, hcompound, (hiff _).mp hcompound, hcontext, by decide +kernel, hquiet⟩

end Context

end ClassLang
