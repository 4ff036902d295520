import ClassLang.Proofs.Honesty

namespace ClassLang

variable [Alphabet]

namespace Check

variable {excuse : Excuse} {current : Option Member}

section Operations

theorem quiet_accepts (parameters : List String) (arguments : List Ty) :
    Quiet (accepts parameters arguments) := by
  unfold accepts
  split
  · apply quiet_bind (quiet_forEach quiet_resolve parameters)
    intro expected
    apply quiet_bind quiet_classes
    intro table
    exact quiet_pure _
  · exact quiet_pure false

theorem quiet_firstAccepting (operands : List Ty) (candidates : List Member) :
    Quiet (firstAccepting operands candidates) := by
  induction candidates with
  | nil => exact quiet_pure none
  | cons m candidates ih =>
    apply quiet_bind (quiet_accepts m.parameterTypes operands)
    intro accepted
    split
    · exact quiet_resolve m.declaredType.text
    · exact ih

theorem quiet_definedOperation (operator : String) (first : Ty) (others : List Ty) :
    Quiet (definedOperation operator first others) := by
  unfold definedOperation
  split
  · exact quiet_pure none
  · apply quiet_bind quiet_classes
    intro table
    exact quiet_firstAccepting _ _

theorem quiet_unaryResult (operator : String) (operand : Ty) :
    Quiet (unaryResult operator operand) := by
  unfold unaryResult
  split
  · exact quiet_pure _
  · exact quiet_definedOperation operator operand []

theorem quiet_binaryResult (operator : String) (left right : Ty) :
    Quiet (binaryResult operator left right) := by
  unfold binaryResult
  split
  · exact quiet_pure none
  · apply quiet_bind quiet_classes
    intro table
    split
    · exact quiet_pure _
    · exact quiet_definedOperation operator left [right]

theorem honest_result (result : Option Ty) (problem : Problem) (span : Span) :
    Honest excuse False (· = none)
      (match result with
        | some ty => return some (Meaning.result ty)
        | none => refuse problem span) := by
  cases result with
  | some ty => exact honest_pure (by simp)
  | none => exact honest_refuse problem span

theorem honest_unaryMeaning (operator : String) (operand : Meaning) (span : Span) :
    Honest excuse False (· = none) (unaryMeaning operator operand span) := by
  unfold unaryMeaning
  split
  · apply honest_bind (honest_quiet (quiet_unaryResult operator _))
    intro result
    exact honest_result result _ span
  · apply honest_bind (honest_quiet (quiet_pure none))
    intro result
    exact honest_result result _ span

theorem honest_binaryMeaning (operator : String) (left right : Meaning) (span : Span) :
    Honest excuse False (· = none) (binaryMeaning operator left right span) := by
  unfold binaryMeaning
  split
  · apply honest_bind (honest_quiet (quiet_binaryResult operator _ _))
    intro result
    exact honest_result result _ span
  · apply honest_bind (honest_quiet (quiet_pure none))
    intro result
    exact honest_result result _ span

theorem honest_storedType (operator : String) (target value : Ty) (span : Span) :
    Honest excuse False (· = none) (storedType operator target value span) := by
  unfold storedType
  split
  · exact honest_pure (by simp)
  · apply honest_bind (honest_quiet (quiet_binaryResult _ target value))
    intro result
    split
    · exact honest_pure (by simp)
    · exact honest_refuse _ span

theorem honest_assignMeaning (operator : String) (target value : Meaning)
    (targetSpan valueSpan span : Span) :
    Honest excuse False (· = none)
      (assignMeaning operator target value targetSpan valueSpan span) := by
  unfold assignMeaning
  split
  · split
    · exact honest_refuse _ valueSpan
    · apply honest_bind (honest_storedType operator _ _ span)
      intro stored
      split
      · exact honest_pure (by simp)
      · apply honest_bind (honest_quiet quiet_classes)
        intro table
        split
        · exact honest_pure (by simp)
        · exact honest_refuse _ valueSpan
  · exact honest_refuse _ targetSpan

end Operations

section Access

theorem honest_nameMeaning (scopes : ScopeStack) (name : Ident) :
    Honest excuse False (· = none) (nameMeaning scopes name) := by
  unfold nameMeaning
  split
  · exact honest_pure (by simp)
  · apply honest_bind (honest_quiet (quiet_resolve name.text))
    intro ty
    apply honest_bind (honest_quiet quiet_classes)
    intro table
    split
    · exact honest_pure (by simp)
    · split
      · exact honest_pure (by simp)
      · exact honest_refuse _ name.span

theorem honest_memberOfType (scopes : ScopeStack) (ty : Ty) (throughType : Bool) (name : Ident) :
    Honest excuse False (· = none) (memberOfType scopes ty throughType name) := by
  apply honest_bind (honest_quiet quiet_classes)
  intro table
  split
  · exact honest_refuse _ name.span
  · split
    · exact honest_refuse _ name.span
    · split
      · exact honest_refuse _ name.span
      · split
        · apply honest_bind (honest_expectType _)
          intro fieldType
          split
          · exact honest_pure (by simp)
          · exact honest_pure (by simp)
        · exact honest_pure (by simp)
        · exact honest_pure (by simp)

theorem honest_memberMeaning (scopes : ScopeStack) (target : Meaning) (name : Ident) :
    Honest excuse False (· = none) (memberMeaning scopes target name) := by
  cases target with
  | value ty assignable => exact honest_memberOfType scopes ty false name
  | typeName ty => exact honest_memberOfType scopes ty true name
  | method className method throughType => exact honest_refuse _ name.span

theorem honest_matched (m : Member) (name : String) (matched : Bool) (span : Span) :
    Honest (.dangling m) False (· = none)
      (if matched then do return (← resolve m.declaredType.text).map Meaning.result
        else refuse (.argumentsDoNotMatch name) span : Check (Option Meaning)) := by
  split
  · apply honest_bind (honest_resolve m)
    intro ty
    exact honest_pure (by simp)
  · exact honest_refuse _ span

/-- A call fails silently only if the return type of the method stands for nothing. -/
theorem honest_methodResult (className name : String) (arguments : List Meaning)
    (callee span : Span) :
    Honest (.faulty current) False (· = none)
      (methodResult className name arguments callee span) := by
  apply honest_classes_bind
  intro table
  cases hm : table.findMethod? className name with
  | none => exact honest_refuse _ callee table
  | some found =>
    obtain ⟨owner, m⟩ := found
    obtain ⟨hl, r, hr⟩ := ClassTable.of_findMethod? hm
    have hc : owner ∈ table.classes := ClassTable.mem_classes_of_mem_lineage hl
    have hd : table.Dangling m → table.Faulty current := fun hd => ⟨m, hd, .inr ⟨owner, hc, r, hr⟩⟩
    split
    · exact (honest_bind (honest_quiet (quiet_accepts m.parameterTypes _))
        (fun matched => honest_matched m name matched span) table).excused hd
    · exact (honest_bind (honest_quiet (quiet_pure false))
        (fun matched => honest_matched m name matched span) table).excused hd

omit [Alphabet] in
theorem mapM_id_eq_none_iff {α : Type} {items : List (Option α)} :
    items.mapM id = none ↔ none ∈ items := by
  induction items with
  | nil => simp
  | cons item items ih =>
    cases item with
    | none => simp
    | some a =>
      cases hr : items.mapM id with
      | none => simp [hr, ← ih]
      | some rest => simp [hr, ← ih]

theorem honest_callResult (callee : Meaning) (arguments : List (Option Meaning))
    (calleeSpan span : Span) :
    Honest (.faulty current) (none ∈ arguments) (· = none)
      (callResult callee arguments calleeSpan span) := by
  cases callee with
  | method className name throughType =>
    unfold callResult
    dsimp only
    split
    · next values hv =>
      have hn : none ∉ arguments := by
        rw [← mapM_id_eq_none_iff, hv]
        simp
      exact (honest_methodResult className name values calleeSpan span).first hn
    · next hv => exact honest_pure (by simp [mapM_id_eq_none_iff.mp hv])
  | value ty assignable => exact honest_refuse _ calleeSpan
  | typeName ty => exact honest_refuse _ calleeSpan

end Access

end Check

namespace Expr

open Check

variable {excuse : Excuse} {current : Option Member}

mutual

/-- An expression that denotes nothing is reported, unless a declared type stands for nothing. -/
theorem honest_denote (scopes : ScopeStack) (e : Expr) :
    Honest (.faulty current) False (· = none) (e.denote scopes) := by
  cases e with
  | literal kind text span => exact honest_pure (by simp)
  | ident name => exact honest_nameMeaning scopes name
  | member target name span =>
    apply honest_bind (honest_denote scopes target)
    intro meaning
    split
    · exact (honest_memberMeaning scopes _ name).first (by simp)
    · exact honest_pure (by simp)
  | call callee arguments span =>
    apply honest_bind (honest_denote scopes callee)
    intro meaning
    split
    · apply honest_bind ((honest_denoteAll scopes arguments).first (by simp))
      intro meanings
      exact honest_callResult _ meanings callee.span span
    · exact honest_pure (by simp)
  | new className arguments span =>
    apply honest_bind (honest_expectType className)
    intro ty
    split
    · exact honest_pure (by simp)
    · apply honest_bind (honest_quiet quiet_classes)
      intro table
      split
      · split
        · exact honest_pure (by simp)
        · apply honest_bind ((honest_denoteAll scopes arguments).after _)
          intro meanings
          exact honest_refuse _ span
      · exact honest_refuse _ className.span
  | unary operator operand span =>
    apply honest_bind (honest_denote scopes operand)
    intro meaning
    split
    · exact (honest_unaryMeaning operator _ span).first (by simp)
    · exact honest_pure (by simp)
  | binary left operator right span =>
    apply honest_bind (honest_denote scopes left)
    intro leftMeaning
    apply honest_bind ((honest_denote scopes right).after _)
    intro rightMeaning
    match leftMeaning, rightMeaning with
    | some left, some right =>
      exact (honest_binaryMeaning operator left right span).first (by simp)
    | none, _ => exact honest_pure (by simp)
    | some _, none => exact honest_pure (by simp)
  | assign target operator value span =>
    apply honest_bind (honest_denote scopes target)
    intro targetMeaning
    apply honest_bind ((honest_denote scopes value).after _)
    intro valueMeaning
    match targetMeaning, valueMeaning with
    | some meaning, some stored =>
      exact (honest_assignMeaning operator meaning stored target.span value.span span).first
        (by simp)
    | none, _ => exact honest_pure (by simp)
    | some _, none => exact honest_pure (by simp)

theorem honest_denoteAll (scopes : ScopeStack) (es : List Expr) :
    Honest (.faulty current) False (none ∈ ·) (denoteAll scopes es) := by
  cases es with
  | nil => exact honest_pure (by simp)
  | cons e es =>
    apply honest_bind (honest_denote scopes e)
    intro meaning
    apply honest_bind ((honest_denoteAll scopes es).after _)
    intro meanings
    exact honest_pure (by simp [eq_comm])

end

theorem honest_checkInitializer (scopes : ScopeStack) (declared : Ty) (e : Expr) :
    Honest (.faulty current) False (· = true) (e.checkInitializer scopes declared) := by
  apply honest_bind (honest_denote scopes e)
  intro meaning
  split
  · exact honest_pure (by simp)
  · apply honest_bind (honest_quiet quiet_classes)
    intro table
    exact (honest_failIf _ _ e.span).first (by simp)
  · exact honest_fail _ e.span

theorem honest_checkCondition (scopes : ScopeStack) (e : Expr) :
    Honest (.faulty current) False (· = true) (e.checkCondition scopes) := by
  apply honest_bind (honest_denote scopes e)
  intro meaning
  split
  · exact honest_pure (by simp)
  · exact (honest_failIf _ _ e.span).first (by simp)

theorem honest_checkDenotes (scopes : ScopeStack) (e : Expr) :
    Honest (.faulty current) False (· = true) (e.checkDenotes scopes) := by
  apply honest_bind (honest_denote scopes e)
  intro meaning
  exact honest_pure (by simp)

end Expr

end ClassLang
