import ClassLang.Check.Expr
import ClassLang.Proofs.Blindness

namespace ClassLang

variable {rev : Revision}

variable [Alphabet]

namespace Check

section Operations

theorem blind_accepts (parameters : List String) (arguments : List Ty) :
    Blind rev (accepts parameters arguments) (accepts parameters arguments) := by
  unfold accepts
  split
  · apply blind_bind (blind_forEach_resolve parameters)
    intro expected
    apply blind_classes_bind
    intro table
    simp only [table.isAssignable_revised]
    exact blind_pure _
  · exact blind_pure _

theorem blind_firstAccepting (operands : List Ty) (candidates : List Member) :
    Blind rev (firstAccepting operands candidates)
      (firstAccepting operands (candidates.map (Member.revised rev))) := by
  induction candidates with
  | nil => exact blind_pure none
  | cons m candidates ih =>
    rw [List.map_cons, firstAccepting, firstAccepting, m.parameterTypes_revised]
    apply blind_bind (blind_accepts m.parameterTypes operands)
    intro accepted
    cases accepted with
    | true => exact blind_resolve m.declaredType.text
    | false => exact ih

theorem blind_definedOperation (operator : String) (first : Ty) (others : List Ty) :
    Blind rev (definedOperation operator first others)
      (definedOperation operator first others) := by
  unfold definedOperation
  split
  · exact blind_pure none
  · apply blind_classes_bind
    intro table
    rw [table.operatorCandidates_revised]
    exact blind_firstAccepting _ _

theorem blind_unaryResult (operator : String) (operand : Ty) :
    Blind rev (unaryResult operator operand) (unaryResult operator operand) := by
  unfold unaryResult
  split
  · exact blind_pure _
  · exact blind_definedOperation operator operand []

theorem blind_binaryResult (operator : String) (left right : Ty) :
    Blind rev (binaryResult operator left right) (binaryResult operator left right) := by
  unfold binaryResult
  split
  · exact blind_pure none
  · apply blind_classes_bind
    intro table
    rw [table.builtinBinary_revised]
    split
    · exact blind_pure _
    · exact blind_definedOperation operator left [right]

omit [Alphabet] in
theorem blind_result (result : Option Ty) (problem : Problem) (span : Span) :
    Blind rev
      (match result with
        | some ty => return some (Meaning.result ty)
        | none => refuse problem span)
      (match result with
        | some ty => return some (Meaning.result ty)
        | none => refuse problem (rev.place span)) := by
  cases result with
  | some ty => exact blind_pure _
  | none => exact blind_refuse problem span

theorem blind_unaryMeaning (operator : String) (operand : Meaning) (span : Span) :
    Blind rev (unaryMeaning operator operand span)
      (unaryMeaning operator operand (rev.place span)) := by
  unfold unaryMeaning
  cases operand.valueType? with
  | some ty =>
    apply blind_bind (blind_unaryResult operator ty)
    intro result
    exact blind_result result _ span
  | none => exact blind_result none _ span

theorem blind_binaryMeaning (operator : String) (left right : Meaning) (span : Span) :
    Blind rev (binaryMeaning operator left right span)
      (binaryMeaning operator left right (rev.place span)) := by
  unfold binaryMeaning
  split
  · next leftType rightType _ _ =>
    apply blind_bind (blind_binaryResult operator leftType rightType)
    intro result
    exact blind_result result _ span
  · exact blind_result none _ span

theorem blind_storedType (operator : String) (target value : Ty) (span : Span) :
    Blind rev (storedType operator target value span)
      (storedType operator target value (rev.place span)) := by
  unfold storedType
  split
  · exact blind_pure _
  · next binary _ =>
    apply blind_bind (blind_binaryResult binary target value)
    intro result
    cases result with
    | some ty => exact blind_pure _
    | none => exact blind_refuse _ span

theorem blind_assignMeaning (operator : String) (target value : Meaning)
    (targetSpan valueSpan span : Span) :
    Blind rev (assignMeaning operator target value targetSpan valueSpan span)
      (assignMeaning operator target value (rev.place targetSpan) (rev.place valueSpan)
        (rev.place span)) := by
  unfold assignMeaning
  split
  · next targetType =>
    cases value.valueType? with
    | none => exact blind_refuse _ valueSpan
    | some valueType =>
      apply blind_bind (blind_storedType operator targetType valueType span)
      intro stored
      cases stored with
      | none => exact blind_pure none
      | some stored =>
        apply blind_classes_bind
        intro table
        rw [table.isAssignable_revised]
        exact blind_ite (blind_pure _) (blind_refuse _ valueSpan)
  · exact blind_refuse _ targetSpan

end Operations

section Access

theorem blind_nameMeaning (scopes : ScopeStack) (name : Ident) :
    Blind rev (nameMeaning scopes name) (nameMeaning (scopes.revised rev) (name.revised rev)) := by
  unfold nameMeaning
  rw [scopes.lookup?_revised, name.text_revised]
  cases scopes.lookup? name.text with
  | some v => exact blind_pure _
  | none =>
    apply blind_bind (blind_resolve name.text)
    intro ty
    apply blind_classes_bind
    intro table
    cases ty.filter (fun ty => !ty.isVoid) with
    | some ty => exact blind_pure _
    | none =>
      rw [scopes.currentClass?_revised]
      cases scopes.currentClass? with
      | none => exact blind_refuse _ name.span
      | some c =>
        rw [Option.map_some, Option.bind_some, Option.bind_some, c.name_revised,
          table.findMethod?_revised]
        cases table.findMethod? c.name name.text with
        | none => exact blind_refuse _ name.span
        | some found => exact blind_pure _

theorem blind_memberOfType (scopes : ScopeStack) (ty : Ty) (throughType : Bool) (name : Ident) :
    Blind rev (memberOfType scopes ty throughType name)
      (memberOfType (scopes.revised rev) ty throughType (name.revised rev)) := by
  apply blind_classes_bind
  intro table
  cases ty.className? with
  | none => exact blind_refuse _ name.span
  | some className =>
    rw [Option.bind_some, Option.bind_some, table.findMember?_revised, name.text_revised]
    cases table.findMember? className name.text with
    | none => exact blind_refuse _ name.span
    | some found =>
      obtain ⟨owner, m⟩ := found
      dsimp only [Option.map_some, ClassTable.revisedFound, Prod.map]
      rw [table.isAccessible_revised]
      refine blind_ite (blind_refuse _ name.span) (blind_ite (blind_refuse _ name.span) ?_)
      dsimp only [Member.revised]
      cases m.kind with
      | field declarators =>
        apply blind_bind (blind_expectType ⟨m.declaredType.text, name.span⟩)
        intro fieldType
        cases fieldType with
        | some fieldType => exact blind_pure _
        | none => exact blind_pure none
      | method routine | operator routine => exact blind_pure _

theorem blind_memberMeaning (scopes : ScopeStack) (target : Meaning) (name : Ident) :
    Blind rev (memberMeaning scopes target name)
      (memberMeaning (scopes.revised rev) target (name.revised rev)) := by
  cases target with
  | value ty assignable => exact blind_memberOfType scopes ty false name
  | typeName ty => exact blind_memberOfType scopes ty true name
  | method className method throughType => exact blind_refuse _ name.span

theorem blind_methodResult (className name : String) (arguments : List Meaning)
    (callee span : Span) :
    Blind rev (methodResult className name arguments callee span)
      (methodResult className name arguments (rev.place callee) (rev.place span)) := by
  apply blind_classes_bind
  intro table
  rw [table.findMethod?_revised]
  cases table.findMethod? className name with
  | none => exact blind_refuse _ callee
  | some found =>
    obtain ⟨owner, m⟩ := found
    have hlast (matched : Bool) : Blind rev
        (if matched then do return (← resolve m.declaredType.text).map Meaning.result
          else refuse (.argumentsDoNotMatch name) span)
        (if matched then do return (← resolve m.declaredType.text).map Meaning.result
          else refuse (.argumentsDoNotMatch name) (rev.place span)) := by
      refine blind_ite (blind_bind (blind_resolve m.declaredType.text) fun ty => ?_)
        (blind_refuse _ span)
      exact blind_pure _
    dsimp only [Option.map_some, ClassTable.revisedFound, Prod.map]
    rw [m.parameterTypes_revised]
    cases arguments.mapM Meaning.valueType? with
    | some types => exact blind_bind (blind_accepts m.parameterTypes types) hlast
    | none => exact hlast false

theorem blind_callResult (callee : Meaning) (arguments : List (Option Meaning))
    (calleeSpan span : Span) :
    Blind rev (callResult callee arguments calleeSpan span)
      (callResult callee arguments (rev.place calleeSpan) (rev.place span)) := by
  cases callee with
  | method className name throughType =>
    unfold callResult
    dsimp only
    split
    · exact blind_methodResult className name _ calleeSpan span
    · exact blind_pure none
  | value ty assignable => exact blind_refuse _ calleeSpan
  | typeName ty => exact blind_refuse _ calleeSpan

end Access

end Check

namespace Expr

open Check

variable (scopes : ScopeStack)

mutual

theorem blind_denote (e : Expr) :
    Blind rev (e.denote scopes) ((e.revised rev).denote (scopes.revised rev)) := by
  cases e with
  | literal kind text span => exact blind_pure _
  | ident name => exact blind_nameMeaning scopes name
  | member target name span =>
    apply blind_bind (blind_denote target)
    intro meaning
    cases meaning with
    | none => exact blind_pure none
    | some target => exact blind_memberMeaning scopes target name
  | call callee arguments span =>
    apply blind_bind (blind_denote callee)
    intro meaning
    cases meaning with
    | none => exact blind_pure none
    | some method =>
      apply blind_bind (blind_denoteAll arguments)
      intro meanings
      rw [callee.span_revised]
      exact blind_callResult method meanings callee.span span
  | new className arguments span =>
    apply blind_bind (blind_expectType className)
    intro ty
    cases ty with
    | none => exact blind_pure none
    | some ty =>
      apply blind_classes_bind
      intro table
      rw [table.isInstantiable_revised]
      split
      · cases arguments with
        | nil => exact blind_pure _
        | cons first rest =>
          apply blind_bind (blind_denoteAll (first :: rest))
          intro _
          exact blind_refuse _ span
      · exact blind_refuse _ className.span
  | unary operator operand span =>
    apply blind_bind (blind_denote operand)
    intro meaning
    cases meaning with
    | none => exact blind_pure none
    | some operand => exact blind_unaryMeaning operator operand span
  | binary left operator right span =>
    apply blind_bind (blind_denote left)
    intro leftMeaning
    apply blind_bind (blind_denote right)
    intro rightMeaning
    split
    · exact blind_binaryMeaning operator _ _ span
    · exact blind_pure none
  | assign target operator value span =>
    apply blind_bind (blind_denote target)
    intro targetMeaning
    apply blind_bind (blind_denote value)
    intro valueMeaning
    rw [target.span_revised, value.span_revised]
    split
    · exact blind_assignMeaning operator _ _ target.span value.span span
    · exact blind_pure none

theorem blind_denoteAll (es : List Expr) :
    Blind rev (denoteAll scopes es) (denoteAll (scopes.revised rev) (revisedAll rev es)) := by
  cases es with
  | nil => exact blind_pure []
  | cons e rest =>
    apply blind_bind (blind_denote e)
    intro meaning
    apply blind_bind (blind_denoteAll rest)
    intro meanings
    exact blind_pure _

end

theorem blind_checkInitializer (declared : Ty) (e : Expr) :
    Blind rev (e.checkInitializer scopes declared)
      ((e.revised rev).checkInitializer (scopes.revised rev) declared) := by
  apply blind_bind (blind_denote scopes e)
  intro meaning
  rw [e.span_revised]
  split
  · exact blind_pure true
  · apply blind_classes_bind
    intro table
    rw [table.isAssignable_revised]
    exact blind_failIf _ _ e.span
  · exact blind_fail _ e.span

theorem blind_checkCondition (e : Expr) :
    Blind rev (e.checkCondition scopes) ((e.revised rev).checkCondition (scopes.revised rev)) := by
  apply blind_bind (blind_denote scopes e)
  intro meaning
  rw [e.span_revised]
  cases meaning with
  | none => exact blind_pure true
  | some meaning => exact blind_failIf _ _ e.span

theorem blind_checkDenotes (e : Expr) :
    Blind rev (e.checkDenotes scopes) ((e.revised rev).checkDenotes (scopes.revised rev)) := by
  apply blind_bind (blind_denote scopes e)
  intro meaning
  exact blind_pure _

end Expr

end ClassLang
