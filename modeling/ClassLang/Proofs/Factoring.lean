import ClassLang.Analysis

namespace ClassLang

variable {α β : Type}

section Loops

variable {m : Type → Type} [Monad m] [LawfulMonad m]

/-- A loop that goes on after a failure. -/
theorem forIn_eq_anyFails {body : α → Bool → m (ForInStep Bool)} (f : α → m Bool)
    (h : ∀ a failed, body a failed = do return .yield (failed || (← f a))) (items : List α)
    (failed : Bool) :
    forIn items failed body = do return failed || (← anyFails f items) := by
  induction items generalizing failed with
  | nil => simp only [List.forIn_nil, anyFails, pure_bind, Bool.or_false]
  | cons a items ih => simp only [List.forIn_cons, anyFails, h, ih, bind_assoc, pure_bind,
      Bool.or_assoc]

/-- A loop that ends at the first failure. -/
theorem forIn_eq_failsAt {body : α → Option Bool × Unit → m (ForInStep (Option Bool × Unit))}
    (f : α → m Bool)
    (h : ∀ a state, body a state = do
      if ← f a then return .done (some true, ()) else return .yield (none, ()))
    (items : List α) :
    forIn items (none, ()) body = do
      if ← failsAt f items then return (some true, ()) else return (none, ()) := by
  induction items with
  | nil => simp [failsAt]
  | cons a items ih =>
    rw [List.forIn_cons, h, failsAt, bind_assoc, bind_assoc]
    refine bind_congr fun failed => ?_
    cases failed with
    | true => simp
    | false => simpa using ih

theorem anyFails_append (f : α → m Bool) (items more : List α) :
    anyFails f (items ++ more) = do
      let failed ← anyFails f items
      let restFailed ← anyFails f more
      return failed || restFailed := by
  induction items with
  | nil => simp only [List.nil_append, anyFails, pure_bind, Bool.false_or, bind_pure]
  | cons a items ih =>
    simp only [List.cons_append, anyFails, ih, bind_assoc, pure_bind, Bool.or_assoc]

theorem anyFails_flatMap (f : β → m Bool) (g : α → List β) (items : List α) :
    anyFails f (items.flatMap g) = anyFails (fun a => anyFails f (g a)) items := by
  induction items with
  | nil => rfl
  | cons a items ih => rw [List.flatMap_cons, anyFails_append, ih, anyFails]

theorem anyFails_filterMap (f : β → m Bool) (g : α → Option β) (items : List α) :
    anyFails f (items.filterMap g) = anyFails (fun a => (g a).elim (pure false) f) items := by
  induction items with
  | nil => rfl
  | cons a items ih =>
    cases h : g a with
    | none => simp only [List.filterMap_cons_none h, anyFails, h, ih, Option.elim_none, pure_bind,
        Bool.false_or, bind_pure]
    | some b => simp only [List.filterMap_cons_some h, anyFails, h, ih, Option.elim_some]

end Loops

namespace Check

/-- A check as a run, which looks at the classes only and files what is found. -/
def toRun (c : Check α) : Run α := fun ctx => ctx.run c

theorem toRun_pure (a : α) : (pure a : Check α).toRun = pure a := by
  funext ctx
  have hrun : ctx.run (pure a) = (a, ctx) := by simp [Context.run, pure]
  exact hrun

theorem toRun_bind (c : Check α) (f : α → Check β) :
    (c >>= f).toRun = c.toRun >>= fun a => (f a).toRun := by
  funext ctx
  simp [toRun, Context.run, bind, StateT.bind]

theorem toRun_report (problem : Problem) (span : Span) :
    (report problem span).toRun = Run.report problem span := rfl

theorem toRun_classes : classes.toRun = Run.classes := by
  funext ctx
  simp [toRun, Context.run, classes, Run.classes]
  rfl

theorem toRun_fail (problem : Problem) (span : Span) :
    (fail problem span).toRun = do
      Run.report problem span
      return true := by
  rw [fail, toRun_bind, toRun_report, toRun_pure]

theorem toRun_refuse (problem : Problem) (span : Span) :
    (refuse problem span : Check (Option α)).toRun = do
      Run.report problem span
      return none := by
  rw [refuse, toRun_bind, toRun_report, toRun_pure]

theorem toRun_failIf (condition : Bool) (problem : Problem) (span : Span) :
    (failIf condition problem span).toRun = Run.failIf condition problem span := by
  cases condition with
  | false => exact toRun_pure false
  | true => exact toRun_fail problem span

theorem toRun_forEach (f : α → Check β) (items : List α) :
    (forEach f items).toRun = forEach (fun a => (f a).toRun) items := by
  induction items with
  | nil => exact toRun_pure []
  | cons a items ih => simp only [forEach, toRun_bind, toRun_pure, ih]

theorem toRun_anyFails (f : α → Check Bool) (items : List α) :
    (anyFails f items).toRun = anyFails (fun a => (f a).toRun) items := by
  induction items with
  | nil => exact toRun_pure false
  | cons a items ih => simp only [anyFails, toRun_bind, toRun_pure, ih]

theorem mapM_id_eq (items : List (Option α)) :
    items.mapM id = if items.any Option.isNone then none else some (items.filterMap id) := by
  induction items with
  | nil => rfl
  | cons item items ih =>
    cases item with
    | none => rfl
    | some a =>
      rw [List.mapM_cons, ih]
      cases h : items.any Option.isNone <;> simp [h]

variable [Alphabet]

theorem toRun_resolve (name : String) : (resolve name).toRun = Run.resolve name := by
  funext ctx
  simp [toRun, Context.run, resolve, Run.resolve]
  rfl

theorem toRun_expectType (name : Ident) : (expectType name).toRun = Run.expectType name := by
  rw [expectType, Run.expectType, toRun_bind, toRun_resolve]
  refine bind_congr fun ty => ?_
  cases ty with
  | none => exact toRun_refuse _ _
  | some ty => exact toRun_pure _

theorem toRun_expectValueType (name : Ident) :
    (expectValueType name).toRun = Run.expectValueType name := by
  rw [expectValueType, Run.expectValueType, toRun_bind, toRun_expectType]
  refine bind_congr fun ty => ?_
  match ty with
  | none => exact toRun_pure none
  | some .void => exact toRun_refuse _ _
  | some (.primitive _) | some (.classRef _) | some (.list _) => exact toRun_pure _

theorem toRun_accepts (parameters : List String) (arguments : List Ty) :
    (accepts parameters arguments).toRun = Run.accepts parameters arguments := by
  unfold accepts Run.accepts
  split
  · simp only [toRun_bind, toRun_forEach, toRun_resolve, toRun_classes, toRun_pure, ne_eq,
      not_true_eq_false, if_false, *]
  · simp only [toRun_pure, *]

theorem toRun_firstAccepting (operands : List Ty) (candidates : List Member) :
    (firstAccepting operands candidates).toRun = do
      for m in candidates do
        if ← Run.accepts m.parameterTypes operands then
          return ← Run.resolve m.declaredType.text
      return none := by
  induction candidates with
  | nil => simp [firstAccepting, toRun_pure]
  | cons m rest ih =>
    rw [firstAccepting, toRun_bind, toRun_accepts, List.forIn_cons, bind_assoc, bind_assoc]
    refine bind_congr fun accepted => ?_
    cases accepted with
    | true => simp [toRun_resolve]
    | false => simpa using ih

theorem toRun_definedOperation (operator : String) (first : Ty) (others : List Ty) :
    (definedOperation operator first others).toRun =
      Run.definedOperation operator (first :: others) := by
  unfold definedOperation Run.definedOperation
  rw [List.head?_cons, Option.bind_some, List.length_cons]
  cases first.className? with
  | none => exact toRun_pure none
  | some className => simp only [toRun_bind, toRun_classes, toRun_firstAccepting]

theorem toRun_unaryResult (operator : String) (operand : Ty) :
    (unaryResult operator operand).toRun = Run.unaryResult operator operand := by
  unfold unaryResult Run.unaryResult
  cases builtinUnary operator operand with
  | none => exact toRun_definedOperation operator operand []
  | some ty => exact toRun_pure _

theorem toRun_binaryResult (operator : String) (left right : Ty) :
    (binaryResult operator left right).toRun = Run.binaryResult operator left right := by
  unfold binaryResult Run.binaryResult
  split
  · exact toRun_pure none
  · rw [toRun_bind, toRun_classes]
    refine bind_congr fun table => ?_
    cases table.builtinBinary operator left right with
    | none => exact toRun_definedOperation operator left [right]
    | some ty => exact toRun_pure _

theorem toRun_unaryMeaning (operator : String) (operand : Meaning) (span : Span) :
    (unaryMeaning operator operand span).toRun = Run.unaryMeaning operator operand span := by
  unfold unaryMeaning Run.unaryMeaning
  cases operand.valueType? with
  | none => simp only [pure_bind, toRun_refuse]
  | some ty =>
    simp only [toRun_bind, toRun_unaryResult]
    refine bind_congr fun result => ?_
    cases result with
    | none => exact toRun_refuse _ _
    | some ty => exact toRun_pure _

theorem toRun_binaryMeaning (operator : String) (left right : Meaning) (span : Span) :
    (binaryMeaning operator left right span).toRun =
      Run.binaryMeaning operator left right span := by
  unfold binaryMeaning Run.binaryMeaning
  cases left.valueType? with
  | none => simp only [pure_bind, toRun_refuse]
  | some leftType =>
    cases right.valueType? with
    | none => simp only [pure_bind, toRun_refuse]
    | some rightType =>
      simp only [toRun_bind, toRun_binaryResult]
      refine bind_congr fun result => ?_
      cases result with
      | none => exact toRun_refuse _ _
      | some ty => exact toRun_pure _

theorem toRun_assignMeaning (operator : String) (target value : Meaning)
    (targetSpan valueSpan span : Span) :
    (assignMeaning operator target value targetSpan valueSpan span).toRun =
      Run.assignMeaning operator target value targetSpan valueSpan span := by
  have hstore (targetType stored : Ty) :
      toRun (do
        if (← classes).isAssignable stored targetType then return some (.result targetType)
        else refuse (.expressionDoesNotMatchType targetType.name stored.name) valueSpan) = (do
        if !(← Run.classes).isAssignable stored targetType then
          Run.report (.expressionDoesNotMatchType targetType.name stored.name) valueSpan
          return none
        return some (Meaning.result targetType)) := by
    rw [toRun_bind, toRun_classes]
    refine bind_congr fun table => ?_
    cases table.isAssignable stored targetType with
    | true => exact toRun_pure _
    | false => exact toRun_refuse _ _
  match target with
  | .typeName _ | .method .. | .value _ false => exact toRun_refuse _ _
  | .value targetType true =>
    unfold assignMeaning Run.assignMeaning storedType
    cases value.valueType? with
    | none => exact toRun_refuse _ _
    | some valueType =>
      cases compoundOperator? operator with
      | none => exact hstore targetType valueType
      | some binary =>
        simp only [toRun_bind, bind_assoc, toRun_binaryResult]
        refine bind_congr fun result => ?_
        cases result with
        | none => simp only [toRun_refuse, toRun_pure, bind_assoc, pure_bind]
        | some stored =>
          rw [toRun_pure, pure_bind]
          exact hstore targetType stored

theorem toRun_nameMeaning (scopes : ScopeStack) (name : Ident) :
    (nameMeaning scopes name).toRun = Run.nameMeaning scopes name := by
  unfold nameMeaning Run.nameMeaning
  cases scopes.lookup? name.text with
  | some v => exact toRun_pure _
  | none =>
    simp only [toRun_bind, toRun_resolve, toRun_classes]
    refine bind_congr fun ty => ?_
    match ty with
    | some (.primitive _) | some (.classRef _) | some (.list _) => exact toRun_pure _
    | none | some .void =>
      cases scopes.currentClass? with
      | none => exact toRun_refuse _ _
      | some c =>
        refine bind_congr fun table => ?_
        simp only [Option.bind_some, Option.filter_none, Option.filter_some]
        cases table.findMethod? c.name name.text with
        | none => exact toRun_refuse _ _
        | some found => exact toRun_pure _

theorem toRun_memberOfType (scopes : ScopeStack) (ty : Ty) (throughType : Bool) (name : Ident) :
    (memberOfType scopes ty throughType name).toRun =
      Run.memberOfType scopes ty throughType name := by
  unfold memberOfType Run.memberOfType
  rw [toRun_bind, toRun_classes]
  refine bind_congr fun table => ?_
  cases ty.className?.bind fun className => table.findMember? className name.text with
  | none => exact toRun_refuse _ _
  | some found =>
    obtain ⟨owner, m⟩ := found
    dsimp only
    split
    · exact toRun_refuse _ _
    split
    · exact toRun_refuse _ _
    cases m.kind with
    | method _ | operator _ => exact toRun_pure _
    | field declarators =>
      simp only [toRun_bind, toRun_expectType]
      refine bind_congr fun fieldType => ?_
      cases fieldType with
      | none => exact toRun_pure none
      | some fieldType => exact toRun_pure _

theorem toRun_memberMeaning (scopes : ScopeStack) (target : Meaning) (name : Ident) :
    (memberMeaning scopes target name).toRun = Run.memberMeaning scopes target name := by
  cases target with
  | value ty _ => exact toRun_memberOfType scopes ty false name
  | typeName ty => exact toRun_memberOfType scopes ty true name
  | method className method throughType => exact toRun_refuse _ _

theorem toRun_methodResult (className name : String) (arguments : List Meaning)
    (callee span : Span) :
    (methodResult className name arguments callee span).toRun =
      Run.methodResult className name arguments callee span := by
  unfold methodResult Run.methodResult
  rw [toRun_bind, toRun_classes]
  refine bind_congr fun table => ?_
  cases table.findMethod? className name with
  | none => exact toRun_refuse _ _
  | some found =>
    obtain ⟨owner, method⟩ := found
    cases arguments.mapM Meaning.valueType? with
    | none => simp [toRun_refuse]
    | some types =>
      simp only [toRun_bind, toRun_accepts]
      refine bind_congr fun matched => ?_
      cases matched with
      | false => exact toRun_refuse _ _
      | true =>
        simp only [toRun_bind, toRun_resolve, if_true]
        refine bind_congr fun returnType => ?_
        cases returnType with
        | none => exact toRun_pure none
        | some ty => exact toRun_pure _

theorem toRun_callResult (callee : Meaning) (arguments : List (Option Meaning))
    (calleeSpan span : Span) :
    (callResult callee arguments calleeSpan span).toRun = (do
      let .method className name _ := callee
        | Run.report .notAMethod calleeSpan
          return none
      if arguments.any Option.isNone then
        return none
      Run.methodResult className name (arguments.filterMap id) calleeSpan span) := by
  cases callee with
  | value _ _ | typeName _ => exact toRun_refuse _ _
  | method className name throughType =>
    rw [callResult, mapM_id_eq]
    cases arguments.any Option.isNone with
    | true => exact toRun_pure none
    | false => exact toRun_methodResult className name _ calleeSpan span

end Check

namespace Expr

open Check

variable [Alphabet]

mutual

theorem toRun_denote (scopes : ScopeStack) (e : Expr) :
    (e.denote scopes).toRun = e.examine scopes := by
  cases e with
  | literal kind _ _ => exact toRun_pure _
  | ident name => exact toRun_nameMeaning scopes name
  | member target name span =>
    rw [denote, examine, toRun_bind, toRun_denote scopes target]
    refine bind_congr fun meaning => ?_
    cases meaning with
    | none => exact toRun_pure none
    | some meaning => exact toRun_memberMeaning scopes meaning name
  | call callee arguments span =>
    rw [denote, examine, toRun_bind, toRun_denote scopes callee]
    refine bind_congr fun meaning => ?_
    cases meaning with
    | none => exact toRun_pure none
    | some method =>
      simp only [toRun_bind, examineAll_eq scopes arguments, bind_assoc, pure_bind]
      exact bind_congr fun meanings => toRun_callResult method meanings callee.span span
  | new className arguments span =>
    rw [denote, examine, toRun_bind, toRun_expectType]
    refine bind_congr fun ty => ?_
    cases ty with
    | none => exact toRun_pure none
    | some ty =>
      simp only [toRun_bind, toRun_classes]
      refine bind_congr fun table => ?_
      cases table.isInstantiable ty with
      | false => exact toRun_refuse _ _
      | true =>
        cases arguments with
        | nil => exact toRun_pure _
        | cons e rest =>
          simp only [examineAll_eq scopes (e :: rest), List.isEmpty_cons, if_true, Bool.not_true,
            Bool.not_false, Bool.false_eq_true, if_false, toRun_bind, toRun_refuse, bind_assoc,
            pure_bind]
  | unary operator operand span =>
    rw [denote, examine, toRun_bind, toRun_denote scopes operand]
    refine bind_congr fun meaning => ?_
    cases meaning with
    | none => exact toRun_pure none
    | some meaning => exact toRun_unaryMeaning operator meaning span
  | binary left operator right span =>
    simp only [denote, examine, toRun_bind, toRun_denote scopes left, toRun_denote scopes right]
    refine bind_congr fun leftMeaning => bind_congr fun rightMeaning => ?_
    match leftMeaning, rightMeaning with
    | none, _ => exact toRun_pure none
    | some _, none => exact toRun_pure none
    | some left, some right => exact toRun_binaryMeaning operator left right span
  | assign target operator value span =>
    simp only [denote, examine, toRun_bind, toRun_denote scopes target, toRun_denote scopes value]
    refine bind_congr fun targetMeaning => bind_congr fun valueMeaning => ?_
    match targetMeaning, valueMeaning with
    | none, _ => exact toRun_pure none
    | some _, none => exact toRun_pure none
    | some meaning, some other => exact toRun_assignMeaning operator meaning other _ _ span

/-- The loop over arguments keeps what they denote and forgets where one denotes nothing. -/
theorem examineAll_eq (scopes : ScopeStack) (es : List Expr) (values : List Meaning)
    (failed : Bool) :
    examineAll scopes values failed es = do
      let meanings ← (denoteAll scopes es).toRun
      return (values ++ meanings.filterMap id, failed || meanings.any Option.isNone) := by
  cases es with
  | nil => simp [examineAll, denoteAll, toRun_pure]
  | cons e rest =>
    rw [examineAll, denoteAll, toRun_bind, toRun_denote scopes e, bind_assoc]
    refine bind_congr fun meaning => ?_
    cases meaning with
    | none => simp only [examineAll_eq scopes rest, toRun_bind, toRun_pure, bind_assoc, pure_bind,
        List.filterMap_cons_none (f := id) rfl, List.any_cons, Option.isNone_none, Bool.true_or,
        Bool.or_true]
    | some meaning => simp only [examineAll_eq scopes rest, toRun_bind, toRun_pure, bind_assoc,
        pure_bind, List.filterMap_cons_some (f := id) rfl, List.append_assoc, List.any_cons,
        Option.isNone_some, Bool.false_or, List.singleton_append]

end

end Expr

end ClassLang
