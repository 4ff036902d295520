import ClassLang.Check.Expr
import ClassLang.Proofs.Agreement

namespace ClassLang

open ClassTable Mentions

theorem eq_of_builtinUnary {symbol : String} {operand ty : Ty}
    (h : builtinUnary symbol operand = some ty) : ty = operand := by
  unfold builtinUnary at h
  split at h
  · split at h <;> cases h
    rfl
  · split at h <;> cases h
    rfl
  · split at h <;> cases h
    rfl
  · cases h

theorem mentioned_builtinBinary {table : ClassTable} {symbol : String} {left right ty : Ty}
    (h : table.builtinBinary symbol left right = some ty) : mentioned ty ⊆ mentioned left := by
  unfold builtinBinary at h
  split at h
  · split at h <;> cases h
    exact subset_rfl
  · split at h <;> cases h
    exact subset_rfl
  · split at h <;> cases h
    simp
  · split at h <;> cases h
    simp
  · split at h <;> cases h
    simp
  · cases h

variable [Alphabet]

namespace Check

variable {kin : Kinship} {known : Set Query}

section Operations

/-- Whether arguments fit depends on the table only through the types of the parameters and the
classes of the arguments. -/
theorem agree_accepts {arguments : List Ty} (ha : mentioned arguments ⊆ known)
    {parameters : List String} (hp : Query.resolveAll parameters ⊆ known) :
    Agree kin known (accepts parameters arguments) := by
  rw [Query.resolveAll_subset] at hp
  unfold accepts
  split
  · apply agree_seq (agree_forEach fun name hn => agree_resolve (hp name hn))
    intro expected
    apply agree_classes_bind
    intro table other ht hk
    refine ⟨?_, rfl, ht, subset_rfl, Set.empty_subset _⟩
    rw [pure_apply, pure_apply, Bool.eq_iff_iff, List.all_eq_true, List.all_eq_true]
    refine forall₂_congr fun r hr => ?_
    have hn := mentioned_list_subset.mp (ha.trans hk) r.2 (List.of_mem_zip hr).2
    simp only [Kinship.isAssignable ht hn]
  · exact agree_pure (by simp)

theorem agree_firstAccepting {operands : List Ty} (ho : mentioned operands ⊆ known)
    {candidates : List Member} (hc : ∀ m ∈ candidates, Query.resolveAll m.signature ⊆ known) :
    Agree kin known (firstAccepting operands candidates) := by
  induction candidates with
  | nil => exact agree_pure (by simp)
  | cons m candidates ih =>
    obtain ⟨hdeclared, hparameters⟩ := Query.resolveAll_cons_subset.mp (hc m (by simp))
    apply agree_seq (agree_accepts ho hparameters)
    intro accepted
    split
    · exact agree_resolve hdeclared
    · exact ih fun n hn => hc n (by simp [hn])

theorem agree_definedOperation (operator : String) {first : Ty} {others : List Ty}
    (hf : mentioned first ⊆ known) (ho : mentioned others ⊆ known) :
    Agree kin known (definedOperation operator first others) := by
  have hall : mentioned (first :: others) ⊆ known := by
    rw [mentioned_cons]
    exact Set.union_subset hf ho
  unfold definedOperation
  split
  · exact agree_pure (by simp)
  · next className hc =>
    apply agree_classes_bind
    intro table other ht hk
    have hn := Kinship.find_className ht (hf.trans hk) hc
    rw [(Kinship.sameOn ht).operatorCandidates hn]
    refine agree_firstAccepting (hall.trans hk) (fun m hm => ?_) ht subset_rfl
    obtain ⟨owner, howner, hmember⟩ := of_mem_operatorCandidates hm
    exact (ClassDef.signature_exposed hmember).trans (Kinship.exposed_of_mem_lineage ht hn howner)

theorem agree_unaryResult (operator : String) {operand : Ty} (ho : mentioned operand ⊆ known) :
    Agree kin known (unaryResult operator operand) := by
  unfold unaryResult
  split
  · next ty hty =>
    obtain rfl := eq_of_builtinUnary hty
    exact agree_pure (by simpa using ho)
  · exact agree_definedOperation operator ho (by simp)

theorem agree_binaryResult (operator : String) {left right : Ty} (hl : mentioned left ⊆ known)
    (hr : mentioned right ⊆ known) : Agree kin known (binaryResult operator left right) := by
  unfold binaryResult
  split
  · exact agree_pure (by simp)
  · apply agree_classes_bind
    intro table other ht hk
    rw [Kinship.builtinBinary ht (hl.trans hk) (hr.trans hk)]
    cases hb : table.builtinBinary operator left right with
    | some ty =>
      have hty := mentioned_builtinBinary hb
      exact agree_pure (by simpa using hty.trans hl) ht hk
    | none => exact agree_definedOperation operator hl (by simpa using hr) ht hk

theorem agree_result {result : Option Ty} (hr : mentioned result ⊆ known) (problem : Problem)
    (span : Span) :
    Agree kin known
      (match result with
        | some ty => return some (Meaning.result ty)
        | none => refuse problem span) := by
  cases result with
  | some ty => exact agree_pure (by simpa using hr)
  | none => exact agree_refuse problem span

theorem agree_unaryMeaning (operator : String) {operand : Meaning}
    (ho : mentioned operand ⊆ known) (span : Span) :
    Agree kin known (unaryMeaning operator operand span) := by
  unfold unaryMeaning
  split
  · next ty hty =>
    apply agree_bind (agree_unaryResult operator ((mentioned_valueType? hty).trans ho))
    intro result more _ hr
    exact agree_result hr _ span
  · apply agree_bind (agree_pure (by simp))
    intro result more _ hr
    exact agree_result hr _ span

theorem agree_binaryMeaning (operator : String) {left right : Meaning}
    (hl : mentioned left ⊆ known) (hr : mentioned right ⊆ known) (span : Span) :
    Agree kin known (binaryMeaning operator left right span) := by
  unfold binaryMeaning
  split
  · next leftType rightType hlt hrt =>
    apply agree_bind (agree_binaryResult operator ((mentioned_valueType? hlt).trans hl)
      ((mentioned_valueType? hrt).trans hr))
    intro result more _ hres
    exact agree_result hres _ span
  · apply agree_bind (agree_pure (by simp))
    intro result more _ hres
    exact agree_result hres _ span

theorem agree_storedType (operator : String) {target value : Ty} (ht : mentioned target ⊆ known)
    (hv : mentioned value ⊆ known) (span : Span) :
    Agree kin known (storedType operator target value span) := by
  unfold storedType
  split
  · exact agree_pure (by simpa using hv)
  · apply agree_bind (agree_binaryResult _ ht hv)
    intro result more _ hr
    split
    · exact agree_pure hr
    · exact agree_refuse _ span

theorem agree_assignMeaning (operator : String) {target value : Meaning}
    (ht : mentioned target ⊆ known) (hv : mentioned value ⊆ known)
    (targetSpan valueSpan span : Span) :
    Agree kin known (assignMeaning operator target value targetSpan valueSpan span) := by
  unfold assignMeaning
  split
  · next targetType =>
    have htarget : mentioned targetType ⊆ known := ht
    split
    · exact agree_refuse _ valueSpan
    · next valueType hvalue =>
      apply agree_bind (agree_storedType operator htarget
        ((mentioned_valueType? hvalue).trans hv) span)
      intro stored more hm hstored
      cases stored with
      | none => exact agree_pure (by simp)
      | some stored =>
        rw [mentioned_some] at hstored
        apply agree_classes_bind
        intro table other hkin hk
        rw [Kinship.isAssignable hkin (hstored.trans hk)]
        cases table.isAssignable stored targetType with
        | true => exact agree_pure (by simpa using htarget.trans hm) hkin hk
        | false => exact agree_refuse _ valueSpan hkin hk
  · exact agree_refuse _ targetSpan

end Operations

section Access

variable {scopes : ScopeStack}

theorem agree_nameMeaning (hs : mentioned scopes ⊆ known) {name : Ident}
    (hname : .resolve name.text ∈ known) : Agree kin known (nameMeaning scopes name) := by
  unfold nameMeaning
  split
  · next v hv => exact agree_pure (by simpa using (ScopeStack.mentioned_lookup? hv).trans hs)
  · apply agree_bind (agree_resolve hname)
    intro ty more hm hty
    apply agree_classes_bind
    intro table other ht hk
    cases hf : ty.filter (fun ty => !ty.isVoid) with
    | some found =>
      obtain ⟨rfl, -⟩ := Option.filter_eq_some_iff.mp hf
      exact agree_pure (by simpa using hty) ht hk
    | none =>
      cases hc : scopes.currentClass? with
      | none => exact agree_refuse _ name.span ht hk
      | some c =>
        have hn : .find c.name ∈ kin.allowed table other :=
          hk (hm (hs (ScopeStack.mentioned_currentClass? hc)))
        rw [Option.bind_some, Option.bind_some, (Kinship.sameOn ht).findMethod? hn]
        cases hfound : table.findMethod? c.name name.text with
        | none => exact agree_refuse _ name.span ht hk
        | some found =>
          obtain ⟨owner, m⟩ := found
          have howner := Kinship.exposed_of_mem_lineage ht hn (of_findMethod? hfound).1
          exact agree_pure (by simpa using howner owner.find_name_exposed) ht subset_rfl

theorem agree_memberOfType (hs : mentioned scopes ⊆ known) {ty : Ty} (hty : mentioned ty ⊆ known)
    (throughType : Bool) (name : Ident) :
    Agree kin known (memberOfType scopes ty throughType name) := by
  apply agree_classes_bind
  intro table other ht hk
  cases hc : ty.className? with
  | none => exact agree_refuse _ name.span ht hk
  | some className =>
    have hn := Kinship.find_className ht (hty.trans hk) hc
    rw [Option.bind_some, Option.bind_some, (Kinship.sameOn ht).findMember? hn]
    cases hfound : table.findMember? className name.text with
    | none => exact agree_refuse _ name.span ht hk
    | some found =>
      obtain ⟨owner, m⟩ := found
      obtain ⟨hlineage, hmember⟩ := of_findMember? hfound
      have howner := Kinship.exposed_of_mem_lineage ht hn hlineage
      have hdeclared : .resolve m.declaredType.text ∈ kin.allowed table other :=
        howner (ClassDef.signature_exposed hmember ⟨_, List.mem_cons_self, rfl⟩)
      have hcurrent : ∀ c ∈ scopes.currentClass?, .find c.name ∈ kin.allowed table other :=
        fun c hc => hk (hs (ScopeStack.mentioned_currentClass? hc))
      dsimp only
      rw [(Kinship.sameOn ht).isAccessible hcurrent]
      refine (?_ : Agree kin (kin.allowed table other) _) ht subset_rfl
      split
      · exact agree_refuse _ name.span
      · split
        · exact agree_refuse _ name.span
        · split
          · apply agree_bind (agree_expectType ⟨m.declaredType.text, name.span⟩ hdeclared)
            intro fieldType wider _ hfield
            split
            · exact agree_pure (by simpa using hfield)
            · exact agree_pure (by simp)
          · exact agree_pure (by simpa using howner owner.find_name_exposed)
          · exact agree_pure (by simpa using howner owner.find_name_exposed)

theorem agree_memberMeaning (hs : mentioned scopes ⊆ known) {target : Meaning}
    (ht : mentioned target ⊆ known) (name : Ident) :
    Agree kin known (memberMeaning scopes target name) := by
  cases target with
  | value ty assignable => exact agree_memberOfType hs ht false name
  | typeName ty => exact agree_memberOfType hs ht true name
  | method className method throughType => exact agree_refuse _ name.span

theorem agree_methodResult {className : String} (hc : .find className ∈ known) (name : String)
    {arguments : List Meaning} (ha : mentioned arguments ⊆ known) (callee span : Span) :
    Agree kin known (methodResult className name arguments callee span) := by
  apply agree_classes_bind
  intro table other ht hk
  rw [(Kinship.sameOn ht).findMethod? (hk hc)]
  cases hfound : table.findMethod? className name with
  | none => exact agree_refuse _ callee ht hk
  | some found =>
    obtain ⟨owner, m⟩ := found
    obtain ⟨hlineage, r, hr⟩ := of_findMethod? hfound
    have howner := Kinship.exposed_of_mem_lineage ht (hk hc) hlineage
    obtain ⟨hdeclared, hparameters⟩ := Query.resolveAll_cons_subset.mp
      ((ClassDef.signature_exposed (ClassDef.mem_methods.mp hr).1).trans howner)
    have hlast (matched : Bool) : Agree kin (kin.allowed table other)
        (if matched then do return (← resolve m.declaredType.text).map Meaning.result
          else refuse (.argumentsDoNotMatch name) span : Check (Option Meaning)) := by
      split
      · apply agree_bind (agree_resolve hdeclared)
        intro ty wider _ hty
        cases ty with
        | none => exact agree_pure (by simp)
        | some ty => exact agree_pure (by simpa using hty)
      · exact agree_refuse _ span
    cases htypes : arguments.mapM Meaning.valueType? with
    | some types =>
      have hm := mentioned_mapM (fun _ _ => mentioned_valueType?) htypes
      exact agree_seq (agree_accepts ((hm.trans ha).trans hk) hparameters) hlast ht subset_rfl
    | none => exact agree_seq (agree_pure (by simp)) hlast ht subset_rfl

theorem agree_callResult {callee : Meaning} (hc : mentioned callee ⊆ known)
    {arguments : List (Option Meaning)} (ha : mentioned arguments ⊆ known)
    (calleeSpan span : Span) : Agree kin known (callResult callee arguments calleeSpan span) := by
  cases callee with
  | method className name throughType =>
    unfold callResult
    dsimp only
    split
    · next values hv =>
      have hm : mentioned values ⊆ mentioned arguments := by
        refine mentioned_mapM (fun a b hab => ?_) hv
        obtain rfl : a = some b := hab
        simp
      exact agree_methodResult (hc rfl) name (hm.trans ha) calleeSpan span
    · exact agree_pure (by simp)
  | value ty assignable => exact agree_refuse _ calleeSpan
  | typeName ty => exact agree_refuse _ calleeSpan

end Access

end Check

namespace Expr

open Check

variable {kin : Kinship} {known : Set Query} {scopes : ScopeStack}

mutual

theorem agree_denote {known : Set Query} (hs : mentioned scopes ⊆ known) (e : Expr)
    (he : Query.resolveAll e.names ⊆ known) : Agree kin known (e.denote scopes) := by
  cases e with
  | literal kind text span => exact agree_pure (by cases kind <;> simp [LiteralKind.ty])
  | ident name => exact agree_nameMeaning hs (Query.resolveAll_cons_subset.mp he).1
  | member target name span =>
    apply agree_bind (agree_denote hs target he)
    intro meaning more hm hmeaning
    split
    · exact agree_memberMeaning (hs.trans hm) (by simpa using hmeaning) name
    · exact agree_pure (by simp)
  | call callee arguments span =>
    obtain ⟨hcallee, harguments⟩ := Query.resolveAll_append_subset.mp he
    apply agree_bind (agree_denote hs callee hcallee)
    intro meaning more hm hmeaning
    split
    · apply agree_bind (agree_denoteAll (hs.trans hm) arguments (harguments.trans hm))
      intro meanings wider hw hmeanings
      rw [mentioned_some] at hmeaning
      exact agree_callResult (hmeaning.trans hw) hmeanings callee.span span
    · exact agree_pure (by simp)
  | new className arguments span =>
    obtain ⟨hclass, harguments⟩ := Query.resolveAll_cons_subset.mp he
    apply agree_bind (agree_expectType className hclass)
    intro ty more hm hty
    split
    · exact agree_pure (by simp)
    · next ty =>
      rw [mentioned_some] at hty
      apply agree_classes_bind
      intro table other ht hk
      rw [Kinship.isInstantiable ht (hty.trans hk)]
      refine (?_ : Agree kin more _) ht hk
      split
      · split
        · exact agree_pure (by simpa using hty)
        · apply agree_seq (agree_denoteAll (hs.trans hm) arguments (harguments.trans hm))
          intro meanings
          exact agree_refuse _ span
      · exact agree_refuse _ className.span
  | unary operator operand span =>
    apply agree_bind (agree_denote hs operand he)
    intro meaning more hm hmeaning
    split
    · exact agree_unaryMeaning operator (by simpa using hmeaning) span
    · exact agree_pure (by simp)
  | binary left operator right span =>
    obtain ⟨hleft, hright⟩ := Query.resolveAll_append_subset.mp he
    apply agree_bind (agree_denote hs left hleft)
    intro leftMeaning more hm hl
    apply agree_bind (agree_denote (hs.trans hm) right (hright.trans hm))
    intro rightMeaning wider hw hr
    match leftMeaning, rightMeaning with
    | some left, some right =>
      rw [mentioned_some] at hl hr
      exact agree_binaryMeaning operator (hl.trans hw) hr span
    | none, _ => exact agree_pure (by simp)
    | some _, none => exact agree_pure (by simp)
  | assign target operator value span =>
    obtain ⟨htarget, hvalue⟩ := Query.resolveAll_append_subset.mp he
    apply agree_bind (agree_denote hs target htarget)
    intro targetMeaning more hm ht
    apply agree_bind (agree_denote (hs.trans hm) value (hvalue.trans hm))
    intro valueMeaning wider hw hv
    match targetMeaning, valueMeaning with
    | some meaning, some stored =>
      rw [mentioned_some] at ht hv
      exact agree_assignMeaning operator (ht.trans hw) hv target.span value.span span
    | none, _ => exact agree_pure (by simp)
    | some _, none => exact agree_pure (by simp)

theorem agree_denoteAll {known : Set Query} (hs : mentioned scopes ⊆ known) (es : List Expr)
    (he : Query.resolveAll (allNames es) ⊆ known) : Agree kin known (denoteAll scopes es) := by
  cases es with
  | nil => exact agree_pure (by simp)
  | cons e es =>
    obtain ⟨hfirst, hrest⟩ := Query.resolveAll_append_subset.mp he
    apply agree_bind (agree_denote hs e hfirst)
    intro meaning more hm hmeaning
    apply agree_bind (agree_denoteAll (hs.trans hm) es (hrest.trans hm))
    intro meanings wider hw hmeanings
    exact agree_pure (by simpa using ⟨hmeaning.trans hw, hmeanings⟩)

end

variable {e : Expr}

theorem agree_checkInitializer (hs : mentioned scopes ⊆ known)
    (he : Query.resolveAll e.names ⊆ known) (declared : Ty) :
    Agree kin known (e.checkInitializer scopes declared) := by
  apply agree_bind (agree_denote hs e he)
  intro meaning more _ hmeaning
  split
  · exact agree_pure (by simp)
  · next ty assignable =>
    apply agree_classes_bind
    intro table other ht hk
    have hty : mentioned ty ⊆ kin.allowed table other := by simpa using hmeaning.trans hk
    rw [Kinship.isAssignable ht hty]
    exact agree_failIf _ _ e.span ht hk
  · exact agree_fail _ e.span

theorem agree_checkCondition (hs : mentioned scopes ⊆ known)
    (he : Query.resolveAll e.names ⊆ known) : Agree kin known (e.checkCondition scopes) := by
  apply agree_seq (agree_denote hs e he)
  intro meaning
  split
  · exact agree_pure (by simp)
  · exact agree_failIf _ _ e.span

theorem agree_checkDenotes (hs : mentioned scopes ⊆ known)
    (he : Query.resolveAll e.names ⊆ known) : Agree kin known (e.checkDenotes scopes) := by
  apply agree_seq (agree_denote hs e he)
  intro meaning
  exact agree_pure (by simp)

end Expr

end ClassLang
