import ClassLang.Proofs.DeclaredTypes

namespace ClassLang

theorem Ty.exists_of_isNumeric {ty : Ty} (h : ty.isNumeric = true) : ∃ p, ty = .primitive p := by
  cases ty with
  | primitive p => exact ⟨p, rfl⟩
  | classRef name | list element | void => cases h

theorem exists_of_builtinUnary {symbol : String} {operand ty : Ty}
    (h : builtinUnary symbol operand = some ty) : ∃ p, ty = .primitive p := by
  unfold builtinUnary at h
  split at h
  · split at h <;> cases h
    exact Ty.exists_of_isNumeric ‹_›
  · split at h <;> cases h
    exact Ty.exists_of_isNumeric ‹_›
  · split at h
    · next hb =>
      cases h
      exact ⟨.bool, by simpa [Ty.isBool] using hb⟩
    · cases h
  · cases h

theorem exists_of_builtinBinary {table : ClassTable} {symbol : String} {left right ty : Ty}
    (h : table.builtinBinary symbol left right = some ty) : ∃ p, ty = .primitive p := by
  unfold ClassTable.builtinBinary at h
  split at h
  · split at h
    · next hs =>
      cases h
      simp only [Bool.and_eq_true, Bool.or_eq_true, beq_iff_eq] at hs
      obtain ⟨-, rfl | hn⟩ := hs
      · exact ⟨.string, rfl⟩
      · exact Ty.exists_of_isNumeric hn
    · cases h
  · split at h
    · next hs =>
      cases h
      exact Ty.exists_of_isNumeric (Bool.and_eq_true_iff.mp hs).2
    · cases h
  · split at h <;> cases h
    exact ⟨.bool, rfl⟩
  · split at h <;> cases h
    exact ⟨.bool, rfl⟩
  · split at h <;> cases h
    exact ⟨.bool, rfl⟩
  · cases h

variable [Alphabet]

namespace ClassTable

/-- The type is the one that its name stands for. -/
def Knows (table : ClassTable) (ty : Ty) : Prop := table.typeOf? ty.name = some ty

theorem knows_of_typeOf? {table : ClassTable} {name : String} {ty : Ty}
    (h : table.typeOf? name = some ty) : table.Knows ty := by
  rw [Knows, name_of_typeOf? h, h]

theorem knows_primitive (table : ClassTable) (p : Primitive) : table.Knows (.primitive p) :=
  typeOf?_primitive table (by cases p <;> decide) p.ofKeyword?_keyword

end ClassTable

/-- Where the type of a value comes from. Only what is of the type of a variable or a field can be
assigned to. -/
inductive Meaning.Sourced (start : ClassTable) (scopes : ScopeStack) : Meaning → Prop
  | live {x : Variable} (live : x ∈ scopes.live) (assignable : Bool) :
      Sourced start scopes (.value x.ty assignable)
  | field {c : ClassDef} {field : Member × List Declarator} {ty : Ty}
      (registered : c ∈ start.classes) (declared : field ∈ c.fields)
      (type : start.typeOf? field.1.declaredType.text = some ty) (assignable : Bool) :
      Sourced start scopes (.value ty assignable)
  | known {ty : Ty} (known : start.Knows ty) : Sourced start scopes (.result ty)
  | typeName {ty : Ty} (known : start.Knows ty) : Sourced start scopes (.typeName ty)
  | method (className name : String) (throughType : Bool) :
      Sourced start scopes (.method className name throughType)

namespace Meaning.Sourced

variable {start : ClassTable} {scopes : ScopeStack} {ty : Ty} {assignable : Bool}

theorem known_or_live (h : (Meaning.value ty assignable).Sourced start scopes) :
    start.Knows ty ∨ ∃ x ∈ scopes.live, x.ty = ty := by
  cases h with
  | @live x live => exact .inr ⟨x, live, rfl⟩
  | field registered declared type => exact .inl (ClassTable.knows_of_typeOf? type)
  | known known => exact .inl known

theorem assigned (h : (Meaning.value ty true).Sourced start scopes) :
    (Meaning.result ty).Sourced start scopes := by
  cases h with
  | live live => exact .live live false
  | field registered declared type => exact .field registered declared type false

end Meaning.Sourced

namespace Check

variable {α : Type} {start : ClassTable} {scopes : ScopeStack}

theorem Quiet.yields {c : Check α} (h : Quiet c) : c.Yields start fun _ => True :=
  fun table ht => ⟨ht.trans (h table).1, trivial⟩

theorem yields_resolve_known (name : String) :
    (resolve name).Yields start fun ty => ∀ t ∈ ty, start.Knows t :=
  yields_resolve fun _ ht => ClassTable.knows_of_typeOf? ht

section Operations

theorem yields_firstAccepting (operands : List Ty) (candidates : List Member) :
    (firstAccepting operands candidates).Yields start fun ty => ∀ t ∈ ty, start.Knows t := by
  induction candidates with
  | nil => exact yields_pure (by simp)
  | cons m candidates ih =>
    apply yields_bind (quiet_accepts m.parameterTypes operands).yields
    intro accepted _
    cases accepted with
    | true => exact yields_resolve_known m.declaredType.text
    | false => exact ih

theorem yields_definedOperation (operator : String) (first : Ty) (others : List Ty) :
    (definedOperation operator first others).Yields start fun ty => ∀ t ∈ ty, start.Knows t := by
  unfold definedOperation
  split
  · exact yields_pure (by simp)
  · apply yields_bind quiet_classes.yields
    intro table _
    exact yields_firstAccepting _ _

theorem yields_unaryResult (operator : String) (operand : Ty) :
    (unaryResult operator operand).Yields start fun ty => ∀ t ∈ ty, start.Knows t := by
  unfold unaryResult
  split
  · next ty hb =>
    obtain ⟨p, rfl⟩ := exists_of_builtinUnary hb
    exact yields_pure (by simp [start.knows_primitive p])
  · exact yields_definedOperation operator operand []

theorem yields_binaryResult (operator : String) (left right : Ty) :
    (binaryResult operator left right).Yields start fun ty => ∀ t ∈ ty, start.Knows t := by
  unfold binaryResult
  split
  · exact yields_pure (by simp)
  · apply yields_bind quiet_classes.yields
    intro table _
    split
    · next ty hb =>
      obtain ⟨p, rfl⟩ := exists_of_builtinBinary hb
      exact yields_pure (by simp [start.knows_primitive p])
    · exact yields_definedOperation operator left [right]

theorem yields_result {result : Option Ty} (h : ∀ t ∈ result, start.Knows t) (problem : Problem)
    (span : Span) :
    Yields start (fun meaning => ∀ m ∈ meaning, m.Sourced start scopes)
      (match result with
        | some ty => return some (Meaning.result ty)
        | none => refuse problem span) := by
  cases result with
  | some ty => exact yields_pure (by simpa using .known (h ty rfl))
  | none => exact yields_refuse (by simp) problem span

theorem yields_unaryMeaning (operator : String) (operand : Meaning) (span : Span) :
    (unaryMeaning operator operand span).Yields start fun meaning =>
      ∀ m ∈ meaning, m.Sourced start scopes := by
  unfold unaryMeaning
  cases operand.valueType? with
  | some ty =>
    apply yields_bind (yields_unaryResult operator ty)
    intro result hr
    exact yields_result hr _ span
  | none => exact yields_refuse (by simp) _ span

theorem yields_binaryMeaning (operator : String) (left right : Meaning) (span : Span) :
    (binaryMeaning operator left right span).Yields start fun meaning =>
      ∀ m ∈ meaning, m.Sourced start scopes := by
  unfold binaryMeaning
  split
  · next leftType rightType _ _ =>
    apply yields_bind (yields_binaryResult operator leftType rightType)
    intro result hr
    exact yields_result hr _ span
  · exact yields_refuse (by simp) _ span

theorem yields_assignMeaning (operator : String) {target : Meaning}
    (h : target.Sourced start scopes) (value : Meaning) (targetSpan valueSpan span : Span) :
    (assignMeaning operator target value targetSpan valueSpan span).Yields start fun meaning =>
      ∀ m ∈ meaning, m.Sourced start scopes := by
  unfold assignMeaning
  split
  · next targetType =>
    cases value.valueType? with
    | none => exact yields_refuse (by simp) _ valueSpan
    | some valueType =>
      have hstored : Honest .never False (· = none)
          (storedType operator targetType valueType span) :=
        honest_storedType operator targetType valueType span
      apply yields_bind (hstored.yields fun _ => trivial)
      intro stored _
      cases stored with
      | none => exact yields_pure (by simp)
      | some stored =>
        apply yields_bind quiet_classes.yields
        intro table _
        split
        · exact yields_pure (by simpa using h.assigned)
        · exact yields_refuse (by simp) _ valueSpan
  · exact yields_refuse (by simp) _ targetSpan

end Operations

section Access

theorem yields_nameMeaning (scopes : ScopeStack) (name : Ident) :
    (nameMeaning scopes name).Yields start fun meaning =>
      ∀ m ∈ meaning, m.Sourced start scopes := by
  unfold nameMeaning
  cases hl : scopes.lookup? name.text with
  | some v =>
    exact yields_pure (by simpa using .live (ScopeStack.mem_live_of_lookup? hl) v.assignable)
  | none =>
    apply yields_bind (yields_resolve_known name.text)
    intro ty hty
    apply yields_bind quiet_classes.yields
    intro table _
    cases hf : ty.filter (fun ty => !ty.isVoid) with
    | some t =>
      exact yields_pure (by simpa using .typeName (hty t (Option.mem_filter_iff.mp hf).1))
    | none =>
      dsimp only
      split
      · exact yields_pure (by simpa using .method _ _ _)
      · exact yields_refuse (by simp) _ name.span

theorem yields_memberOfType (scopes : ScopeStack) (ty : Ty) (throughType : Bool) (name : Ident) :
    (memberOfType scopes ty throughType name).Yields start fun meaning =>
      ∀ m ∈ meaning, m.Sourced start scopes := by
  apply yields_bind (yields_classes fun _ ht => ht)
  intro table ht
  cases hf : ty.className?.bind (fun className => table.findMember? className name.text) with
  | none => exact yields_refuse (by simp) _ name.span
  | some found =>
    obtain ⟨owner, m⟩ := found
    dsimp only
    split
    · exact yields_refuse (by simp) _ name.span
    · split
      · exact yields_refuse (by simp) _ name.span
      · split
        · next declarators hk =>
          apply yields_bind (yields_expectType ⟨m.declaredType.text, name.span⟩)
          intro fieldType hty
          cases fieldType with
          | none => exact yields_pure (by simp)
          | some fieldType =>
            obtain ⟨className, -, hm⟩ := Option.bind_eq_some_iff.mp hf
            obtain ⟨ho, hmem⟩ := ClassTable.of_findMember? hm
            have hfield := ClassDef.mem_fields.mpr ⟨hmem, hk⟩
            have hc := ht.mem_of_field (ClassTable.mem_classes_of_mem_lineage ho) hfield
            exact yields_pure (by simpa using .field hc hfield (hty fieldType rfl) true)
        · exact yields_pure (by simpa using .method _ _ _)
        · exact yields_pure (by simpa using .method _ _ _)

theorem yields_memberMeaning (scopes : ScopeStack) (target : Meaning) (name : Ident) :
    (memberMeaning scopes target name).Yields start fun meaning =>
      ∀ m ∈ meaning, m.Sourced start scopes := by
  cases target with
  | value ty assignable => exact yields_memberOfType scopes ty false name
  | typeName ty => exact yields_memberOfType scopes ty true name
  | method className method throughType => exact yields_refuse (by simp) _ name.span

theorem yields_methodResult (className name : String) (arguments : List Meaning)
    (callee span : Span) :
    (methodResult className name arguments callee span).Yields start fun meaning =>
      ∀ m ∈ meaning, m.Sourced start scopes := by
  apply yields_bind quiet_classes.yields
  intro table _
  cases table.findMethod? className name with
  | none => exact yields_refuse (by simp) _ callee
  | some found =>
    obtain ⟨owner, m⟩ := found
    have hlast (matched : Bool) :
        Yields start (fun meaning => ∀ m ∈ meaning, m.Sourced start scopes)
        (if matched then do return (← resolve m.declaredType.text).map Meaning.result
          else refuse (.argumentsDoNotMatch name) span) := by
      split
      · apply yields_bind (yields_resolve_known m.declaredType.text)
        intro ty hty
        apply yields_pure
        intro meaning hm
        obtain ⟨t, ht, rfl⟩ := Option.map_eq_some_iff.mp hm
        exact .known (hty t ht)
      · exact yields_refuse (by simp) _ span
    cases arguments.mapM Meaning.valueType? with
    | some types =>
      exact yields_bind (quiet_accepts m.parameterTypes types).yields fun matched _ => hlast matched
    | none => exact hlast false

theorem yields_callResult (callee : Meaning) (arguments : List (Option Meaning))
    (calleeSpan span : Span) :
    (callResult callee arguments calleeSpan span).Yields start fun meaning =>
      ∀ m ∈ meaning, m.Sourced start scopes := by
  cases callee with
  | method className name throughType =>
    unfold callResult
    dsimp only
    split
    · exact yields_methodResult className name _ calleeSpan span
    · exact yields_pure (by simp)
  | value ty assignable => exact yields_refuse (by simp) _ calleeSpan
  | typeName ty => exact yields_refuse (by simp) _ calleeSpan

end Access

end Check

namespace Expr

open Check

variable {start : ClassTable}

theorem yields_denoteAll (scopes : ScopeStack) (es : List Expr) :
    (denoteAll scopes es).Yields start fun _ => True := by
  have h : Honest (.faulty none) False (none ∈ ·) (denoteAll scopes es) :=
    honest_denoteAll scopes es
  exact h.yields fun _ => trivial

/-- Whatever an expression denotes, its type comes from a variable in sight, a field or a name. -/
theorem yields_denote (scopes : ScopeStack) (e : Expr) :
    (e.denote scopes).Yields start fun meaning => ∀ m ∈ meaning, m.Sourced start scopes := by
  cases e with
  | literal kind text span =>
    have hk : start.Knows kind.ty := by cases kind <;> exact start.knows_primitive _
    exact yields_pure (by simpa using .known hk)
  | ident name => exact yields_nameMeaning scopes name
  | member target name span =>
    apply yields_bind (yields_denote scopes target)
    intro meaning _
    cases meaning with
    | none => exact yields_pure (by simp)
    | some target => exact yields_memberMeaning scopes target name
  | call callee arguments span =>
    apply yields_bind (yields_denote scopes callee)
    intro meaning _
    cases meaning with
    | none => exact yields_pure (by simp)
    | some method =>
      apply yields_bind (yields_denoteAll scopes arguments)
      intro meanings _
      exact yields_callResult method meanings callee.span span
  | new className arguments span =>
    apply yields_bind (yields_expectType className)
    intro ty hty
    cases ty with
    | none => exact yields_pure (by simp)
    | some ty =>
      apply yields_bind quiet_classes.yields
      intro table _
      split
      · split
        · have hk := ClassTable.knows_of_typeOf? (hty ty rfl)
          exact yields_pure (by simpa using .known hk)
        · apply yields_bind (yields_denoteAll scopes arguments)
          intro meanings _
          exact yields_refuse (by simp) _ span
      · exact yields_refuse (by simp) _ className.span
  | unary operator operand span =>
    apply yields_bind (yields_denote scopes operand)
    intro meaning _
    cases meaning with
    | none => exact yields_pure (by simp)
    | some operand => exact yields_unaryMeaning operator operand span
  | binary left operator right span =>
    apply yields_bind (yields_denote scopes left)
    intro leftMeaning _
    apply yields_bind (yields_denote scopes right)
    intro rightMeaning _
    split
    · exact yields_binaryMeaning operator _ _ span
    · exact yields_pure (by simp)
  | assign target operator value span =>
    apply yields_bind (yields_denote scopes target)
    intro targetMeaning htarget
    apply yields_bind (yields_denote scopes value)
    intro valueMeaning _
    split
    · exact yields_assignMeaning operator (htarget _ rfl) _ target.span value.span span
    · exact yields_pure (by simp)

end Expr

end ClassLang
