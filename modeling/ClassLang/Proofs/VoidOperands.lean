import ClassLang.Proofs.DeclaredTypes
import ClassLang.Proofs.Resolution

namespace ClassLang

theorem exists_of_mapM {α β : Type} {f : α → Option β} {items : List α} {results : List β}
    (h : items.mapM f = some results) {a : α} (ha : a ∈ items) : ∃ b ∈ results, f a = some b := by
  induction items generalizing results with
  | nil => cases ha
  | cons item items ih =>
    rw [List.mapM_cons] at h
    obtain ⟨b, hb, h⟩ := Option.bind_eq_some_iff.mp h
    obtain ⟨rest, hrest, h⟩ := Option.bind_eq_some_iff.mp h
    cases h
    obtain rfl | ha := List.mem_cons.mp ha
    · exact ⟨b, by simp, hb⟩
    · obtain ⟨b, hb, hf⟩ := ih hrest ha
      exact ⟨b, List.mem_cons_of_mem _ hb, hf⟩

namespace ClassTable

variable {table : ClassTable}

theorem eq_of_isAssignable_void {ty : Ty} (h : table.isAssignable .void ty = true) :
    ty = .void := by
  cases ty <;> simp_all [isAssignable]

theorem isAssignable_void {ty : Ty} (h : ty ≠ .void) : table.isAssignable .void ty = false :=
  Bool.eq_false_iff.mpr fun ha => h (eq_of_isAssignable_void ha)

end ClassTable

variable [Alphabet]

namespace ClassTable

/-- No registered class declares a field or a parameter of type `void`. -/
def VoidFree (table : ClassTable) : Prop :=
  ∀ c ∈ table.classes, (∀ field ∈ c.fields, field.1.declaredType.text ≠ "void") ∧
    ∀ m ∈ c.members, "void" ∉ m.parameterTypes

variable {table grown : ClassTable}

theorem eq_of_typeOf?_void {name : String} (h : table.typeOf? name = some .void) :
    name = "void" := (name_of_typeOf? h).symm

theorem not_void_listOf {name : String} {element : Ty}
    (ht : table.typeOf? name = some (.list element)) {m : Member}
    (hm : m ∈ (ClassDef.listOf element).members) : "void" ∉ m.parameterTypes := by
  have he : element.name ≠ "void" := by
    intro hn
    obtain ⟨-, hk, hv⟩ := typeOf?_eq_list_iff.mp ht
    rw [hn, typeOf?_void] at hk
    exact hv (Option.some.inj hk).symm
  simp only [ClassDef.listOf, listMethods, List.mem_cons, List.not_mem_nil, or_false] at hm
  obtain rfl | rfl | rfl | rfl | rfl | rfl | rfl := hm <;>
    simp [Member.parameterTypes, Member.parameters, Member.routine?, Member.provided,
      Parameter.provided, Ident.provided, he.symm]

theorem Grows.voidFree (h : table.Grows grown) (ht : table.VoidFree) : grown.VoidFree := by
  intro c hc
  refine ⟨fun field hf => (ht c (h.mem_of_field hc hf)).1 field hf, fun m hm => ?_⟩
  obtain hs | ⟨element, hl, rfl⟩ := h.get?_of_grown (get?_of_mem hc)
  · exact (ht c (mem_of_get? hs)).2 m hm
  · exact not_void_listOf hl hm

theorem VoidFree.admits (h : table.VoidFree) : table.Admits (· ≠ .void) := by
  refine ⟨fun _ _ _ hv => hv, fun c hc field hf ty ht => ?_⟩
  rintro rfl
  exact (h c hc).1 field hf (eq_of_typeOf?_void ht)

end ClassTable

def Meaning.NotVoid (meaning : Meaning) : Prop := meaning.valueType? ≠ some .void

namespace Check

variable {table : ClassTable} {meaning : Meaning} {span : Span}

section Operations

theorem not_void_of_accepts {parameters : List String} {arguments : List Ty}
    (hp : "void" ∉ parameters) (h : (accepts parameters arguments table).result = true) :
    .void ∉ arguments := by
  intro hv
  unfold accepts at h
  split at h
  · next hlen =>
    have h : (((forEach resolve parameters table).result.zip arguments).all fun pair =>
        pair.1.any fun ty =>
          (forEach resolve parameters table).table.isAssignable pair.2 ty) = true := h
    rw [ClassTable.result_forEach_resolve, List.all_eq_true] at h
    have hzip : ((parameters.map table.typeOf?).zip arguments).map Prod.snd = arguments :=
      List.map_snd_zip (by simp [hlen])
    rw [← hzip] at hv
    obtain ⟨⟨parameter, _⟩, hpair, rfl⟩ := List.mem_map.mp hv
    obtain ⟨name, hname, rfl⟩ := List.mem_map.mp (List.of_mem_zip hpair).1
    obtain ⟨ty, hty, hassign⟩ := (Option.any_eq_true _ _).mp (h _ hpair)
    obtain rfl := ClassTable.eq_of_isAssignable_void hassign
    exact hp (ClassTable.eq_of_typeOf?_void hty ▸ hname)
  · cases h

theorem result_unaryResult_void (operator : String) (table : ClassTable) :
    (unaryResult operator .void table).result = none := by
  have hb : builtinUnary operator .void = none := by
    unfold builtinUnary
    split <;> rfl
  rw [unaryResult, hb]
  rfl

theorem not_void_of_binaryResult {operator : String} {left right ty : Ty}
    (h : (binaryResult operator left right table).result = some ty) :
    left ≠ .void ∧ right ≠ .void := by
  unfold binaryResult at h
  split at h
  · cases h
  · next hv => simpa [Ty.isVoid] using hv

theorem not_void_of_unaryMeaning {operator : String} {operand : Meaning}
    (h : (unaryMeaning operator operand span table).result = some meaning) : operand.NotVoid := by
  intro hv
  rw [unaryMeaning, hv, result_bind] at h
  dsimp only at h
  rw [result_unaryResult_void] at h
  cases h

theorem not_void_of_binaryMeaning {operator : String} {left right : Meaning}
    (h : (binaryMeaning operator left right span table).result = some meaning) :
    left.NotVoid ∧ right.NotVoid := by
  unfold binaryMeaning at h
  cases hl : left.valueType? with
  | none =>
    rw [hl] at h
    cases h
  | some leftType =>
    cases hr : right.valueType? with
    | none =>
      rw [hl, hr] at h
      cases h
    | some rightType =>
      rw [hl, hr] at h
      obtain ⟨ty, hb, -⟩ := exists_of_result_bind (fun _ => rfl) h
      obtain ⟨hleft, hright⟩ := not_void_of_binaryResult hb
      simpa [Meaning.NotVoid, hl, hr] using ⟨hleft, hright⟩

/-- What can be stored where no `void` is expected comes from no `void`. -/
theorem not_void_of_storedType {operator : String} {target value stored : Ty} {later : ClassTable}
    (ht : target ≠ .void) (h : (storedType operator target value span table).result = some stored)
    (hs : later.isAssignable stored target = true) : value ≠ .void := by
  unfold storedType at h
  cases hc : compoundOperator? operator with
  | none =>
    rw [hc] at h
    cases h
    rintro rfl
    exact ht (ClassTable.eq_of_isAssignable_void hs)
  | some binary =>
    rw [hc] at h
    obtain ⟨ty, hb, -⟩ := exists_of_result_bind (fun _ => rfl) h
    exact (not_void_of_binaryResult hb).2

theorem of_assignMeaning {operator : String} {target value : Meaning} {targetSpan valueSpan : Span}
    (h : (assignMeaning operator target value targetSpan valueSpan span table).result =
      some meaning) :
    ∃ ty, target = .value ty true ∧ (ty ≠ .void → value.NotVoid) := by
  unfold assignMeaning at h
  split at h
  · next targetType =>
    refine ⟨targetType, rfl, fun ht => ?_⟩
    cases hv : value.valueType? with
    | none => simp [Meaning.NotVoid, hv]
    | some valueType =>
      rw [hv] at h
      obtain ⟨stored, hs, h⟩ := exists_of_result_bind (fun _ => rfl) h
      dsimp only at h
      rw [classes_bind_apply] at h
      split at h
      · next hassign => simpa [Meaning.NotVoid, hv] using not_void_of_storedType ht hs hassign
      · cases h
  · cases h

end Operations

section Access

theorem not_void_of_memberMeaning {scopes : ScopeStack} {target : Meaning} {name : Ident}
    (h : (memberMeaning scopes target name table).result = some meaning) : target.NotVoid := by
  intro hv
  cases target with
  | value ty assignable =>
    obtain rfl : ty = .void := Option.some.inj hv
    cases h
  | typeName ty => cases hv
  | method className method throughType => cases hv

theorem not_void_of_methodResult {className name : String} {arguments : List Meaning}
    {callee : Span} (ht : table.VoidFree)
    (h : (methodResult className name arguments callee span table).result = some meaning) :
    ∀ a ∈ arguments, a.NotVoid := by
  intro a ha hv
  unfold methodResult at h
  rw [classes_bind_apply] at h
  cases hf : table.findMethod? className name with
  | none =>
    rw [hf] at h
    cases h
  | some found =>
    obtain ⟨owner, m⟩ := found
    obtain ⟨ho, r, hr⟩ := ClassTable.of_findMethod? hf
    have hp : "void" ∉ m.parameterTypes :=
      (ht owner (ClassTable.mem_classes_of_mem_lineage ho)).2 m (ClassDef.mem_methods.mp hr).1
    rw [hf] at h
    cases htypes : arguments.mapM Meaning.valueType? with
    | none =>
      rw [htypes] at h
      cases h
    | some types =>
      rw [htypes] at h
      dsimp only at h
      rw [result_bind] at h
      obtain ⟨ty, hty, he⟩ := exists_of_mapM htypes ha
      obtain rfl : ty = .void := Option.some.inj (he.symm.trans hv)
      cases hacc : (accepts m.parameterTypes types table).result with
      | false =>
        rw [hacc] at h
        cases h
      | true => exact not_void_of_accepts hp hacc hty

theorem of_callResult {callee : Meaning} {arguments : List (Option Meaning)} {calleeSpan : Span}
    (ht : table.VoidFree)
    (h : (callResult callee arguments calleeSpan span table).result = some meaning) :
    callee.NotVoid ∧ ∀ a ∈ arguments, ∃ m, a = some m ∧ m.NotVoid := by
  cases callee with
  | method className name throughType =>
    refine ⟨by simp [Meaning.NotVoid, Meaning.valueType?], fun a ha => ?_⟩
    unfold callResult at h
    cases hv : arguments.mapM id with
    | none =>
      rw [hv] at h
      cases h
    | some values =>
      rw [hv] at h
      obtain ⟨m, hm, rfl⟩ := exists_of_mapM hv ha
      exact ⟨m, rfl, not_void_of_methodResult ht h m hm⟩
  | value ty assignable => cases h
  | typeName ty => cases h

end Access

end Check

end ClassLang
