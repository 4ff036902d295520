import ClassLang.Proofs.OrderIndependence
import Mathlib.Data.List.Induction
import Mathlib.Data.List.Nodup
import Mathlib.Data.Nat.Digits.Lemmas

namespace ClassLang

/-- What no two members of a class may share: the name of a field or method, the symbol of an
operator together with the names of its operand types, in order and so also in number. -/
inductive Designation where
  | name (text : String)
  | operator (symbol : String) (operands : List String)
  deriving DecidableEq, Repr

def Member.designations (m : Member) : List (Designation × Ident) :=
  match m.kind with
  | .field declarators => declarators.map fun d => (.name d.name.text, d.name)
  | .method routine => [(.name routine.name.text, routine.name)]
  | .operator routine =>
    [(.operator routine.name.text (routine.parameters.map fun p => p.typeName.text), routine.name)]

def ClassDef.designations (c : ClassDef) : List (Designation × Ident) :=
  c.members.flatMap Member.designations

namespace Designation

def key : Designation → MemberKey
  | .name text => .name text
  | .operator symbol operands =>
    .operator (operands.foldl (fun key operand => key ++ "_" ++ operand)
      (symbol ++ "_" ++ toString operands.length))

/-- One name is what another one has behind one of its underscores. -/
def Trails (a b : String) : Prop := '_' :: a.toList <:+ b.toList

instance (a b : String) : Decidable (Trails a b) := inferInstanceAs (Decidable (_ <:+ _))

/-- The symbols have no underscore, and among the operands of two operators that take the same
number of them, more than one, no name trails one of the other side. Otherwise they can have the
same key, since names may contain underscores themselves. -/
def Legible : Designation → Designation → Prop
  | .operator symbol operands, .operator other others =>
    '_' ∉ symbol.toList ∧ '_' ∉ other.toList ∧
      (operands.length = others.length → 1 < operands.length →
        ∀ a ∈ operands, ∀ b ∈ others, ¬ Trails a b ∧ ¬ Trails b a)
  | _, _ => True

instance : DecidableRel Legible
  | .operator _ _, .operator _ _ => inferInstanceAs (Decidable (_ ∧ _ ∧ (_ → _ → _)))
  | .name _, _ => .isTrue trivial
  | .operator _ _, .name _ => .isTrue trivial

section Text

def spelled (operands : List String) : List Char := operands.flatMap fun a => '_' :: a.toList

theorem toList_foldl_append (key : String) (operands : List String) :
    (operands.foldl (fun key operand => key ++ "_" ++ operand) key).toList =
      key.toList ++ spelled operands := by
  induction operands generalizing key with
  | nil => simp [spelled]
  | cons a operands ih => simp [ih, spelled]

theorem eq_and_eq_of_append {a b c d : List Char} (h : a ++ b = c ++ d) (ha : '_' ∉ a)
    (hc : '_' ∉ c) (hb : ∀ x ∈ b.head?, x = '_') (hd : ∀ x ∈ d.head?, x = '_') :
    a = c ∧ b = d := by
  have hword {x y : List Char} (hx : '_' ∉ x) (hy : ∀ z ∈ y.head?, z = '_') :
      (x ++ y).takeWhile (· != '_') = x := by
    rw [List.takeWhile_append_of_pos (by grind)]
    cases y with
    | nil => simp
    | cons z y => simp [hy z rfl]
  have hac : a = c := by rw [← hword ha hb, ← hword hc hd, h]
  subst hac
  exact ⟨rfl, List.append_cancel_left h⟩

theorem head?_spelled (operands : List String) : ∀ x ∈ (spelled operands).head?, x = '_' := by
  cases operands <;> simp [spelled]

/-- Two texts that end in different names are different, unless one name trails the other. -/
theorem eq_and_eq_of_append_cons {x y : List Char} {a b : String}
    (h : x ++ '_' :: a.toList = y ++ '_' :: b.toList) (hab : ¬ Trails a b) (hba : ¬ Trails b a) :
    x = y ∧ a = b := by
  obtain ⟨k, hx, hk⟩ | ⟨k, hy, hk⟩ := List.append_eq_append_iff.mp h
  · cases k with
    | nil => exact ⟨by simpa using hx.symm, by simpa [String.toList_inj] using hk⟩
    | cons c k => exact absurd ⟨k, (List.cons_eq_cons.mp hk).2.symm⟩ hba
  · cases k with
    | nil => exact ⟨by simpa using hy, by simpa [String.toList_inj, eq_comm] using hk⟩
    | cons c k => exact absurd ⟨k, (List.cons_eq_cons.mp hk).2.symm⟩ hab

/-- A single operand is whatever stands behind the number. From two operands on, they are read from
the right. -/
theorem eq_of_spelled_eq {operands others : List String} (h : spelled operands = spelled others)
    (hl : operands.length = others.length)
    (hn : 1 < operands.length → ∀ a ∈ operands, ∀ b ∈ others, ¬ Trails a b ∧ ¬ Trails b a) :
    operands = others := by
  by_cases hmany : 1 < operands.length
  · replace hn := hn hmany
    clear hmany
    induction operands using List.reverseRecOn generalizing others with
    | nil => exact (List.length_eq_zero_iff.mp hl.symm).symm
    | append_singleton operands a ih =>
      obtain rfl | ⟨others, b, rfl⟩ := others.eq_nil_or_concat'
      · simp at hl
      · simp only [spelled, List.flatMap_append, List.flatMap_singleton] at h
        obtain ⟨hab, hba⟩ := hn a (by simp) b (by simp)
        obtain ⟨hs, rfl⟩ := eq_and_eq_of_append_cons h hab hba
        rw [ih hs (by simpa using hl) fun a ha b hb => hn a (by simp [ha]) b (by simp [hb])]
  · match operands, others with
    | [], [] => rfl
    | [a], [b] => simpa [spelled, String.toList_inj] using h
    | [], _ :: _ => cases hl
    | [_], [] => cases hl
    | [_], _ :: _ :: _ => cases hl
    | _ :: _ :: _, _ => simp at hmany

end Text

theorem underscore_not_mem_repr (n : Nat) : '_' ∉ n.repr.toList := by
  rw [Nat.toList_repr]
  exact Nat.underscore_not_in_toDigits

theorem eq_of_key_eq {d e : Designation} (h : d.key = e.key) (hl : d.Legible e) : d = e := by
  cases d with
  | name text =>
    cases e with
    | name other => exact congrArg Designation.name (MemberKey.name.inj h)
    | operator symbol operands => cases h
  | operator symbol operands =>
    cases e with
    | name text => cases h
    | operator other others =>
      obtain ⟨hsymbol, hother, hn⟩ := hl
      have hk := congrArg String.toList (MemberKey.operator.inj h)
      simp only [toList_foldl_append, String.toList_append, Nat.toString_eq_repr,
        List.append_assoc] at hk
      obtain ⟨hs, hk⟩ := eq_and_eq_of_append hk hsymbol hother (by simp) (by simp)
      obtain ⟨hc, hk⟩ := eq_and_eq_of_append (List.append_cancel_left hk)
        (underscore_not_mem_repr _) (underscore_not_mem_repr _)
        (head?_spelled operands) (head?_spelled others)
      have hlength : operands.length = others.length := by
        have hd := congrArg (Nat.ofDigitChars 10 · 0) hc
        simpa [Nat.toList_repr, Nat.ofDigitChars_toDigits] using hd
      rw [String.toList_inj.mp hs, eq_of_spelled_eq hk hlength (hn hlength)]

end Designation

section Search

variable {seen : List MemberKey} {items : List (MemberKey × Ident)}

theorem firstDuplicate?_eq_none_iff :
    firstDuplicate? seen items = none ↔
      (items.map Prod.fst).Nodup ∧ ∀ key ∈ items.map Prod.fst, key ∉ seen := by
  induction items generalizing seen with
  | nil => simp [firstDuplicate?]
  | cons item items ih =>
    obtain ⟨key, name⟩ := item
    by_cases hk : key ∈ seen
    · simp [firstDuplicate?, hk]
    · simp only [firstDuplicate?, hk, if_false, ih, List.map_cons, List.nodup_cons]
      grind

theorem exists_of_firstDuplicate? {name : Ident} (h : firstDuplicate? seen items = some name) :
    ∃ before key after, items = before ++ (key, name) :: after ∧
      firstDuplicate? seen before = none ∧ (key ∈ seen ∨ key ∈ before.map Prod.fst) := by
  induction items generalizing seen with
  | nil => cases h
  | cons item items ih =>
    obtain ⟨key, first⟩ := item
    by_cases hk : key ∈ seen
    · obtain rfl : first = name := by simpa [firstDuplicate?, hk] using h
      exact ⟨[], key, items, rfl, rfl, .inl hk⟩
    · rw [firstDuplicate?, if_neg hk] at h
      obtain ⟨before, taken, after, rfl, hb, ht⟩ := ih h
      refine ⟨(key, first) :: before, taken, after, rfl, ?_, by grind⟩
      rwa [firstDuplicate?, if_neg hk]

end Search

theorem Member.keys_eq_map (m : Member) :
    m.keys = m.designations.map (Prod.map Designation.key id) := by
  obtain ⟨visibility, modifier, isStatic, declaredType, owner, span, kind⟩ := m
  cases kind with
  | field declarators => simp [keys, designations, Designation.key]
  | method routine => rfl
  | operator routine =>
    simp [keys, designations, operatorKey?, Designation.key, List.foldl_map]

namespace ClassDef

variable {c : ClassDef}

def Legible (c : ClassDef) : Prop := c.designations.Pairwise fun d e => d.1.Legible e.1

instance (c : ClassDef) : Decidable c.Legible := inferInstanceAs (Decidable (List.Pairwise _ _))

/-- The name is the first, in the order of declaration, whose designation an earlier one has. -/
def FirstTaken (c : ClassDef) (name : Ident) : Prop :=
  ∃ before d after, c.designations = before ++ (d, name) :: after ∧
    (before.map Prod.fst).Nodup ∧ d ∈ before.map Prod.fst

theorem memberKeys_eq_map (c : ClassDef) :
    c.memberKeys = c.designations.map (Prod.map Designation.key id) := by
  rw [memberKeys, designations, List.map_flatMap]
  exact congrArg (c.members.flatMap ·) (funext Member.keys_eq_map)

theorem map_fst_memberKeys (c : ClassDef) :
    c.memberKeys.map Prod.fst = (c.designations.map Prod.fst).map Designation.key := by
  simp [memberKeys_eq_map, Function.comp_def]

theorem nodup_designations (h : firstDuplicate? [] c.memberKeys = none) :
    (c.designations.map Prod.fst).Nodup := by
  have hk := (firstDuplicate?_eq_none_iff.mp h).1
  rw [map_fst_memberKeys] at hk
  exact hk.of_map

theorem Legible.firstDuplicate?_eq_none (hl : c.Legible)
    (h : (c.designations.map Prod.fst).Nodup) : firstDuplicate? [] c.memberKeys = none := by
  refine firstDuplicate?_eq_none_iff.mpr ⟨?_, by simp⟩
  rw [map_fst_memberKeys]
  refine List.pairwise_map.mpr (List.pairwise_map.mpr ?_)
  refine hl.imp₂ (fun d e hl hn hk => hn ?_) (List.pairwise_map.mp h)
  exact Designation.eq_of_key_eq hk hl

theorem Legible.firstTaken (hl : c.Legible) {name : Ident}
    (h : firstDuplicate? [] c.memberKeys = some name) : c.FirstTaken name := by
  obtain ⟨keys, key, rest, hkeys, hb, ht⟩ := exists_of_firstDuplicate? h
  rw [memberKeys_eq_map, List.map_eq_append_iff] at hkeys
  obtain ⟨before, others, hd, rfl, hrest⟩ := hkeys
  obtain ⟨⟨d, name⟩, after, rfl, hitem, -⟩ := List.map_eq_cons_iff.mp hrest
  cases hitem
  refine ⟨before, d, after, hd, ?_, ?_⟩
  · have hk := (firstDuplicate?_eq_none_iff.mp hb).1
    rw [List.map_map] at hk
    exact List.Nodup.of_map Designation.key (by simpa [Function.comp_def] using hk)
  · obtain ⟨e, he, hk⟩ : ∃ e ∈ before, e.1.key = d.key := by
      simpa using ht
    unfold Legible at hl
    rw [hd, List.pairwise_append] at hl
    obtain rfl := Designation.eq_of_key_eq hk (hl.2.2 e he (d, name) List.mem_cons_self)
    exact List.mem_map_of_mem he

/-- If members share a designation, a name is reported. If the designations are legible, only then,
and the report is about the first name that is taken. -/
theorem uniqueness_decided (c : ClassDef) (table : ClassTable) :
    (¬ (c.designations.map Prod.fst).Nodup → (c.checkUnique table).result = true) ∧
      (c.Legible →
        ((c.checkUnique table).result = true ↔ ¬ (c.designations.map Prod.fst).Nodup) ∧
        (c.checkUnique table).table = table ∧
        ((c.checkUnique table).result = false → (c.checkUnique table).findings = []) ∧
        ((c.checkUnique table).result = true → ∃ name, c.FirstTaken name ∧
          (c.checkUnique table).findings = [⟨.itemAlreadyDefined name.text, name.span⟩])) := by
  unfold checkUnique
  cases hf : firstDuplicate? [] c.memberKeys with
  | none =>
    have hn : (c.designations.map Prod.fst).Nodup := nodup_designations hf
    exact ⟨fun h => absurd hn h, fun _ => ⟨⟨nofun, fun h => absurd hn h⟩, rfl, fun _ => rfl, nofun⟩⟩
  | some name =>
    refine ⟨fun _ => rfl, fun hl => ⟨⟨fun _ hn => ?_, fun _ => rfl⟩, rfl, nofun, fun _ => ?_⟩⟩
    · rw [hl.firstDuplicate?_eq_none hn] at hf
      cases hf
    · exact ⟨name, hl.firstTaken hf, rfl⟩

def ledger (operands : List (List String)) : ClassDef :=
  Program.simpleClass "Ledger" none (operands.map fun types => {
    Member.provided "Ledger" "+" "int" [] with
    kind := .operator ⟨.provided "+", types.map (Parameter.provided · "operand"), none⟩ })

theorem uniqueness_decided_in_ledger :
    let c := ledger [["Line_Item", "int_list"], ["int", "Line_Item"], ["Line_Item", "int_list"]]
    c.Legible ∧ ¬ (c.designations.map Prod.fst).Nodup ∧ (c.checkUnique .empty).result = true ∧
      ∃ name, c.FirstTaken name ∧
        (c.checkUnique .empty).findings = [⟨.itemAlreadyDefined name.text, name.span⟩] := by
  intro c
  have hl : c.Legible := by decide +kernel
  have hn : ¬ (c.designations.map Prod.fst).Nodup := by decide +kernel
  have hr := (c.uniqueness_decided .empty).1 hn
  exact ⟨hl, hn, hr, ((c.uniqueness_decided .empty).2 hl).2.2.2 hr⟩

/-- Both keys are `+_2_Line_Item_Total`. -/
theorem operands_confused :
    let c := ledger [["Line_Item", "Total"], ["Line", "Item_Total"]]
    (c.designations.map Prod.fst).Nodup ∧ (c.checkUnique .empty).result = true ∧
      (c.checkUnique .empty).findings = [⟨.itemAlreadyDefined "+", .nowhere⟩] := by
  decide +kernel

end ClassDef

end ClassLang
