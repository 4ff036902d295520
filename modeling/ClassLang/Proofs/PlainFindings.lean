import ClassLang.Check.Stmt
import ClassLang.Proofs.ExprHonesty
import ClassLang.Proofs.Places

namespace ClassLang

/-- The problem is about the paths through a body: a jump that stands in no loop, or code that can
not be reached. -/
def Problem.isFlow : Problem → Bool
  | .statementMustAppearInLoop _ | .unreachableCode => true
  | _ => false

/-- The problem is about the head of a class: what the class is marked as, and what it inherits
from. -/
def Problem.isHead : Problem → Bool
  | .cyclicInheritance _ | .concreteBase _ _ | .screenCannotInherit _ | .screenModifierNotNormal _
  | .unknownBackendClass _ => true
  | _ => false

/-- The problem is that a `return` stands in no method or operator. -/
def Problem.isStray : Problem → Bool
  | .returnOutsideFunction => true
  | _ => false

def Problem.isInner (p : Problem) : Bool := !p.isHead && !p.isStray

def Problem.isPlain (p : Problem) : Bool := !p.isFlow && p.isInner

/-- Findings at the given places. No `return` stands outside of all methods and operators. -/
def foundAt (places : Set Span) : Set Finding :=
  {f | f.span ∈ places ∧ f.problem.isStray = false}

def insideAt (places : Set Span) : Set Finding :=
  {f | f.span ∈ places ∧ f.problem.isInner = true}

def plainAt (places : Set Span) : Set Finding :=
  {f | f.span ∈ places ∧ f.problem.isPlain = true}

variable {α β : Type} {start : ClassTable} {places : Set Span} {S : Set Finding}

variable [Alphabet]

/-- Made on a table grown from the given one, the check leaves such a table behind, and all that it
finds is in the set. -/
def Check.Finds (start : ClassTable) (S : Set Finding) (c : Check α) : Prop :=
  ∀ table, start.Grows table → start.Grows (c table).table ∧ ∀ f ∈ (c table).findings, f ∈ S

namespace Check

theorem Finds.mono {T : Set Finding} {c : Check α} (h : Finds start S c) (hs : S ⊆ T) :
    Finds start T c := by
  intro table ht
  obtain ⟨hg, hf⟩ := h table ht
  exact ⟨hg, fun f hm => hs (hf f hm)⟩

theorem Finds.inside {c : Check α} (h : Finds start (plainAt places) c) :
    Finds start (insideAt places) c :=
  h.mono fun _ hf => ⟨hf.1, (Bool.and_eq_true_iff.mp hf.2).2⟩

theorem finds_quiet {c : Check α} (h : Quiet c) : Finds start S c := by
  intro table ht
  obtain ⟨hg, hn⟩ := h table
  exact ⟨ht.trans hg, by simp [hn]⟩

theorem finds_pure (a : α) : Finds start S (pure a) := finds_quiet (quiet_pure a)

theorem finds_bind {c : Check α} {f : α → Check β} (hc : Finds start S c)
    (hf : ∀ a, Finds start S (f a)) : Finds start S (c >>= f) := by
  intro table ht
  obtain ⟨hg, hc⟩ := hc table ht
  obtain ⟨kg, hf⟩ := hf (c table).result (c table).table hg
  exact ⟨kg, List.forall_mem_append.mpr ⟨hc, hf⟩⟩

theorem finds_classes_bind {f : ClassTable → Check β}
    (h : ∀ table, start.Grows table → Finds start S (f table)) : Finds start S (classes >>= f) :=
  fun table ht => h table ht table ht

theorem finds_report {problem : Problem} {span : Span} (h : ⟨problem, span⟩ ∈ S) :
    Finds start S (report problem span) := fun _ ht => ⟨ht, by simpa [report] using h⟩

theorem finds_fail {problem : Problem} {span : Span} (h : ⟨problem, span⟩ ∈ S) :
    Finds start S (fail problem span) := finds_bind (finds_report h) fun _ => finds_pure true

theorem finds_refuse {problem : Problem} {span : Span} (h : ⟨problem, span⟩ ∈ S) :
    Finds start S (refuse problem span : Check (Option α)) :=
  finds_bind (finds_report h) fun _ => finds_pure none

theorem finds_failIf {problem : Problem} {span : Span} (h : ⟨problem, span⟩ ∈ S)
    (condition : Bool) : Finds start S (failIf condition problem span) := by
  unfold failIf
  split
  · exact finds_fail h
  · exact finds_pure false

theorem finds_failIf_inside {problem : Problem} {span : Span} (hp : problem.isInner = true)
    (h : span ∈ places) (condition : Bool) :
    Finds start (insideAt places) (failIf condition problem span) :=
  finds_failIf (S := insideAt places) ⟨h, hp⟩ condition

theorem finds_expectType {name : Ident} (h : name.span ∈ places) :
    Finds start (plainAt places) (expectType name) := by
  apply finds_bind (finds_quiet (quiet_resolve name.text))
  intro ty
  cases ty with
  | none => exact finds_refuse ⟨h, rfl⟩
  | some ty => exact finds_pure _

theorem finds_expectValueType {name : Ident} (h : name.span ∈ places) :
    Finds start (plainAt places) (expectValueType name) := by
  apply finds_bind (finds_expectType h)
  intro ty
  split
  · exact finds_refuse ⟨h, rfl⟩
  · exact finds_pure _

theorem finds_anyFails {f : α → Check Bool} {items : List α}
    (h : ∀ a ∈ items, Finds start S (f a)) : Finds start S (anyFails f items) := by
  induction items with
  | nil => exact finds_pure false
  | cons a items ih =>
    apply finds_bind (h a (by simp))
    intro failed
    apply finds_bind (ih fun b hb => h b (by simp [hb]))
    intro restFailed
    exact finds_pure _

theorem finds_result {problem : Problem} {span : Span} (h : ⟨problem, span⟩ ∈ S)
    (result : Option Ty) :
    Finds start S
      (match result with
        | some ty => return some (Meaning.result ty)
        | none => refuse problem span) := by
  cases result with
  | some ty => exact finds_pure _
  | none => exact finds_refuse h

theorem finds_unaryMeaning {span : Span} (h : span ∈ places) (operator : String)
    (operand : Meaning) : Finds start (plainAt places) (unaryMeaning operator operand span) := by
  unfold unaryMeaning
  split
  · apply finds_bind (finds_quiet (quiet_unaryResult operator _))
    intro result
    exact finds_result (S := plainAt places) ⟨h, rfl⟩ result
  · apply finds_bind (finds_pure none)
    intro result
    exact finds_result (S := plainAt places) ⟨h, rfl⟩ result

theorem finds_binaryMeaning {span : Span} (h : span ∈ places) (operator : String)
    (left right : Meaning) :
    Finds start (plainAt places) (binaryMeaning operator left right span) := by
  unfold binaryMeaning
  split
  · apply finds_bind (finds_quiet (quiet_binaryResult operator _ _))
    intro result
    exact finds_result (S := plainAt places) ⟨h, rfl⟩ result
  · apply finds_bind (finds_pure none)
    intro result
    exact finds_result (S := plainAt places) ⟨h, rfl⟩ result

theorem finds_storedType {span : Span} (h : span ∈ places) (operator : String)
    (target value : Ty) : Finds start (plainAt places) (storedType operator target value span) := by
  unfold storedType
  split
  · exact finds_pure _
  · apply finds_bind (finds_quiet (quiet_binaryResult _ target value))
    intro result
    split
    · exact finds_pure _
    · exact finds_refuse ⟨h, rfl⟩

theorem finds_assignMeaning {targetSpan valueSpan span : Span} (ht : targetSpan ∈ places)
    (hv : valueSpan ∈ places) (hs : span ∈ places) (operator : String) (target value : Meaning) :
    Finds start (plainAt places)
      (assignMeaning operator target value targetSpan valueSpan span) := by
  unfold assignMeaning
  split
  · split
    · exact finds_refuse ⟨hv, rfl⟩
    · apply finds_bind (finds_storedType hs operator _ _)
      intro stored
      split
      · exact finds_pure _
      · apply finds_bind (finds_quiet quiet_classes)
        intro table
        split
        · exact finds_pure _
        · exact finds_refuse ⟨hv, rfl⟩
  · exact finds_refuse ⟨ht, rfl⟩

theorem finds_nameMeaning {name : Ident} (h : name.span ∈ places) (scopes : ScopeStack) :
    Finds start (plainAt places) (nameMeaning scopes name) := by
  unfold nameMeaning
  split
  · exact finds_pure _
  · apply finds_bind (finds_quiet (quiet_resolve name.text))
    intro ty
    apply finds_bind (finds_quiet quiet_classes)
    intro table
    split
    · exact finds_pure _
    · split
      · exact finds_pure _
      · exact finds_refuse ⟨h, rfl⟩

/-- A field whose type stands for nothing is reported where it is named, not where it is
declared. -/
theorem finds_memberOfType {name : Ident} (h : name.span ∈ places) (scopes : ScopeStack) (ty : Ty)
    (throughType : Bool) :
    Finds start (plainAt places) (memberOfType scopes ty throughType name) := by
  have htype (text : String) : Finds start (plainAt places) (expectType ⟨text, name.span⟩) :=
    finds_expectType h
  apply finds_bind (finds_quiet quiet_classes)
  intro table
  split
  · exact finds_refuse ⟨h, rfl⟩
  · split
    · exact finds_refuse ⟨h, rfl⟩
    · split
      · exact finds_refuse ⟨h, rfl⟩
      · split
        · apply finds_bind (htype _)
          intro fieldType
          split
          · exact finds_pure _
          · exact finds_pure _
        · exact finds_pure _
        · exact finds_pure _

theorem finds_memberMeaning {name : Ident} (h : name.span ∈ places) (scopes : ScopeStack)
    (target : Meaning) : Finds start (plainAt places) (memberMeaning scopes target name) := by
  cases target with
  | value ty assignable => exact finds_memberOfType h scopes ty false
  | typeName ty => exact finds_memberOfType h scopes ty true
  | method className method throughType => exact finds_refuse ⟨h, rfl⟩

theorem finds_methodResult {callee span : Span} (hc : callee ∈ places) (hs : span ∈ places)
    (className name : String) (arguments : List Meaning) :
    Finds start (plainAt places) (methodResult className name arguments callee span) := by
  have hlast (declared : String) (matched : Bool) : Finds start (plainAt places)
      (if matched then do return (← resolve declared).map Meaning.result
        else refuse (.argumentsDoNotMatch name) span : Check (Option Meaning)) := by
    split
    · exact finds_bind (finds_quiet (quiet_resolve declared)) fun ty => finds_pure _
    · exact finds_refuse ⟨hs, rfl⟩
  apply finds_bind (finds_quiet quiet_classes)
  intro table
  split
  · exact finds_refuse ⟨hc, rfl⟩
  · split
    · exact finds_bind (finds_quiet (quiet_accepts _ _)) (hlast _)
    · exact finds_bind (finds_pure false) (hlast _)

theorem finds_callResult {calleeSpan span : Span} (hc : calleeSpan ∈ places)
    (hs : span ∈ places) (callee : Meaning) (arguments : List (Option Meaning)) :
    Finds start (plainAt places) (callResult callee arguments calleeSpan span) := by
  cases callee with
  | method className name throughType =>
    unfold callResult
    dsimp only
    split
    · exact finds_methodResult hc hs className name _
    · exact finds_pure none
  | value ty assignable => exact finds_refuse ⟨hc, rfl⟩
  | typeName ty => exact finds_refuse ⟨hc, rfl⟩

end Check

namespace Expr

open Check

mutual

theorem finds_denote {e : Expr} (h : e.Placed places) (scopes : ScopeStack) :
    Finds start (plainAt places) (e.denote scopes) := by
  cases e with
  | literal kind text span => exact finds_pure _
  | ident name => exact finds_nameMeaning h scopes
  | member target name span =>
    obtain ⟨ht, hn, -⟩ := h
    apply finds_bind (finds_denote ht scopes)
    intro meaning
    split
    · exact finds_memberMeaning hn scopes _
    · exact finds_pure none
  | call callee arguments span =>
    obtain ⟨hc, ha, hs⟩ := h
    apply finds_bind (finds_denote hc scopes)
    intro meaning
    split
    · apply finds_bind (finds_denoteAll ha scopes)
      intro meanings
      exact finds_callResult hc.span hs _ meanings
    · exact finds_pure none
  | new className arguments span =>
    obtain ⟨hc, ha, hs⟩ := h
    apply finds_bind (finds_expectType hc)
    intro ty
    split
    · exact finds_pure none
    · apply finds_bind (finds_quiet quiet_classes)
      intro table
      split
      · split
        · exact finds_pure _
        · apply finds_bind (finds_denoteAll ha scopes)
          intro meanings
          exact finds_refuse ⟨hs, rfl⟩
      · exact finds_refuse ⟨hc, rfl⟩
  | unary operator operand span =>
    obtain ⟨ho, hs⟩ := h
    apply finds_bind (finds_denote ho scopes)
    intro meaning
    split
    · exact finds_unaryMeaning hs operator _
    · exact finds_pure none
  | binary left operator right span =>
    obtain ⟨hl, hr, hs⟩ := h
    apply finds_bind (finds_denote hl scopes)
    intro leftMeaning
    apply finds_bind (finds_denote hr scopes)
    intro rightMeaning
    split
    · exact finds_binaryMeaning hs operator _ _
    · exact finds_pure none
  | assign target operator value span =>
    obtain ⟨ht, hv, hs⟩ := h
    apply finds_bind (finds_denote ht scopes)
    intro targetMeaning
    apply finds_bind (finds_denote hv scopes)
    intro valueMeaning
    split
    · exact finds_assignMeaning ht.span hv.span hs operator _ _
    · exact finds_pure none

theorem finds_denoteAll {es : List Expr} (h : AllPlaced places es) (scopes : ScopeStack) :
    Finds start (plainAt places) (denoteAll scopes es) := by
  cases es with
  | nil => exact finds_pure []
  | cons e es =>
    apply finds_bind (finds_denote h.1 scopes)
    intro meaning
    apply finds_bind (finds_denoteAll h.2 scopes)
    intro meanings
    exact finds_pure _

end

theorem finds_checkInitializer {e : Expr} (h : e.Placed places) (scopes : ScopeStack)
    (declared : Ty) : Finds start (plainAt places) (e.checkInitializer scopes declared) := by
  apply finds_bind (finds_denote h scopes)
  intro meaning
  split
  · exact finds_pure true
  · apply finds_bind (finds_quiet quiet_classes)
    intro table
    exact finds_failIf (S := plainAt places) ⟨h.span, rfl⟩ _
  · exact finds_fail ⟨h.span, rfl⟩

theorem finds_checkCondition {e : Expr} (h : e.Placed places) (scopes : ScopeStack) :
    Finds start (plainAt places) (e.checkCondition scopes) := by
  apply finds_bind (finds_denote h scopes)
  intro meaning
  split
  · exact finds_pure true
  · exact finds_failIf (S := plainAt places) ⟨h.span, rfl⟩ _

theorem finds_checkDenotes {e : Expr} (h : e.Placed places) (scopes : ScopeStack) :
    Finds start (plainAt places) (e.checkDenotes scopes) := by
  apply finds_bind (finds_denote h scopes)
  intro meaning
  exact finds_pure _

end Expr

def Scoped.Finds (start : ClassTable) (S : Set Finding) (c : Scoped α) : Prop :=
  ∀ scopes, (c scopes).Finds start S

namespace Scoped

theorem finds_pure (a : α) : Finds start S (pure a) := fun _ => Check.finds_pure _

theorem finds_bind {c : Scoped α} {f : α → Scoped β} (hc : Finds start S c)
    (hf : ∀ a, Finds start S (f a)) : Finds start S (c >>= f) :=
  fun scopes => Check.finds_bind (hc scopes) fun r => hf r.1 r.2

theorem finds_reading {c : ScopeStack → Check α}
    (h : ∀ scopes, (c scopes).Finds start S) : Finds start S (reading c) :=
  fun scopes => Check.finds_bind (h scopes) fun _ => Check.finds_pure _

theorem finds_lift {c : Check α} (h : c.Finds start S) :
    Finds start S (liftM c : Scoped α) := finds_reading fun _ => h

theorem finds_classes_bind {f : ClassTable → Scoped β}
    (h : ∀ table, start.Grows table → Finds start S (f table)) :
    Finds start S ((liftM Check.classes : Scoped ClassTable) >>= f) :=
  fun scopes table ht => h table ht scopes table ht

theorem Finds.mono {T : Set Finding} {c : Scoped α} (h : Finds start S c) (hs : S ⊆ T) :
    Finds start T c := fun scopes => (h scopes).mono hs

theorem Finds.inside {c : Scoped α} (h : Finds start (plainAt places) c) :
    Finds start (insideAt places) c := fun scopes => (h scopes).inside

theorem finds_declare {span : Span} (h : span ∈ places) (v : Variable) :
    Finds start (plainAt places) (declare v span) := by
  intro scopes
  unfold declare ScopeStack.declare
  split
  · next inner hd => exact Check.finds_pure _
  · next problem hd =>
    have hf : problem.isPlain = true := by
      split at hd
      · cases hd
        rfl
      · split at hd <;> cases hd
        rfl
    exact Check.finds_bind (Check.finds_fail (S := plainAt places) ⟨h, hf⟩) fun _ =>
      Check.finds_pure _

theorem finds_within {kind : ScopeKind} {owner : ScopeOwner} {c : Scoped α}
    (h : Finds start S c) : Finds start S (within kind owner c) :=
  fun scopes => Check.finds_bind (h (scopes.push kind owner)) fun _ => Check.finds_pure _

theorem finds_both {c d : Scoped Bool} (hc : Finds start S c) (hd : Finds start S d) :
    Finds start S (do
      let failed ← c
      let alsoFailed ← d
      return failed || alsoFailed) :=
  finds_bind hc fun _ => finds_bind hd fun _ => finds_pure _

theorem finds_anyFails {f : α → Scoped Bool} {items : List α}
    (h : ∀ a ∈ items, Finds start S (f a)) : Finds start S (anyFails f items) := by
  induction items with
  | nil => exact finds_pure false
  | cons a items ih => exact finds_both (h a (by simp)) (ih fun b hb => h b (by simp [hb]))

theorem finds_failsAt {f : α → Scoped Bool} {items : List α}
    (h : ∀ a ∈ items, Finds start S (f a)) : Finds start S (failsAt f items) := by
  induction items with
  | nil => exact finds_pure false
  | cons a items ih =>
    apply finds_bind (h a (by simp))
    intro failed
    cases failed with
    | true => exact finds_pure true
    | false => exact ih fun b hb => h b (by simp [hb])

theorem finds_checkOptional {f : α → Scoped Bool} {item : Option α}
    (h : ∀ a ∈ item, Finds start S (f a)) : Finds start S (checkOptional f item) := by
  cases item with
  | none => exact finds_pure false
  | some a => exact h a rfl

end Scoped

open Scoped

theorem Declarator.finds_check {d : Declarator} (h : d.Placed places) (ty : Ty) :
    Scoped.Finds start (plainAt places) (d.check ty) := by
  have hlast (valueFailed : Bool) : Scoped.Finds start (plainAt places) (do
      let nameFailed ← Scoped.declare ⟨d.name.text, ty, true⟩ d.name.span
      return valueFailed || nameFailed) :=
    finds_bind (finds_declare h.name _) fun _ => finds_pure _
  unfold Declarator.check
  split
  · next value hv =>
    have hvalue := h.value value hv
    exact finds_bind (finds_reading fun scopes => Expr.finds_checkInitializer hvalue scopes ty)
      hlast
  · exact finds_bind (finds_pure false) hlast

theorem Declaration.finds_check {d : Declaration} (h : d.Placed places) :
    Scoped.Finds start (plainAt places) d.check := by
  apply finds_bind (finds_lift (Check.finds_expectValueType h.typeName))
  intro ty
  cases ty with
  | none => exact finds_pure true
  | some ty => exact finds_anyFails fun x hx => Declarator.finds_check (h.declarators x hx) ty

theorem ForInit.finds_check {init : ForInit} (h : init.Placed places) :
    Scoped.Finds start (plainAt places) init.check := by
  cases init with
  | declaration d => exact Declaration.finds_check h
  | expression e => exact finds_reading (Expr.finds_checkDenotes h)

theorem Stmt.finds_checkReturn {value : Option Expr} {span : Span}
    (hv : ∀ e ∈ value, e.Placed places) (hs : span ∈ places) {scopes : ScopeStack}
    (hm : scopes.currentMember? ≠ none) :
    Check.Finds start (plainAt places) (checkReturn value span scopes) := by
  unfold checkReturn
  split
  · exact absurd ‹_› hm
  · apply Check.finds_bind (Check.finds_quiet (Check.quiet_resolve _))
    intro expected
    split
    · exact Check.finds_pure true
    · split
      · exact Check.finds_failIf (S := plainAt places) ⟨hs, rfl⟩ _
      · next e =>
        have he : e.Placed places := hv e rfl
        apply Check.finds_bind (Expr.finds_denote he scopes)
        intro found
        split
        · exact Check.finds_pure true
        · apply Check.finds_bind (Check.finds_quiet Check.quiet_classes)
          intro table
          exact Check.finds_failIf (S := plainAt places) ⟨he.span, rfl⟩ _

theorem Stmt.finds_condition {e : Expr} (h : e.Placed places) :
    Scoped.Finds start (plainAt places) (Scoped.reading e.checkCondition) :=
  finds_reading (Expr.finds_checkCondition h)

theorem Stmt.finds_denotes {e : Expr} (h : e.Placed places) :
    Scoped.Finds start (plainAt places) (Scoped.reading e.checkDenotes) :=
  finds_reading (Expr.finds_checkDenotes h)

end ClassLang
