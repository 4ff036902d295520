import ClassLang.Proofs.ScopeGrowth
import ClassLang.Types.Meaning
import Mathlib.Data.Set.Lattice

namespace ClassLang

section Names

mutual

def Expr.names : Expr → List String
  | .literal .. => []
  | .ident name => [name.text]
  | .member target _ _ => target.names
  | .call callee arguments _ => callee.names ++ allNames arguments
  | .new className arguments _ => className.text :: allNames arguments
  | .unary _ operand _ => operand.names
  | .binary left _ right _ => left.names ++ right.names
  | .assign target _ value _ => target.names ++ value.names

def Expr.allNames : List Expr → List String
  | [] => []
  | e :: rest => e.names ++ allNames rest

end

def Declarator.names (d : Declarator) : List String := d.value.elim [] Expr.names

def Declaration.names (d : Declaration) : List String :=
  d.typeName.text :: d.declarators.flatMap Declarator.names

def ForInit.names : ForInit → List String
  | .declaration d => d.names
  | .expression e => e.names

mutual

def Stmt.names : Stmt → List String
  | .block statements _ => allNames statements
  | .continueLoop _ | .breakLoop _ => []
  | .ret value _ => value.elim [] Expr.names
  | .declaration d => d.names
  | .whileLoop condition body _ | .doLoop body condition _ => condition.names ++ body.names
  | .ifThen condition thenBranch _ => condition.names ++ thenBranch.names
  | .ifElse condition thenBranch elseBranch _ =>
    condition.names ++ (thenBranch.names ++ elseBranch.names)
  | .forLoop init condition step body _ =>
    init.elim [] ForInit.names ++ (condition.elim [] Expr.names ++
      (step.elim [] Expr.names ++ body.names))
  | .expression e _ => e.names

def Stmt.allNames : List Stmt → List String
  | [] => []
  | s :: rest => s.names ++ allNames rest

end

def Block.names (b : Block) : List String := Stmt.allNames b.statements

/-- The names of types that a member shows to others. -/
def Member.signature (m : Member) : List String := m.declaredType.text :: m.parameterTypes

def Member.names (m : Member) : List String :=
  m.signature ++
    match m.kind with
    | .field declarators => declarators.flatMap Declarator.names
    | .method routine | .operator routine => routine.body.elim [] Block.names

/-- The name of a class and of its base, and the names in its members that may stand for types.
Where only a member or a variable can be named, names do not count. -/
def ClassDef.names (c : ClassDef) : List String :=
  c.name :: (c.baseName?.toList ++ c.members.flatMap Member.names)

def Program.names (p : Program) : List String := p.classes.flatMap ClassDef.names

end Names

/-- What a check may ask a table about a name. -/
inductive Query where
  /-- Which class is registered under it, and what that inherits. -/
  | find (name : String)
  | resolve (name : String)

namespace Query

def findAll (names : Set String) : Set Query := {q | ∃ name ∈ names, q = .find name}

def resolveAll (names : List String) : Set Query := {q | ∃ name ∈ names, q = .resolve name}

variable {known : Set Query} {names more : List String} {name : String}

@[simp]
theorem resolveAll_subset :
    resolveAll names ⊆ known ↔ ∀ name ∈ names, .resolve name ∈ known := by
  constructor
  · exact fun h name hn => h ⟨name, hn, rfl⟩
  · rintro h _ ⟨name, hn, rfl⟩
    exact h name hn

theorem resolveAll_cons_subset :
    resolveAll (name :: names) ⊆ known ↔ .resolve name ∈ known ∧ resolveAll names ⊆ known := by
  simp

theorem resolveAll_append_subset :
    resolveAll (names ++ more) ⊆ known ↔ resolveAll names ⊆ known ∧ resolveAll more ⊆ known := by
  simp only [resolveAll_subset, List.forall_mem_append]

theorem resolveAll_flatMap_subset {α : Type} {items : List α} {f : α → List String} :
    resolveAll (items.flatMap f) ⊆ known ↔ ∀ a ∈ items, resolveAll (f a) ⊆ known := by
  simp only [resolveAll_subset, List.mem_flatMap]
  constructor
  · exact fun h a ha name hn => h name ⟨a, ha, hn⟩
  · rintro h name ⟨a, ha, hn⟩
    exact h a ha name hn

theorem resolveAll_subset_of_mem {α : Type} {item : Option α} {f : α → List String}
    (h : resolveAll (item.elim [] f) ⊆ known) {a : α} (ha : a ∈ item) :
    resolveAll (f a) ⊆ known := by
  obtain rfl : item = some a := ha
  exact h

end Query

/-- What others may ask because of a class that they have found. -/
def ClassDef.exposed (c : ClassDef) : Set Query :=
  Query.findAll {name | name = c.name ∨ name ∈ c.baseName?} ∪
    Query.resolveAll (c.members.flatMap Member.signature)

theorem ClassDef.find_name_exposed (c : ClassDef) : .find c.name ∈ c.exposed :=
  .inl ⟨c.name, .inl rfl, rfl⟩

theorem ClassDef.signature_exposed {c : ClassDef} {m : Member} (hm : m ∈ c.members) :
    Query.resolveAll m.signature ⊆ c.exposed := by
  rintro _ ⟨name, hn, rfl⟩
  exact .inr ⟨name, List.mem_flatMap.mpr ⟨m, hm, hn⟩, rfl⟩

theorem ClassDef.mem_names_of_base {c : ClassDef} {base : String} (hb : base ∈ c.baseName?) :
    base ∈ c.names :=
  List.mem_cons_of_mem _ (List.mem_append_left _ (Option.mem_toList.mpr hb))

theorem ClassDef.mem_names_of_member {c : ClassDef} {m : Member} (hm : m ∈ c.members)
    {name : String} (hn : name ∈ m.names) : name ∈ c.names :=
  List.mem_cons_of_mem _ (List.mem_append_right _ (List.mem_flatMap.mpr ⟨m, hm, hn⟩))

def ClassDef.queries (c : ClassDef) : Set Query :=
  Query.findAll {name | name = c.name ∨ name ∈ c.baseName?} ∪ Query.resolveAll c.names

theorem ClassDef.exposed_subset_queries (c : ClassDef) : c.exposed ⊆ c.queries := by
  rintro _ (hq | ⟨name, hn, rfl⟩)
  · exact .inl hq
  · obtain ⟨m, hm, hs⟩ := List.mem_flatMap.mp hn
    exact .inr ⟨name, mem_names_of_member hm (List.mem_append_left _ hs), rfl⟩

section Class

variable {c : ClassDef} {known : Set Query} (h : c.queries ⊆ known)

include h

theorem ClassDef.find_name_of_queries : .find c.name ∈ known := h (.inl ⟨c.name, .inl rfl, rfl⟩)

theorem ClassDef.find_base_of_queries : ∀ base ∈ c.baseName?, .find base ∈ known :=
  fun base hb => h (.inl ⟨base, .inr hb, rfl⟩)

theorem ClassDef.resolve_base_of_queries : ∀ base ∈ c.baseName?, .resolve base ∈ known :=
  fun base hb => h (.inr ⟨base, mem_names_of_base hb, rfl⟩)

theorem ClassDef.member_names_of_queries {m : Member} (hm : m ∈ c.members) :
    Query.resolveAll m.names ⊆ known := by
  rintro _ ⟨name, hn, rfl⟩
  exact h (.inr ⟨name, mem_names_of_member hm hn, rfl⟩)

theorem ClassDef.declaredType_of_queries {m : Member} (hm : m ∈ c.members) :
    .resolve m.declaredType.text ∈ known :=
  member_names_of_queries h hm ⟨_, List.mem_append_left _ List.mem_cons_self, rfl⟩

end Class

/-- What may be asked because of a value. -/
class Mentions (α : Type) where
  mentioned : α → Set Query

open Mentions

section Values

variable {α β : Type} [Mentions α] [Mentions β]

instance : Mentions Bool := ⟨fun _ => ∅⟩

instance : Mentions Unit := ⟨fun _ => ∅⟩

instance : Mentions Ty where
  mentioned
    | .classRef name => {.find name}
    | .list element => {.find (listName element.name)}
    | .primitive _ | .void => ∅

instance : Mentions Meaning where
  mentioned
    | .value ty _ | .typeName ty => mentioned ty
    | .method className _ _ => {.find className}

instance : Mentions (Option α) := ⟨fun o => ⋃ a ∈ o, mentioned a⟩

instance : Mentions (List α) := ⟨fun items => ⋃ a ∈ items, mentioned a⟩

instance : Mentions (α × β) := ⟨fun r => mentioned r.1 ∪ mentioned r.2⟩

instance : Mentions Variable := ⟨fun v => mentioned v.ty⟩

instance : Mentions ScopeOwner where
  mentioned
    | .classDef c => {.find c.name}
    | .member m => {.resolve m.declaredType.text}
    | .code => ∅

instance : Mentions Scope := ⟨fun s => mentioned s.owner ∪ mentioned s.declared⟩

variable {known : Set Query}

@[simp]
theorem mentioned_bool (b : Bool) : mentioned b = ∅ := rfl

@[simp]
theorem mentioned_unit (u : Unit) : mentioned u = ∅ := rfl

@[simp]
theorem mentioned_primitive (p : Primitive) : mentioned (Ty.primitive p) = ∅ := rfl

@[simp]
theorem mentioned_void : mentioned Ty.void = ∅ := rfl

theorem mentioned_ty_subset (ty : Ty) : mentioned ty ⊆ {.find ty.name} := by
  cases ty with
  | classRef _ | list _ => exact subset_rfl
  | primitive _ | void => exact Set.empty_subset _

@[simp]
theorem mentioned_value (ty : Ty) (assignable : Bool) :
    mentioned (Meaning.value ty assignable) = mentioned ty := rfl

@[simp]
theorem mentioned_result (ty : Ty) : mentioned (Meaning.result ty) = mentioned ty := rfl

@[simp]
theorem mentioned_typeName (ty : Ty) : mentioned (Meaning.typeName ty) = mentioned ty := rfl

@[simp]
theorem mentioned_method (className name : String) (throughType : Bool) :
    mentioned (Meaning.method className name throughType) = {.find className} := rfl

@[simp]
theorem mentioned_none : mentioned (none : Option α) = ∅ := by
  simp [mentioned]

@[simp]
theorem mentioned_some (a : α) : mentioned (some a) = mentioned a := by
  simp [mentioned]

@[simp]
theorem mentioned_pair (a : α) (b : β) : mentioned (a, b) = mentioned a ∪ mentioned b := rfl

theorem mentioned_list_subset {items : List α} :
    mentioned items ⊆ known ↔ ∀ a ∈ items, mentioned a ⊆ known := Set.iUnion₂_subset_iff

@[simp]
theorem mentioned_nil : mentioned ([] : List α) = ∅ := by
  simp [mentioned]

@[simp]
theorem mentioned_cons (a : α) (items : List α) :
    mentioned (a :: items) = mentioned a ∪ mentioned items := by
  simp [mentioned, Set.iUnion_or, Set.iUnion_union_distrib]

theorem mentioned_valueType? {meaning : Meaning} {ty : Ty} (h : meaning.valueType? = some ty) :
    mentioned ty ⊆ mentioned meaning := by
  cases meaning with
  | value _ _ =>
    cases h
    exact subset_rfl
  | typeName _ | method _ _ _ => cases h

theorem mentioned_mapM {f : α → Option β} (hf : ∀ a b, f a = some b → mentioned b ⊆ mentioned a)
    {items : List α} {values : List β} (h : items.mapM f = some values) :
    mentioned values ⊆ mentioned items := by
  induction items generalizing values with
  | nil =>
    cases h
    simp
  | cons a items ih =>
    simp only [List.mapM_cons, Option.bind_eq_bind, Option.bind_eq_some_iff] at h
    obtain ⟨b, hb, rest, hr, hv⟩ := h
    cases hv
    rw [mentioned_cons, mentioned_cons]
    exact Set.union_subset_union (hf a b hb) (ih hr)

end Values

namespace ScopeStack

variable {scopes : ScopeStack}

theorem mentioned_lookup? {name : String} {v : Variable} (h : scopes.lookup? name = some v) :
    mentioned v.ty ⊆ mentioned scopes := by
  obtain ⟨s, hs, hf⟩ := List.exists_of_findSome?_eq_some h
  have hv : mentioned v ⊆ mentioned s.declared :=
    mentioned_list_subset.mp subset_rfl v (List.mem_of_find?_eq_some hf)
  have hd : mentioned s.declared ⊆ mentioned s := Set.subset_union_right
  exact hv.trans (hd.trans (mentioned_list_subset.mp subset_rfl s hs))

theorem mentioned_currentClass? {c : ClassDef} (h : scopes.currentClass? = some c) :
    .find c.name ∈ mentioned scopes := by
  obtain ⟨s, hs, hf⟩ := List.exists_of_findSome?_eq_some h
  refine mentioned_list_subset.mp subset_rfl s hs (.inl ?_)
  split at hf
  · next d ho =>
    cases hf
    rw [ho]
    rfl
  · cases hf

theorem mentioned_currentMember? {m : Member} (h : scopes.currentMember? = some m) :
    .resolve m.declaredType.text ∈ mentioned scopes := by
  obtain ⟨s, hs, hf⟩ := List.exists_of_findSome?_eq_some h
  refine mentioned_list_subset.mp subset_rfl s hs (.inl ?_)
  split at hf
  · next n ho =>
    cases hf
    rw [ho]
    rfl
  · cases hf

theorem mentioned_push (kind : ScopeKind) (owner : ScopeOwner) :
    mentioned (scopes.push kind owner) = mentioned owner ∪ mentioned scopes := by
  have hs : mentioned (⟨kind, owner, []⟩ : Scope) = mentioned owner := by
    change mentioned owner ∪ mentioned ([] : List Variable) = mentioned owner
    simp
  rw [push, mentioned_cons, hs]

theorem mentioned_pop : mentioned scopes.pop ⊆ mentioned scopes := by
  cases scopes with
  | nil => exact subset_rfl
  | cons s outer =>
    rw [mentioned_cons]
    exact Set.subset_union_right

theorem mentioned_declare {v : Variable} {inner : ScopeStack} {known : Set Query}
    (h : scopes.declare v = .ok inner) (hs : mentioned scopes ⊆ known) (hv : mentioned v ⊆ known) :
    mentioned inner ⊆ known := by
  obtain rfl := eq_extend_of_declare h
  cases scopes with
  | nil => exact hs
  | cons s outer =>
    rw [mentioned_cons] at hs
    obtain ⟨hin, hout⟩ := Set.union_subset_iff.mp hs
    obtain ⟨howner, hdecl⟩ := Set.union_subset_iff.mp hin
    rw [extend, mentioned_cons]
    refine Set.union_subset (Set.union_subset howner ?_) hout
    rw [mentioned_list_subset] at hdecl ⊢
    intro w hw
    obtain hw | hw := List.mem_append.mp hw
    · exact hdecl w hw
    · obtain rfl := List.mem_singleton.mp hw
      exact hv

end ScopeStack

end ClassLang
