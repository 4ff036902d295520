import ClassLang.Check.Class
import ClassLang.Proofs.Chains
import ClassLang.Proofs.Revision
import Mathlib.Data.List.Basic

namespace ClassLang

variable {rev : Revision}

namespace Member

variable (m n : Member)

theorem name_revised : (m.revised rev).name = m.name := by
  obtain ⟨_, _, _, _, _, _, kind⟩ := m
  cases kind with
  | field declarators => cases declarators <;> rfl
  | method _ | operator _ => rfl

theorem parameterTypes_revised : (m.revised rev).parameterTypes = m.parameterTypes := by
  obtain ⟨_, _, _, _, _, _, kind⟩ := m
  cases kind with
  | field _ => rfl
  | method _ | operator _ => exact List.map_map

theorem sameSignature_revised :
    (m.revised rev).sameSignature (n.revised rev) = m.sameSignature n := by
  simp only [sameSignature, name_revised, parameterTypes_revised]
  rfl

theorem operatorKey?_revised : (m.revised rev).operatorKey? = m.operatorKey? := by
  obtain ⟨_, _, _, _, _, _, kind⟩ := m
  cases kind with
  | field _ | method _ => rfl
  | operator r =>
    simp only [revised, operatorKey?, MemberKind.revised, Routine.revised, List.foldl_map,
      List.length_map]
    rfl

theorem keys_revised : (m.revised rev).keys = m.keys.map (Prod.map id (Ident.revised rev)) := by
  have hkey : (m.revised rev).operatorKey? = m.operatorKey? := m.operatorKey?_revised
  obtain ⟨_, _, _, _, _, _, kind⟩ := m
  cases kind with
  | field declarators =>
    simp only [keys, revised, MemberKind.revised, List.map_map]
    rfl
  | method _ => rfl
  | operator r =>
    simp only [keys, hkey]
    rfl

end Member

theorem firstDuplicate?_revised (seen : List MemberKey) (keys : List (MemberKey × Ident)) :
    firstDuplicate? seen (keys.map (Prod.map id (Ident.revised rev))) =
      (firstDuplicate? seen keys).map (Ident.revised rev) := by
  induction keys generalizing seen with
  | nil => rfl
  | cons key keys ih =>
    simp only [List.map_cons, Prod.map, id_eq, firstDuplicate?, ih]
    split <;> rfl

namespace ClassDef

variable (c : ClassDef)

theorem name_revised : (c.revised rev).name = c.name := rfl

theorem baseName?_revised : (c.revised rev).baseName? = c.baseName? := Option.map_map ..

theorem filterMap_revised {α : Type} {f : Member → Option α} {h : α → α}
    (hf : ∀ m : Member, f (m.revised rev) = (f m).map h) :
    (c.revised rev).members.filterMap f = (c.members.filterMap f).map h := by
  rw [revised, List.filterMap_map, List.map_filterMap]
  exact congrArg (fun f => c.members.filterMap f) (funext hf)

theorem fields_revised :
    (c.revised rev).fields =
      c.fields.map (Prod.map (Member.revised rev) (List.map (Declarator.revised rev))) := by
  refine c.filterMap_revised fun m => ?_
  obtain ⟨_, _, _, _, _, _, kind⟩ := m
  cases kind <;> rfl

theorem methods_revised :
    (c.revised rev).methods =
      c.methods.map (Prod.map (Member.revised rev) (Routine.revised rev)) := by
  refine c.filterMap_revised fun m => ?_
  obtain ⟨_, _, _, _, _, _, kind⟩ := m
  cases kind <;> rfl

theorem operators_revised :
    (c.revised rev).operators =
      c.operators.map (Prod.map (Member.revised rev) (Routine.revised rev)) := by
  refine c.filterMap_revised fun m => ?_
  obtain ⟨_, _, _, _, _, _, kind⟩ := m
  cases kind <;> rfl

theorem findMethod?_revised (name : String) :
    (c.revised rev).findMethod? name = (c.findMethod? name).map (Member.revised rev) := by
  rw [findMethod?, findMethod?, methods_revised, List.find?_map, Option.map_map, Option.map_map]
  rfl

theorem findMember?_revised (name : String) :
    (c.revised rev).findMember? name = (c.findMember? name).map (Member.revised rev) := by
  rw [findMember?, findMember?, findMethod?_revised, fields_revised, List.find?_map, Option.map_or,
    Option.map_map, Option.map_map]
  congr 1
  exact congrArg (fun p => (c.fields.find? p).map (fun f => f.1.revised rev))
    (funext fun f => List.any_map)

theorem abstractMethods_revised :
    (c.revised rev).abstractMethods = c.abstractMethods.map (Member.revised rev) := by
  rw [abstractMethods, abstractMethods, methods_revised, List.map_map, List.filter_map,
    List.filter_map, List.map_map]
  rfl

theorem memberKeys_revised :
    (c.revised rev).memberKeys = c.memberKeys.map (Prod.map id (Ident.revised rev)) := by
  rw [memberKeys, memberKeys, revised, List.flatMap_map, List.map_flatMap]
  congr 1
  funext m
  exact m.keys_revised

theorem listOf_revised (element : Ty) : (listOf element).revised rev = listOf element := by
  simp [listOf, listMethods, Member.provided, Parameter.provided, Ident.provided, revised,
    Member.revised, MemberKind.revised, Routine.revised, Parameter.revised, Ident.revised,
    rev.place_nowhere]

end ClassDef

namespace ClassTable

def revised (rev : Revision) (table : ClassTable) : ClassTable :=
  ⟨table.classes.map (ClassDef.revised rev), by
    rw [List.map_map]
    exact table.nodup⟩

variable (table : ClassTable)

theorem names_revised : (table.revised rev).names = table.names := List.map_map

theorem get?_revised (name : String) :
    (table.revised rev).get? name = (table.get? name).map (ClassDef.revised rev) :=
  List.find?_map ..

theorem contains_revised (name : String) :
    (table.revised rev).contains name = table.contains name := by
  rw [contains, contains, get?_revised, Option.isSome_map]

section Growth

theorem register_revised (c : ClassDef) :
    (table.register c).revised rev = (table.revised rev).register (c.revised rev) := by
  apply ClassTable.ext
  by_cases h : c.name ∈ table.names
  · have hrevised : (c.revised rev).name ∈ (table.revised rev).names := table.names_revised ▸ h
    rw [register, register, dif_pos h, dif_pos hrevised]
    simp only [revised, replace, List.map_map]
    congr 1
    funext d
    exact apply_ite (ClassDef.revised rev) ..
  · have hrevised : (c.revised rev).name ∉ (table.revised rev).names := table.names_revised ▸ h
    rw [register, register, dif_neg h, dif_neg hrevised]
    exact List.map_append

theorem registerAll_revised (classes : List ClassDef) :
    (table.registerAll classes).revised rev =
      (table.revised rev).registerAll (classes.map (ClassDef.revised rev)) := by
  induction classes generalizing table with
  | nil => rfl
  | cons c classes ih => exact (ih (table.register c)).trans (by rw [register_revised]; rfl)

theorem ensureList_revised (element : Ty) :
    (table.ensureList element).revised rev = (table.revised rev).ensureList element := by
  rw [ensureList, ensureList, contains_revised, apply_ite (revised rev), register_revised,
    ClassDef.listOf_revised]

theorem withLists_revised (ty : Ty) :
    (table.withLists ty).revised rev = (table.revised rev).withLists ty := by
  induction ty with
  | primitive _ | classRef _ | void => rfl
  | list element ih => rw [withLists, withLists, ensureList_revised, ih]

variable [Alphabet]

theorem typeOf?_revised (name : String) : (table.revised rev).typeOf? name = table.typeOf? name :=
  typeOf?_congr (fun name _ => table.contains_revised name) name

theorem resolve_revised (name : String) :
    (table.revised rev).resolve name =
      ((table.resolve name).1, (table.resolve name).2.revised rev) := by
  apply Prod.ext
  · exact table.typeOf?_revised name
  · rw [resolve_snd, resolve_snd, typeOf?_revised]
    cases table.typeOf? name with
    | none => rfl
    | some ty => exact (table.withLists_revised ty).symm

end Growth

section Ancestry

theorem climb_revised (visited : List String) (base : Option String) :
    (table.revised rev).climb visited base =
      ⟨(table.climb visited base).ancestors.map (ClassDef.revised rev),
        (table.climb visited base).ending⟩ := by
  fun_induction climb table visited base with
  | case1 visited => exact climb_none (table.revised rev) visited
  | case2 visited name hv => exact climb_of_mem hv
  | case3 visited name hv hc =>
    have hrevised : (table.revised rev).get? name = none := by
      rw [get?_revised, hc]
      rfl
    exact climb_of_get?_none hv hrevised
  | case4 visited name hv c hc rest ih =>
    have hrevised : (table.revised rev).get? name = some (c.revised rev) := by
      rw [get?_revised, hc]
      rfl
    rw [climb_of_get?_some hv hrevised, ClassDef.baseName?_revised, ih]
    rfl

theorem ancestors_revised (c : ClassDef) :
    (table.revised rev).ancestors (c.revised rev) =
      (table.ancestors c).map (ClassDef.revised rev) := by
  rw [ancestors, chain, ClassDef.baseName?_revised, climb_revised]
  rfl

theorem isCyclic_revised (c : ClassDef) :
    (table.revised rev).isCyclic (c.revised rev) = table.isCyclic c := by
  rw [isCyclic, chain, ClassDef.baseName?_revised, climb_revised]
  rfl

theorem lineage_revised (name : String) :
    (table.revised rev).lineage name = (table.lineage name).map (ClassDef.revised rev) := by
  rw [lineage, lineage, get?_revised]
  cases table.get? name with
  | none => rfl
  | some c => exact congrArg (c.revised rev :: ·) (table.ancestors_revised c)

theorem isAncestor_revised (ancestor name : String) :
    (table.revised rev).isAncestor ancestor name = table.isAncestor ancestor name := by
  rw [isAncestor, isAncestor, get?_revised]
  cases table.get? name with
  | none => rfl
  | some c =>
    simp only [Option.map_some, ancestors_revised, List.any_map]
    rfl

theorem isAssignable_revised (source target : Ty) :
    (table.revised rev).isAssignable source target = table.isAssignable source target := by
  simp only [isAssignable, isAncestor_revised]

theorem builtinBinary_revised (symbol : String) (left right : Ty) :
    (table.revised rev).builtinBinary symbol left right =
      table.builtinBinary symbol left right := by
  simp only [builtinBinary, isAssignable_revised]

theorem isInstantiable_revised (ty : Ty) :
    (table.revised rev).isInstantiable ty = table.isInstantiable ty := by
  cases ty with
  | classRef name =>
    rw [isInstantiable, isInstantiable, get?_revised, Option.any_map]
    rfl
  | primitive _ | list _ | void => rfl

theorem hasOverridable_revised (c : ClassDef) (m : Member) :
    (table.revised rev).hasOverridable (c.revised rev) (m.revised rev) =
      table.hasOverridable c m := by
  simp only [hasOverridable, ancestors_revised, ClassDef.methods_revised, List.any_map,
    Function.comp_def, Prod.map_fst, Member.sameSignature_revised]
  rfl

end Ancestry

section Members

def revisedFound (rev : Revision) : ClassDef × Member → ClassDef × Member :=
  Prod.map (ClassDef.revised rev) (Member.revised rev)

theorem findSome?_lineage_revised {find : ClassDef → Option Member}
    (h : ∀ c, find (c.revised rev) = (find c).map (Member.revised rev)) (className : String) :
    ((table.revised rev).lineage className).findSome? (fun c => (find c).map (fun m => (c, m))) =
      ((table.lineage className).findSome? (fun c => (find c).map (fun m => (c, m)))).map
        (revisedFound rev) := by
  rw [lineage_revised, List.findSome?_map, List.map_findSome?]
  congr 1
  funext c
  simp only [Function.comp_apply, h, Option.map_map]
  rfl

theorem findMember?_revised (className name : String) :
    (table.revised rev).findMember? className name =
      (table.findMember? className name).map (revisedFound rev) :=
  table.findSome?_lineage_revised (fun c => c.findMember?_revised name) className

theorem findMethod?_revised (className name : String) :
    (table.revised rev).findMethod? className name =
      (table.findMethod? className name).map (revisedFound rev) :=
  table.findSome?_lineage_revised (fun c => c.findMethod?_revised name) className

theorem operatorCandidates_revised (className symbol : String) (count : Nat) :
    (table.revised rev).operatorCandidates className symbol count =
      (table.operatorCandidates className symbol count).map (Member.revised rev) := by
  rw [operatorCandidates, operatorCandidates, lineage_revised, List.flatMap_map, List.map_flatMap]
  congr 1
  funext c
  have hfits (r : Routine) :
      ((r.revised rev).name.text == symbol && (r.revised rev).parameters.length == count) =
        (r.name.text == symbol && r.parameters.length == count) := by
    simp [Routine.revised, Ident.revised]
  rw [ClassDef.operators_revised, List.filter_map, List.map_map, List.map_map]
  exact congrArg (fun p => (c.operators.filter p).map (fun r => r.1.revised rev))
    (funext fun r => hfits r.2)

end Members

end ClassTable

section Scopes

def ScopeOwner.revised (rev : Revision) : ScopeOwner → ScopeOwner
  | .classDef c => .classDef (c.revised rev)
  | .member m => .member (m.revised rev)
  | .code => .code

def Scope.revised (rev : Revision) (s : Scope) : Scope :=
  ⟨s.kind, s.owner.revised rev, s.declared⟩

namespace ScopeStack

def revised (rev : Revision) (scopes : ScopeStack) : ScopeStack := scopes.map (Scope.revised rev)

variable (scopes : ScopeStack)

theorem push_revised (kind : ScopeKind) (owner : ScopeOwner) :
    (scopes.push kind owner).revised rev =
      (scopes.revised rev).push kind (owner.revised rev) := rfl

theorem pop_revised : scopes.pop.revised rev = (scopes.revised rev).pop := List.map_tail

theorem lookup?_revised (name : String) :
    (scopes.revised rev).lookup? name = scopes.lookup? name := List.findSome?_map

theorem hasKind_revised (kind : ScopeKind) :
    (scopes.revised rev).hasKind kind = scopes.hasKind kind := List.any_map

theorem findSome?_revised {α : Type} {find : Scope → Option α} {h : α → α}
    (hfind : ∀ s, find (s.revised rev) = (find s).map h) :
    (scopes.revised rev).findSome? find = (scopes.findSome? find).map h := by
  rw [revised, List.findSome?_map, List.map_findSome?]
  exact congrArg (fun find => scopes.findSome? find) (funext hfind)

theorem currentClass?_revised :
    (scopes.revised rev).currentClass? = scopes.currentClass?.map (ClassDef.revised rev) := by
  refine scopes.findSome?_revised fun s => ?_
  obtain ⟨_, owner, _⟩ := s
  cases owner <;> rfl

theorem currentMember?_revised :
    (scopes.revised rev).currentMember? = scopes.currentMember?.map (Member.revised rev) := by
  refine scopes.findSome?_revised fun s => ?_
  obtain ⟨_, owner, _⟩ := s
  cases owner <;> rfl

theorem declare_revised (v : Variable) :
    (scopes.revised rev).declare v = (scopes.declare v).map (revised rev) := by
  rw [declare.eq_def, declare.eq_def, lookup?_revised]
  split
  · rfl
  · cases scopes <;> rfl

end ScopeStack

theorem ClassTable.isAccessible_revised (table : ClassTable) (scopes : ScopeStack)
    (owner : ClassDef) (m : Member) :
    (table.revised rev).isAccessible (scopes.revised rev) (owner.revised rev) (m.revised rev) =
      table.isAccessible scopes owner m := by
  unfold isAccessible
  simp only [ScopeStack.currentClass?_revised, Option.any_map, isAncestor_revised]
  rfl

end Scopes

end ClassLang
