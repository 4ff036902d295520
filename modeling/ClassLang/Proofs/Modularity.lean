import ClassLang.Proofs.OrderIndependence
import ClassLang.Proofs.Resolution
import ClassLang.Types.WordChar
import Mathlib.Logic.Function.Iterate

namespace ClassLang

open ClassTable Mentions

theorem length_iterate_listName (depth : Nat) (name : String) :
    (listName^[depth] name).length = name.length + 5 * depth := by
  have hlist : "_list".length = 5 := by decide
  induction depth with
  | zero => rfl
  | succ depth ih =>
    rw [Function.iterate_succ_apply', listName, String.length_append, ih, hlist]
    omega

theorem ClassDef.signature_listOf {element : Ty} {name : String}
    (h : name ∈ (listOf element).members.flatMap Member.signature) :
    name = "void" ∨ name = Primitive.int.keyword ∨ name = element.name := by
  have hsignatures : (listOf element).members.flatMap Member.signature =
      ["void", element.name] ++ ["void", "int"] ++ ["void"] ++ [element.name, "int"] ++
        ["void", "int", element.name] ++ ["void", "int", element.name] ++ ["int"] := rfl
  have hint : Primitive.int.keyword = "int" := rfl
  rw [hsignatures] at h
  rw [hint]
  simp only [List.mem_append, List.mem_cons, List.not_mem_nil, or_false] at h
  tauto

variable [Alphabet]

/-- Names that lead to no others: the keywords of the primitive types are among them, and so is the
element's name with the name of a list. -/
structure World where
  names : Set String
  keyword : ∀ p : Primitive, p.keyword ∈ names
  element : ∀ name ∈ names, ∀ element, listElement? name = some element → element ∈ names

namespace World

variable {world : World}

/-- What may be asked in a world. `void` stands for itself in all tables, but a class of that name
is another matter. -/
def asked (world : World) : Set Query :=
  Query.findAll world.names ∪ {q | ∃ name, (name ∈ world.names ∨ name = "void") ∧ q = .resolve name}

@[simp]
theorem find_mem_asked {name : String} : .find name ∈ world.asked ↔ name ∈ world.names := by
  simp [asked, Query.findAll]

@[simp]
theorem resolve_mem_asked {name : String} :
    .resolve name ∈ world.asked ↔ name ∈ world.names ∨ name = "void" := by
  simp [asked, Query.findAll]

/-- The methods of lists lead to the type of the elements, and to nothing else outside of the
language itself. -/
theorem exposed_listOf {element : Ty} (he : element.name ∈ world.names)
    (hl : listName element.name ∈ world.names) :
    (ClassDef.listOf element).exposed ⊆ world.asked := by
  rintro _ (⟨found, rfl | hb, rfl⟩ | ⟨resolved, hr, rfl⟩)
  · exact find_mem_asked.mpr hl
  · cases hb
  · rw [resolve_mem_asked]
    obtain rfl | rfl | rfl := ClassDef.signature_listOf hr
    · exact .inr rfl
    · exact .inl (world.keyword .int)
    · exact .inl he

end World

/-- Tables that hold the same classes under the names of a world, and classes that lead to nothing
outside of it. -/
structure ClassTable.SharedIn (world : World) (table other : ClassTable) : Prop where
  same : ∀ name ∈ world.names, other.get? name = table.get? name
  confined : ∀ name ∈ world.names, ∀ c, table.get? name = some c → c.exposed ⊆ world.asked

namespace ClassTable.SharedIn

variable {world : World} {table other : ClassTable} {name : String}

theorem typeOf? (h : SharedIn world table other) (hn : .resolve name ∈ world.asked) :
    other.typeOf? name = table.typeOf? name := by
  obtain hname | rfl := World.resolve_mem_asked.mp hn
  · apply typeOf?_congr_on world.element (fun n hin _ => ?_) hname
    rw [contains, contains, h.same n hin]
  · rw [typeOf?_void, typeOf?_void]

theorem resolve (h : SharedIn world table other) (hn : .resolve name ∈ world.asked) :
    SharedIn world (table.resolve name).2 (other.resolve name).2 := by
  constructor
  · intro n hin
    rw [get?_resolve_eq, get?_resolve_eq, h.same n hin, h.typeOf? hn]
  · intro n hin c hc
    obtain hold | ⟨-, element, htype, hnew⟩ := get?_resolve table name n
    · exact h.confined n hin c (hold.symm.trans hc)
    · cases hnew.symm.trans hc
      have helement := (typeOf?_eq_list_iff.mp htype).1
      have hname := (listElement?_eq_some_iff.mp helement).1
      exact World.exposed_listOf (world.element n hin _ helement) (hname ▸ hin)

end ClassTable.SharedIn

def Kinship.within (world : World) : Kinship where
  related := SharedIn world
  allowed _ _ := world.asked
  get?_eq h name hn := h.same name (World.find_mem_asked.mp hn)
  exposed h name c hn := h.confined name (World.find_mem_asked.mp hn) c
  primitive _ p := World.find_mem_asked.mpr (world.keyword p)
  typeOf?_eq h _ hn := h.typeOf? hn
  resolve h _ hn := h.resolve hn
  keeps _ _ _ := subset_rfl
  resolved {table _} _ name hn := by
    obtain hname | rfl := World.resolve_mem_asked.mp hn
    · apply (table.mentioned_typeOf? name).trans
      exact Set.singleton_subset_iff.mpr (World.find_mem_asked.mpr hname)
    · rw [typeOf?_void]
      simp

namespace Program

variable {p q : Program}

/-- The names that matter to the check of a program: the keywords, those that it uses, and those of
the elements in them. -/
def world (p : Program) : World where
  names := {name | (∃ prim : Primitive, prim.keyword = name) ∨
    ∃ depth, listName^[depth] name ∈ p.names}
  keyword prim := .inl ⟨prim, rfl⟩
  element name hn element he := by
    obtain ⟨prim, rfl⟩ | ⟨depth, hdepth⟩ := hn
    · have hword := (not_keyword_of_listElement he).2
      rw [Primitive.ofKeyword?_keyword] at hword
      cases hword
    · rw [(listElement?_eq_some_iff.mp he).1, ← Function.iterate_succ_apply] at hdepth
      exact .inr ⟨depth + 1, hdepth⟩

theorem mem_world_of_mem_names {name : String} (h : name ∈ p.names) : name ∈ p.world.names :=
  .inr ⟨0, h⟩

theorem queries_subset_world {c : ClassDef} (hc : c ∈ p.classes) : c.queries ⊆ p.world.asked := by
  have hname (name : String) (hn : name ∈ c.names) : name ∈ p.world.names :=
    mem_world_of_mem_names (List.mem_flatMap.mpr ⟨c, hc, hn⟩)
  rintro _ (⟨name, rfl | hb, rfl⟩ | ⟨name, hn, rfl⟩)
  · exact World.find_mem_asked.mpr (hname c.name List.mem_cons_self)
  · exact World.find_mem_asked.mpr (hname name (ClassDef.mem_names_of_base hb))
  · exact World.resolve_mem_asked.mpr (.inl (hname name hn))

/-- No class of `q` has the name of a primitive type, or what remains of a name in `p` when `_list`
is taken off its end any number of times. -/
def Apart (p q : Program) : Prop :=
  ∀ d ∈ q.classes, Primitive.ofKeyword? d.name = none ∧ ∀ depth, listName^[depth] d.name ∉ p.names

omit [Alphabet] in
/-- What remains of a name is no longer than the name, so there are finitely many cases. -/
theorem apart_iff :
    p.Apart q ↔ ∀ d ∈ q.classes, Primitive.ofKeyword? d.name = none ∧
      ∀ text ∈ p.names, ∀ depth ≤ text.length, listName^[depth] d.name ≠ text := by
  refine forall₂_congr fun d _ => and_congr_right fun _ => ?_
  constructor
  · rintro h text ht depth - rfl
    exact h depth ht
  · intro h depth hd
    have hlen := length_iterate_listName depth d.name
    exact h _ hd depth (by omega) rfl

instance : Decidable (p.Apart q) := decidable_of_iff _ apart_iff.symm

theorem Apart.not_mem_world (h : p.Apart q) {d : ClassDef} (hd : d ∈ q.classes) :
    d.name ∉ p.world.names := by
  obtain ⟨hword, hfree⟩ := h d hd
  rintro (⟨prim, hprim⟩ | ⟨depth, hdepth⟩)
  · rw [← hprim, Primitive.ofKeyword?_keyword] at hword
    cases hword
  · exact hfree depth hdepth

theorem Apart.sharedIn (h : p.Apart q) :
    SharedIn p.world p.registered (⟨p.classes ++ q.classes⟩ : Program).registered := by
  constructor
  · intro name hn
    have hnone : q.classes.reverse.find? (fun d => d.name == name) = none := by
      rw [List.find?_eq_none]
      intro d hd heq
      obtain rfl : d.name = name := by simpa using heq
      exact h.not_mem_world (List.mem_reverse.mp hd) hn
    rw [registered, registered, get?_registerAll, get?_registerAll, List.reverse_append,
      List.find?_append, hnone, Option.none_or]
  · intro name _ c hc
    have hmem := mem_of_get?_registerAll hc
    exact c.exposed_subset_queries.trans (queries_subset_world hmem)

theorem Apart.findings_checkClasses (h : p.Apart q) :
    (p.checkClasses (⟨p.classes ++ q.classes⟩ : Program).registered).findings =
      (p.checkClasses p.registered).findings := by
  have hagree : Check.Agree (Kinship.within p.world) p.queries p.checkClasses :=
    Check.agree_anyFails fun c hc => agree_checkAlone hc
  have hqueries : p.queries ⊆ p.world.asked := by
    rintro query ⟨c, hc, hq⟩
    exact queries_subset_world hc hq
  exact (hagree h.sharedIn hqueries).findings

/-- If the classes of `q` have other names than those that matter to `p`, then what is reported for
`p` alone is what is reported first for `p` with `q` after it. -/
theorem diagnostics_modular {p q : Program} (h : p.Apart q) (file : String) :
    (Context.run { file } p.check).2.diagnostics <+:
      (Context.run { file } (⟨p.classes ++ q.classes⟩ : Program).check).2.diagnostics := by
  rw [diagnostics_run, diagnostics_run, check_empty, check_empty]
  apply List.IsPrefix.map
  rw [← h.findings_checkClasses]
  exact Check.prefix_findings_anyFails _ _ p.classes q.classes

end Program

end ClassLang

namespace ClassLang

open ClassTable Mentions

attribute [local instance] Alphabet.unicode

namespace Program

/-- Here `q` declares the class behind a list that `p` does not use, and one by the name of a field
of `p`. -/
theorem diagnostics_modular_of_lists :
    let p : Program := ⟨[counter, holder "int_list", numbers]⟩
    let q : Program := ⟨[simpleClass "int_list_list" none [], simpleClass "items" (some "Item") []]⟩
    let both : Program := ⟨p.classes ++ q.classes⟩
    p.Apart q ∧
      (Context.run { file := "Main.lang" } p.check).2.diagnostics.map (fun d => d.problem) =
        [.identifierNotFound "Count", .concreteBase "Numbers" "int_list"] ∧
      (Context.run { file := "Main.lang" } both.check).2.diagnostics.length = 3 ∧
      (Context.run { file := "Main.lang" } p.check).2.diagnostics <+:
        (Context.run { file := "Main.lang" } both.check).2.diagnostics := by
  intro p q both
  have h : p.Apart q := by decide +kernel
  exact ⟨h, by decide +kernel, by decide +kernel, diagnostics_modular h "Main.lang"⟩

end Program

end ClassLang
