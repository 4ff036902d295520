import ClassLang.Proofs.OrderIndependence
import ClassLang.Types.WordChar

namespace ClassLang

def listSurface (element : String) : List (String × List String × String) :=
  [("Append", [element], "void"),
   ("RemoveAt", ["int"], "void"),
   ("Clear", [], "void"),
   ("At", ["int"], element),
   ("Replace", ["int", element], "void"),
   ("Insert", ["int", element], "void"),
   ("Count", [], "int")]

/-- The class offers the given methods, in this order, each to everyone and through values, and it
has nothing else. -/
structure ClassDef.Offers (c : ClassDef) (surface : List (String × List String × String)) :
    Prop where
  surface : c.members.map (fun m => (m.name, m.parameterTypes, m.declaredType.text)) = surface
  methods : c.methods.map Prod.fst = c.members
  plain : ∀ m ∈ c.members, m.visibility = .everywhere ∧ m.modifier = .normal ∧ m.isStatic = false
  alone : c.base = none

theorem ClassDef.offers_listOf (element : Ty) :
    (ClassDef.listOf element).Offers (listSurface element.name) := by
  refine ⟨rfl, rfl, ?_, rfl⟩
  simp [listOf, listMethods, Member.provided]

variable [Alphabet]

theorem isBackendName_of_listElement {name element : String}
    (h : listElement? name = some element) : isBackendName name = false := by
  have hkeyword : Primitive.all.any (fun p => p.keyword == name) = false := by
    have hnone := (ClassTable.not_keyword_of_listElement h).2
    rw [Primitive.ofKeyword?, List.find?_eq_none] at hnone
    rw [List.any_eq_false]
    exact hnone
  have hlist : name ≠ "list" := by
    rintro rfl
    have hnone : listElement? "list" = none := listElement?_eq_none (by decide)
    rw [hnone] at h
    cases h
  simp [isBackendName, hkeyword, hlist]

namespace Program

open ClassTable

variable {p : Program} {name : String} {element : Ty}

/-- Where the program declares no class of that name, the class behind a list type is the provided
one, whatever else was checked before. -/
theorem get?_list_of_undeclared {after : ClassTable} (hg : p.registered.Grows after)
    (hs : after.Settled name) (ht : p.registered.typeOf? name = some (.list element))
    (hn : name ∉ p.classes.map ClassDef.name) : after.get? name = some (.listOf element) := by
  obtain ⟨c, hc⟩ := contains_iff.mp (hs element ((hg.typeOf? name).trans ht))
  obtain hold | ⟨other, hother, rfl⟩ := hg.get?_of_grown hc
  · exact absurd ((contains_registerAll p.classes name).mp (contains_of_get? hold)) hn
  · cases ht.symm.trans hother
    exact hc

/-- A class that was checked without a report and has the name of a list is not the provided one: it
would be marked as the language's own. -/
theorem ne_listOf_of_clean (h : (p.check .empty).findings = []) {c : ClassDef}
    (hc : c ∈ p.classes) {word : String} (hl : listElement? c.name = some word) (element : Ty) :
    c ≠ .listOf element := by
  rintro rfl
  have hbackend := (cleared_of_clean h _ hc).backend rfl
  rw [isBackendName_of_listElement hl] at hbackend
  cases hbackend

/-- If nothing is wrong with a program, the class behind a list type offers what the language
provides, and nothing else, exactly if the program declares no class of that name. A class that it
declares is the one behind the list. -/
theorem list_surface_iff_undeclared {file : String}
    (h : (Context.run { file } p.check).2.diagnostics = [])
    (hr : ((Context.run { file } p.check).2.classes.resolve name).1 = some (.list element)) :
    let after := ((Context.run { file } p.check).2.classes.resolve name).2
    (after.get? name = some (.listOf element) ↔ name ∉ p.classes.map ClassDef.name) ∧
      (ClassDef.listOf element).Offers (listSurface element.name) ∧
      ∀ c, p.registered.get? name = some c → after.get? name = some c := by
  intro after
  rw [diagnostics_run, List.map_eq_nil_iff] at h
  have hg : p.registered.Grows after := p.grows_checkedTable.trans (.resolve _ name)
  have ht : p.registered.typeOf? name = some (.list element) :=
    (p.grows_checkedTable.typeOf? name).symm.trans hr
  have hs : after.Settled name := settled_resolve _ name
  refine ⟨⟨fun hlist hn => ?_, get?_list_of_undeclared hg hs ht⟩,
    ClassDef.offers_listOf element, fun c => hg.get?_of_some⟩
  obtain ⟨c, hc⟩ := contains_iff.mp ((contains_registerAll p.classes name).mpr hn)
  obtain rfl : c = .listOf element := Option.some.inj ((hg.get?_of_some hc).symm.trans hlist)
  have hl : listElement? (ClassDef.listOf element).name = some element.name := by
    rw [get?_name hc]
    exact (typeOf?_eq_list_iff.mp ht).1
  exact ne_listOf_of_clean h (mem_of_get?_registerAll hc) hl element rfl

end Program

end ClassLang

namespace ClassLang

attribute [local instance] Alphabet.unicode

namespace Program

open ClassTable

theorem list_surface_of_holder :
    let p : Program := ⟨[holder "Shape_list_list", simpleClass "Shape" none []]⟩
    let table := (Context.run { file := "Main.lang" } p.check).2.classes
    let shapes : Ty := .list (.classRef "Shape")
    (Context.run { file := "Main.lang" } p.check).2.diagnostics = [] ∧
      (table.resolve "Shape_list_list").1 = some (.list shapes) ∧
      (table.resolve "Shape_list_list").2.get? "Shape_list_list" = some (.listOf shapes) := by
  intro p table shapes
  have h : (Context.run { file := "Main.lang" } p.check).2.diagnostics = [] := by decide +kernel
  have hr : (table.resolve "Shape_list_list").1 = some (.list shapes) := by decide +kernel
  exact ⟨h, hr, (list_surface_iff_undeclared h hr).1.mpr (by decide)⟩

/-- A class called `int_list` is accepted. The type of that name is still the lists of numbers, but
nothing can be called on them. -/
theorem list_surface_taken :
    let p : Program := ⟨[simpleClass "int_list" none []]⟩
    let table := (Context.run { file := "Main.lang" } p.check).2.classes
    let numbers : Ty := .primitive .int
    (Context.run { file := "Main.lang" } p.check).2.diagnostics = [] ∧
      (table.resolve "int_list").1 = some (.list numbers) ∧
      ((table.resolve "int_list").2.get? "int_list").map (fun c => c.members.length) = some 0 ∧
      (table.resolve "int_list").2.get? "int_list" ≠ some (.listOf numbers) := by
  intro p table numbers
  have hempty :
      ((table.resolve "int_list").2.get? "int_list").map (fun c => c.members.length) = some 0 := by
    decide +kernel
  refine ⟨by decide +kernel, by decide +kernel, hempty, fun hlist => ?_⟩
  rw [hlist] at hempty
  cases hempty

end Program

end ClassLang
