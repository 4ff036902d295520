import ClassLang.Proofs.OrderIndependence
import ClassLang.Proofs.VisitGrowth
import ClassLang.Proofs.WiderTables
import ClassLang.Types.WordChar

namespace ClassLang

variable [Alphabet]

/-- If `new` denotes something, its name stands for a type that values can be made of, and all else
it does is to resolve the name. -/
theorem Expr.instantiable_of_answer_new {className : Ident} {arguments : List Expr} {span : Span}
    {s : Site} {meaning : Meaning}
    (h : s.answer (new className arguments span).meaning = some meaning) :
    ∃ ty, (s.table.resolve className.text).1 = some ty ∧
      (s.table.resolve className.text).2.isInstantiable ty = true ∧
      (s.after (new className arguments span).meaning).table =
        (s.table.resolve className.text).2 := by
  obtain rfl := of_answer_new h
  have h : ((new className [] span).denote s.scopes s.table).result = some meaning := h
  rw [s.table_meaning]
  rw [denote] at h ⊢
  obtain ⟨ty, htype, h⟩ := Check.exists_of_result_bind (fun _ => rfl) h
  rw [Check.table_bind, htype]
  dsimp only at h ⊢
  rw [Check.classes_bind_apply, Check.table_expectType] at h ⊢
  cases hi : (s.table.resolve className.text).2.isInstantiable ty with
  | false =>
    rw [hi] at h
    cases h
  | true => exact ⟨ty, Check.resolve_of_expectType htype, hi, rfl⟩

namespace ClassTable

variable {table : ClassTable} {name : String} {ty : Ty}

theorem Grows.resolve_of_resolved {final : ClassTable} (h : (table.resolve name).2.Grows final)
    (ht : (table.resolve name).1 = some ty) : final.resolve name = (some ty, final) := by
  have htype : (final.resolve name).1 = some ty :=
    (((Grows.resolve table name).trans h).typeOf? name).trans ht
  obtain ⟨names, rfl⟩ := h
  exact Prod.ext htype (resolve_resolveAll (List.mem_cons_self (l := names)) table)

theorem of_isInstantiable (ht : table.typeOf? name = some ty)
    (hi : table.isInstantiable ty = true) :
    (∃ element, ty = .list element) ∨
      ∃ c, table.get? name = some c ∧ c.modifier ≠ .abstract ∧ c.isPrimitive = false := by
  cases ty with
  | classRef className =>
    obtain rfl : className = name := name_of_typeOf? ht
    obtain ⟨c, hc, hplain⟩ := (Option.any_eq_true _ _).mp hi
    exact .inr ⟨c, hc, by simpa using hplain⟩
  | list element => exact .inl ⟨element, rfl⟩
  | primitive keyword => cases hi
  | void => cases hi

end ClassTable

namespace Program

open ClassTable

variable {p : Program}

/-- If nothing is wrong with a program, each `new` in it stands without arguments, and resolving its
name once more changes nothing. The class of that name is neither abstract nor marked as primitive,
unless it is one that the program declares under the name of a list. -/
theorem instantiation_rule {file : String} (h : (Context.run { file } p.check).2.diagnostics = [])
    {use : Use} {className : Ident} {arguments : List Expr} {span : Span}
    (hu : p.Uses use (.new className arguments span)) :
    let final := (Context.run { file } p.check).2.classes
    arguments = [] ∧ ∃ ty c, final.resolve className.text = (some ty, final) ∧
      final.get? className.text = some c ∧
      (c.modifier ≠ .abstract ∧ c.isPrimitive = false ∨
        c ∈ p.classes ∧ ∃ element, ty = .list element) := by
  intro final
  rw [diagnostics_run, List.map_eq_nil_iff] at h
  obtain ⟨s, hs⟩ := reaches_of_uses h hu
  obtain ⟨meaning, hmeaning⟩ := denotes_of_reaches h hs
  obtain ⟨ty, htype, hi, htable⟩ := Expr.instantiable_of_answer_new hmeaning
  have hlater : (s.table.resolve className.text).2.Grows final := by
    rw [← htable]
    exact grows_checkedTable_of_reaches hs
  have hfinal := hlater.resolve_of_resolved htype
  have ht : final.typeOf? className.text = some ty := congrArg Prod.fst hfinal
  have hsettled : final.Settled className.text := by
    have hs := settled_resolve final className.text
    rwa [hfinal] at hs
  refine ⟨Expr.of_answer_new hmeaning, ty, ?_⟩
  obtain ⟨element, rfl⟩ | ⟨c, hc, hplain⟩ := of_isInstantiable ht (hlater.widens.isInstantiable hi)
  · obtain ⟨c, hc⟩ := contains_iff.mp (hsettled element ht)
    refine ⟨c, hfinal, hc, ?_⟩
    obtain hold | ⟨_, -, rfl⟩ := p.grows_checkedTable.get?_of_grown hc
    · exact .inr ⟨mem_of_get?_registerAll hold, element, rfl⟩
    · exact .inl ⟨nofun, rfl⟩
  · exact ⟨c, hfinal, hc, .inl hplain⟩

def runner (e : Expr) : ClassDef :=
  simpleClass "Main" none [{
    Member.provided "Main" "Run" "void" [] with
    kind := .method ⟨.provided "Run", [], some ⟨[.expression e .nowhere], .nowhere⟩⟩ }]

omit [Alphabet] in
theorem uses_runner {e : Expr} (h : runner e ∈ p.classes) : p.Uses .statement e := by
  have hbody : p.Holds (.block [.expression e .nowhere] .nowhere) :=
    .body h (List.mem_singleton.mpr rfl) rfl
  have hstatement : p.Holds (.expression e .nowhere) :=
    hbody.inside (List.mem_singleton.mpr rfl)
  exact .statement hstatement (List.mem_singleton.mpr rfl)

end Program

end ClassLang

namespace ClassLang

attribute [local instance] Alphabet.unicode

namespace Program

open ClassTable

/-- `new Shape_list_list().Append(new Shape_list())` -/
theorem instantiation_rule_nested :
    let make (name : String) : Expr := .new (.provided name) [] .nowhere
    let e : Expr := .call (.member (make "Shape_list_list") (.provided "Append") .nowhere)
      [make "Shape_list"] .nowhere
    let p : Program := ⟨[runner e, simpleClass "Shape" none []]⟩
    let final := (Context.run { file := "Main.lang" } p.check).2.classes
    (Context.run { file := "Main.lang" } p.check).2.diagnostics = [] ∧
      p.Uses .argument (make "Shape_list") ∧
      ∃ c, final.get? "Shape_list" = some c ∧ c.modifier ≠ .abstract ∧ c.isPrimitive = false := by
  intro make e p final
  have h : (Context.run { file := "Main.lang" } p.check).2.diagnostics = [] := by decide +kernel
  have hu : p.Uses .argument (make "Shape_list") :=
    .part (uses_runner List.mem_cons_self) (.tail _ (.head _))
  obtain ⟨-, ty, c, -, hc, hplain | ⟨hdeclared, -⟩⟩ := instantiation_rule h hu
  · exact ⟨h, hu, c, hc, hplain⟩
  · have hname : c.name ∈ p.classes.map ClassDef.name := List.mem_map_of_mem hdeclared
    rw [get?_name hc] at hname
    exact absurd hname (by decide)

/-- An abstract class called `int_list` is instantiated, and nothing is reported. -/
theorem instantiation_of_abstract_list :
    let e : Expr := .new (.provided "int_list") [] .nowhere
    let p : Program := ⟨[{ simpleClass "int_list" none [] with modifier := .abstract }, runner e]⟩
    let final := (Context.run { file := "Main.lang" } p.check).2.classes
    (Context.run { file := "Main.lang" } p.check).2.diagnostics = [] ∧ p.Uses .statement e ∧
      (final.get? "int_list").map ClassDef.modifier = some .abstract := by
  intro e p final
  exact ⟨by decide +kernel, uses_runner (by simp [p]), by decide +kernel⟩

end Program

end ClassLang
