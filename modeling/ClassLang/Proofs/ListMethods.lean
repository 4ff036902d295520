import ClassLang.Proofs.ExprHonesty
import ClassLang.Proofs.OrderIndependence
import ClassLang.Proofs.WiderTables
import ClassLang.Types.WordChar
import Mathlib.Data.List.Forall2

namespace ClassLang

structure Signature where
  name : String
  parameters : List Ty
  result : Ty

def listSignatures (element : Ty) : List Signature :=
  [⟨"Append", [element], .void⟩,
   ⟨"RemoveAt", [.primitive .int], .void⟩,
   ⟨"Clear", [], .void⟩,
   ⟨"At", [.primitive .int], element⟩,
   ⟨"Replace", [.primitive .int, element], .void⟩,
   ⟨"Insert", [.primitive .int, element], .void⟩,
   ⟨"Count", [], .primitive .int⟩]

/-- The member is a method of the signature that everyone may call on a value. -/
structure Member.Meets (m : Member) (σ : Signature) : Prop where
  parameters : m.parameterTypes = σ.parameters.map Ty.name
  result : m.declaredType.text = σ.result.name
  method : ∃ routine, m.kind = .method routine
  everywhere : m.visibility = .everywhere
  isStatic : m.isStatic = false

namespace ClassDef

variable {element : Ty}

theorem exists_meets_listOf {σ : Signature} (h : σ ∈ listSignatures element) :
    ∃ m, (listOf element).findMember? σ.name = some m ∧
      (listOf element).findMethod? σ.name = some m ∧ m.Meets σ := by
  simp only [listSignatures, List.mem_cons, List.not_mem_nil, or_false] at h
  obtain rfl | rfl | rfl | rfl | rfl | rfl | rfl := h <;>
    exact ⟨_, rfl, rfl, rfl, rfl, ⟨_, rfl⟩, rfl, rfl⟩

theorem findMember?_listOf_eq_none {name : String}
    (h : name ∉ (listSignatures element).map Signature.name) :
    (listOf element).findMember? name = none := by
  have hmethods : (listOf element).methods.map (fun m => m.2.name.text) =
      (listSignatures element).map Signature.name := rfl
  rw [← hmethods, List.mem_map, not_exists] at h
  have hnone : (listOf element).findMethod? name = none := by
    rw [findMethod?, Option.map_eq_none_iff, List.find?_eq_none]
    intro m hm hname
    exact h m ⟨hm, by simpa using hname⟩
  exact hnone

end ClassDef

namespace ClassTable

variable {table : ClassTable} {element : Ty}

theorem findSome?_lineage_listOf {α : Type} {name : String}
    (hc : table.get? name = some (.listOf element)) (f : ClassDef → Option α) :
    (table.lineage name).findSome? f = f (.listOf element) := by
  rw [lineage_of_get? hc, ancestors_listOf, List.findSome?_singleton]

theorem isAssignable_primitive_iff {source : Ty} {p : Primitive} :
    table.isAssignable source (.primitive p) = true ↔ source = .primitive p := by
  cases source <;> simp [isAssignable]

def Fits (table : ClassTable) (arguments parameters : List Ty) : Prop :=
  List.Forall₂ (fun parameter argument => table.isAssignable argument parameter = true)
    parameters arguments

section Fits

variable {arguments parameters : List Ty} {parameter : Ty}

theorem fits_nil : table.Fits arguments [] ↔ arguments = [] := List.forall₂_nil_left_iff

theorem fits_cons :
    table.Fits arguments (parameter :: parameters) ↔
      ∃ first rest, arguments = first :: rest ∧ table.isAssignable first parameter = true ∧
        table.Fits rest parameters := by
  rw [Fits, List.forall₂_cons_left_iff]
  constructor
  · rintro ⟨first, rest, hfirst, hrest, rfl⟩
    exact ⟨first, rest, rfl, hfirst, hrest⟩
  · rintro ⟨first, rest, rfl, hfirst, hrest⟩
    exact ⟨first, rest, hfirst, hrest, rfl⟩

theorem fits_primitive_cons {p : Primitive} :
    table.Fits arguments (.primitive p :: parameters) ↔
      ∃ rest, arguments = .primitive p :: rest ∧ table.Fits rest parameters := by
  rw [fits_cons]
  constructor
  · rintro ⟨first, rest, rfl, hfirst, hrest⟩
    obtain rfl := isAssignable_primitive_iff.mp hfirst
    exact ⟨rest, rfl, hrest⟩
  · rintro ⟨rest, rfl, hrest⟩
    exact ⟨_, rest, rfl, isAssignable_primitive_iff.mpr rfl, hrest⟩

end Fits

end ClassTable

/-- What the arguments of a call denote are values of the given types. -/
def ValuesOf (meanings : List (Option Meaning)) (types : List Ty) : Prop :=
  List.Forall₂ (fun meaning ty => ∃ assignable, meaning = some (.value ty assignable))
    meanings types

theorem ValuesOf.exists_mapM {meanings : List (Option Meaning)} {types : List Ty}
    (h : ValuesOf meanings types) :
    ∃ values, meanings.mapM id = some values ∧ values.mapM Meaning.valueType? = some types := by
  induction h with
  | nil => exact ⟨[], rfl, rfl⟩
  | @cons _ ty _ _ hvalue _ ih =>
    obtain ⟨assignable, rfl⟩ := hvalue
    obtain ⟨values, hvalues, htypes⟩ := ih
    exact ⟨.value ty assignable :: values, by simp [hvalues], by simp [Meaning.valueType?, htypes]⟩

theorem ValuesOf.of_mapM {arguments : List (Option Meaning)} {values : List Meaning}
    {types : List Ty} (ha : arguments.mapM id = some values)
    (ht : values.mapM Meaning.valueType? = some types) : ValuesOf arguments types := by
  induction arguments generalizing values types with
  | nil =>
    obtain rfl := Option.some.inj ha
    obtain rfl := Option.some.inj ht
    exact .nil
  | cons argument arguments ih =>
    rw [List.mapM_cons] at ha
    obtain ⟨meaning, hmeaning, hvalues⟩ := Option.bind_eq_some_iff.mp ha
    obtain ⟨rest, hrest, hvalues⟩ := Option.bind_eq_some_iff.mp hvalues
    cases hvalues
    rw [List.mapM_cons] at ht
    obtain ⟨ty, hty, htypes⟩ := Option.bind_eq_some_iff.mp ht
    obtain ⟨others, hothers, htypes⟩ := Option.bind_eq_some_iff.mp htypes
    cases htypes
    refine .cons ?_ (ih hrest hothers)
    cases meaning with
    | value valueType assignable =>
      cases hty
      exact ⟨assignable, hmeaning⟩
    | typeName _ | method _ _ _ => cases hty

variable [Alphabet]

namespace ClassTable

variable {table : ClassTable} {element : Ty}

theorem typeOf?_of_mem_listSignatures {name : String}
    (h : table.typeOf? name = some (.list element)) {σ : Signature}
    (hσ : σ ∈ listSignatures element) :
    ∀ ty ∈ σ.result :: σ.parameters, table.typeOf? ty.name = some ty := by
  have hvoid : table.typeOf? "void" = some .void := table.typeOf?_void
  have hint : table.typeOf? Primitive.int.keyword = some (.primitive .int) :=
    table.typeOf?_primitive (by decide) (by decide)
  have helement : table.typeOf? element.name = some element := (typeOf?_eq_list_iff.mp h).2.1
  simp only [listSignatures, List.mem_cons, List.not_mem_nil, or_false] at hσ
  obtain rfl | rfl | rfl | rfl | rfl | rfl | rfl := hσ <;>
    simp [Ty.name, hvoid, hint, helement]

end ClassTable

namespace Check

variable {start table : ClassTable}

/-- Arguments are accepted if each may stand where the type at its place is expected, however much
the table has grown since the types were known. -/
theorem accepts_iff (hg : start.Grows table) {parameters arguments : List Ty}
    (hp : ∀ ty ∈ parameters, start.typeOf? ty.name = some ty) :
    (accepts (parameters.map Ty.name) arguments table).result = true ↔
      start.Fits arguments parameters := by
  rw [accepts, List.length_map, ClassTable.Fits, List.forall₂_iff_zip]
  split
  · next hlen =>
    have hexpected : (forEach resolve (parameters.map Ty.name) table).result =
        parameters.map some := by
      rw [ClassTable.result_forEach_resolve, List.map_map]
      exact List.map_congr_left fun ty hty => (hg.typeOf? ty.name).trans (hp ty hty)
    have hlater : start.Grows (forEach resolve (parameters.map Ty.name) table).table :=
      hg.trans (quiet_forEach quiet_resolve (parameters.map Ty.name) table).1
    -- what the names of the parameters bring into the table does not bear on what fits
    have hfits {p a : Ty} (hpair : (p, a) ∈ parameters.zip arguments) :
        (forEach resolve (parameters.map Ty.name) table).table.isAssignable a p =
          start.isAssignable a p :=
      hlater.widens.isAssignable
        (ClassTable.registers_of_typeOf? (hp p (List.of_mem_zip hpair).1)) a
    rw [result_bind, classes_bind_apply, hexpected, pure_apply, List.all_eq_true, List.zip_map_left,
      List.forall_mem_map]
    refine ⟨fun h => ⟨hlen, fun hpair => ?_⟩, fun h => ?_⟩
    · rw [← hfits hpair]
      exact h _ hpair
    · rintro ⟨p, a⟩ hpair
      exact (hfits hpair).trans (h.2 hpair)
  · next hlen => simp [hlen]

theorem memberOfType_of_none {scopes : ScopeStack} {ty : Ty} {name : Ident} {className : String}
    (hclass : ty.className? = some className) (hm : table.findMember? className name.text = none)
    (throughType : Bool) :
    memberOfType scopes ty throughType name table =
      ⟨none, table, [⟨.memberNotFound name.text ty.name, name.span⟩]⟩ := by
  rw [memberOfType, classes_bind_apply, hclass, Option.bind_some, hm]
  rfl

theorem memberOfType_of_meets {scopes : ScopeStack} {ty : Ty} (name : Ident) {className : String}
    {owner : ClassDef} {m : Member} {σ : Signature} (hclass : ty.className? = some className)
    (hm : table.findMember? className name.text = some (owner, m)) (hσ : m.Meets σ) :
    memberOfType scopes ty false name table =
      ⟨some (.method owner.name name.text false), table, []⟩ := by
  obtain ⟨routine, hroutine⟩ := hσ.method
  rw [memberOfType, classes_bind_apply, hclass, Option.bind_some, hm]
  dsimp only
  rw [ClassTable.isAccessible, hσ.everywhere, hσ.isStatic, hroutine]
  rfl

theorem methodResult_iff (hg : start.Grows table) {σ : Signature} {className : String}
    {owner : ClassDef} {m : Member} (hm : table.findMethod? className σ.name = some (owner, m))
    (hσ : m.Meets σ) (hty : ∀ ty ∈ σ.result :: σ.parameters, start.typeOf? ty.name = some ty)
    {arguments : List Meaning} {types : List Ty}
    (ha : arguments.mapM Meaning.valueType? = some types) {callee span : Span} {meaning : Meaning} :
    (methodResult className σ.name arguments callee span table).result = some meaning ↔
      start.Fits types σ.parameters ∧ meaning = .result σ.result := by
  obtain ⟨hresult, hparameters⟩ := List.forall_mem_cons.mp hty
  rw [methodResult, classes_bind_apply, hm]
  dsimp only
  rw [ha, result_bind, ← accepts_iff hg hparameters, ← hσ.parameters]
  have hlater : start.Grows (accepts m.parameterTypes types table).table :=
    hg.trans (quiet_accepts m.parameterTypes types table).1
  cases (accepts m.parameterTypes types table).result with
  | false =>
    rw [if_neg Bool.false_ne_true]
    exact ⟨nofun, fun h => absurd h.1 Bool.false_ne_true⟩
  | true =>
    have hdeclared :
        ((accepts m.parameterTypes types table).table.resolve m.declaredType.text).1 =
          some σ.result := by
      rw [hσ.result]
      exact (hlater.typeOf? σ.result.name).trans hresult
    rw [if_pos rfl, resolve_bind_apply, hdeclared]
    simp [eq_comm]

theorem callResult_of_values {meanings : List (Option Meaning)} {values : List Meaning}
    (h : meanings.mapM id = some values) (className name : String) (throughType : Bool)
    (calleeSpan span : Span) :
    callResult (.method className name throughType) meanings calleeSpan span =
      methodResult className name values calleeSpan span := by
  rw [callResult, h]

end Check

namespace Expr

open Check ClassTable

variable {table : ClassTable} {scopes : ScopeStack} {element : Ty} {x : Ident} {v : Variable}

theorem denote_member_of_lookup? (hx : scopes.lookup? x.text = some v) (name : Ident)
    (span : Span) :
    (member (.ident x) name span).denote scopes table =
      memberOfType scopes v.ty false name table := by
  rw [denote, denote, nameMeaning, hx]
  rfl

theorem denote_call_of_none {callee : Expr} (h : (callee.denote scopes table).result = none)
    {arguments : List Expr} {span : Span} :
    (call callee arguments span).denote scopes table = callee.denote scopes table := by
  rw [denote]
  apply Outcome.ext <;> simp [h]

section Lists

variable (hx : scopes.lookup? x.text = some v) (hv : v.ty = .list element)
  (hc : table.get? (Ty.list element).name = some (.listOf element))

include hx hv hc

theorem denote_listMethod {σ : Signature} (hσ : σ ∈ listSignatures element) (place span : Span) :
    (member (.ident x) ⟨σ.name, place⟩ span).denote scopes table =
      ⟨some (.method (Ty.list element).name σ.name false), table, []⟩ := by
  obtain ⟨m, hm, -, hmeets⟩ := ClassDef.exists_meets_listOf hσ
  have hfind : table.findMember? (Ty.list element).name σ.name = some (.listOf element, m) := by
    rw [findMember?, findSome?_lineage_listOf hc, hm, Option.map_some]
  rw [denote_member_of_lookup? hx, hv]
  exact memberOfType_of_meets ⟨σ.name, place⟩ rfl hfind hmeets

theorem denote_unknownMember {name : Ident}
    (hn : name.text ∉ (listSignatures element).map Signature.name) (span : Span) :
    (member (.ident x) name span).denote scopes table =
      ⟨none, table, [⟨.memberNotFound name.text (Ty.list element).name, name.span⟩]⟩ := by
  have hfind : table.findMember? (Ty.list element).name name.text = none := by
    rw [findMember?, findSome?_lineage_listOf hc, ClassDef.findMember?_listOf_eq_none hn,
      Option.map_none]
  rw [denote_member_of_lookup? hx, hv]
  exact memberOfType_of_none rfl hfind false

theorem listCall_iff (ht : table.typeOf? (Ty.list element).name = some (.list element))
    {σ : Signature} (hσ : σ ∈ listSignatures element) {arguments : List Expr} {types : List Ty}
    (ha : ValuesOf (denoteAll scopes arguments table).result types) {place memberSpan span : Span}
    {meaning : Meaning} :
    ((call (member (.ident x) ⟨σ.name, place⟩ memberSpan) arguments span).denote
        scopes table).result = some meaning ↔
      table.Fits types σ.parameters ∧ meaning = .result σ.result := by
  obtain ⟨values, hvalues, htypes⟩ := ha.exists_mapM
  obtain ⟨m, -, hm, hmeets⟩ := ClassDef.exists_meets_listOf hσ
  have hgrows : table.Grows (denoteAll scopes arguments table).table :=
    (@honest_denoteAll _ none scopes arguments table).grows
  have hmethod :
      (denoteAll scopes arguments table).table.findMethod? (Ty.list element).name σ.name =
        some (.listOf element, m) := by
    rw [findMethod?, findSome?_lineage_listOf (hgrows.get?_of_some hc), hm, Option.map_some]
  rw [denote, bind_of_eq (denote_listMethod hx hv hc hσ place memberSpan), result_bind,
    callResult_of_values hvalues]
  exact methodResult_iff hgrows hmethod hmeets (typeOf?_of_mem_listSignatures ht hσ) htypes

end Lists

end Expr

namespace Context

open ClassTable

/-- A call on a list gives something exactly if its arguments are a position and an item, as the
method asks for them, and what it gives is of the element type where that is read. No other name
stands for anything on a list. -/
theorem list_methods_typed (ctx : Context) {name : String} {element : Ty}
    (ht : (ctx.classes.resolve name).1 = some (.list element))
    (hc : ctx.classes.get? name = some (.listOf element)) {scopes : ScopeStack} {x : Ident}
    {v : Variable} (hx : scopes.lookup? x.text = some v) (hv : v.ty = .list element)
    {arguments : List Expr} {types : List Ty}
    (ha : ValuesOf (ctx.run (Expr.denoteAll scopes arguments)).1 types)
    (place memberSpan span : Span) :
    let access (method : String) : Expr := .member (.ident x) ⟨method, place⟩ memberSpan
    let call (method : String) : Expr := .call (access method) arguments span
    let answer (e : Expr) : Option Meaning := (ctx.run (e.denote scopes)).1
    let int : Ty := .primitive .int
    let fits (item : Ty) : Prop := ctx.classes.isAssignable item element = true
    (∀ m, answer (call "At") = some m ↔ types = [int] ∧ m = .value element false) ∧
    (∀ m, answer (call "Append") = some m ↔
      (∃ item, types = [item] ∧ fits item) ∧ m = .value .void false) ∧
    (∀ method ∈ ["Replace", "Insert"], ∀ m, answer (call method) = some m ↔
      (∃ item, types = [int, item] ∧ fits item) ∧ m = .value .void false) ∧
    (∀ m, answer (call "RemoveAt") = some m ↔ types = [int] ∧ m = .value .void false) ∧
    (∀ m, answer (call "Clear") = some m ↔ types = [] ∧ m = .value .void false) ∧
    (∀ m, answer (call "Count") = some m ↔ types = [] ∧ m = .value int false) ∧
    ∀ method ∉ ["Append", "RemoveAt", "Clear", "At", "Replace", "Insert", "Count"],
      ∀ e ∈ [access method, call method],
        ctx.run (e.denote scopes) = (none, { ctx with
          diagnostics := ctx.diagnostics ++
            [Finding.inFile ⟨.memberNotFound method name, place⟩ ctx.file] }) := by
  intro access call answer int fits
  obtain rfl : (Ty.list element).name = name := name_of_typeOf? ht
  have hcall : ∀ σ ∈ listSignatures element, ∀ m, answer (call σ.name) = some m ↔
      ctx.classes.Fits types σ.parameters ∧ m = .result σ.result :=
    fun σ hσ m => Expr.listCall_iff hx hv hc ht hσ ha
  simp only [listSignatures, List.forall_mem_cons] at hcall
  obtain ⟨happend, hremoveAt, hclear, hat, hreplace, hinsert, hcount, -⟩ := hcall
  have hposition : ctx.classes.Fits types [int] ↔ types = [int] := by
    rw [fits_primitive_cons]
    simp [int, fits_nil]
  have hitem : ctx.classes.Fits types [element] ↔ ∃ item, types = [item] ∧ fits item := by
    simp [fits, fits_cons, fits_nil]
  have hboth : ctx.classes.Fits types [int, element] ↔
      ∃ item, types = [int, item] ∧ fits item := by
    rw [fits_primitive_cons]
    simp [int, fits, fits_cons, fits_nil]
  have hnone : ctx.classes.Fits types [] ↔ types = [] := fits_nil
  rw [← hposition, ← hitem, ← hboth, ← hnone]
  refine ⟨hat, happend, ?_, hremoveAt, hclear, hcount, fun method hmethod e he => ?_⟩
  · exact List.forall_mem_cons.mpr ⟨hreplace, List.forall_mem_singleton.mpr hinsert⟩
  · have hunknown : (access method).denote scopes ctx.classes =
        ⟨none, ctx.classes, [⟨.memberNotFound method (Ty.list element).name, place⟩]⟩ :=
      Expr.denote_unknownMember hx hv hc hmethod memberSpan
    have he : e.denote scopes ctx.classes = (access method).denote scopes ctx.classes := by
      obtain rfl | he := List.mem_cons.mp he
      · rfl
      · obtain rfl := List.mem_singleton.mp he
        exact Expr.denote_call_of_none (by rw [hunknown])
    rw [run, he, hunknown]
    rfl

end Context

end ClassLang

namespace ClassLang

attribute [local instance] Alphabet.unicode

namespace Context

open ClassTable

def withRows : Context where
  file := "Main.lang"
  classes := ((ClassTable.empty.registerAll [Program.simpleClass "Shape" none []]).resolve
    "Shape_list_list").2

def rowsInSight : ScopeStack :=
  [⟨.block, .code, [⟨"row", .list (.classRef "Shape"), true⟩,
    ⟨"rows", .list (.list (.classRef "Shape")), true⟩]⟩]

/-- `rows.Replace(0, row)` is a call of a method of lists, and `rows.Push(0, row)` is not. -/
theorem list_methods_typed_of_rows :
    let row : Ty := .list (.classRef "Shape")
    let arguments : List Expr := [.literal .integer "0" .nowhere, .ident (.provided "row")]
    let call (method : String) : Expr :=
      .call (.member (.ident (.provided "rows")) (.provided method) .nowhere) arguments .nowhere
    let answer (e : Expr) : Option Meaning := (withRows.run (e.denote rowsInSight)).1
    (withRows.classes.resolve "Shape_list_list").1 = some (.list row) ∧
      withRows.classes.get? "Shape_list_list" = some (.listOf row) ∧
      (rowsInSight.lookup? "rows").map Variable.ty = some (.list row) ∧
      ValuesOf (withRows.run (Expr.denoteAll rowsInSight arguments)).1 [.primitive .int, row] ∧
      answer (call "Replace") = some (.value .void false) ∧ answer (call "At") = none ∧
      (withRows.run ((call "Push").denote rowsInSight)).2.diagnostics =
        [Finding.inFile ⟨.memberNotFound "Push" "Shape_list_list", .nowhere⟩ "Main.lang"] := by
  intro row arguments call answer
  have ht : (withRows.classes.resolve "Shape_list_list").1 = some (.list row) := by
    decide +kernel
  have hc : withRows.classes.get? "Shape_list_list" = some (.listOf row) := by
    have hnew : (empty.registerAll [Program.simpleClass "Shape" none []]).get? "Shape_list_list" =
        none := contains_eq_false_iff.mp (by decide +kernel)
    have htype : (empty.registerAll [Program.simpleClass "Shape" none []]).typeOf?
        "Shape_list_list" = some (.list row) := by decide +kernel
    rw [withRows, get?_resolve_eq, hnew, htype]
    rfl
  have hx : rowsInSight.lookup? "rows" = some ⟨"rows", .list row, true⟩ := by decide +kernel
  have ha : ValuesOf (withRows.run (Expr.denoteAll rowsInSight arguments)).1
      [.primitive .int, row] := by
    have hresult : (withRows.run (Expr.denoteAll rowsInSight arguments)).1 =
        [some (.value (.primitive .int) false), some (.value row true)] := by decide +kernel
    rw [hresult]
    exact .cons ⟨false, rfl⟩ (.cons ⟨true, rfl⟩ .nil)
  obtain ⟨hat, -, hreplace, -, -, -, hunknown⟩ :=
    list_methods_typed withRows ht hc (x := .provided "rows") hx rfl ha .nowhere .nowhere .nowhere
  refine ⟨ht, hc, by rw [hx]; rfl, ha, ?_, ?_, ?_⟩
  · exact (hreplace "Replace" (by simp) _).mpr ⟨⟨row, rfl, by decide +kernel⟩, rfl⟩
  · refine Option.eq_none_iff_forall_ne_some.mpr fun m hm => ?_
    cases ((hat m).mp hm).1
  · have hpush := hunknown "Push" (by decide) (call "Push") (.tail _ (.head _))
    rw [hpush]
    rfl

end Context

end ClassLang
