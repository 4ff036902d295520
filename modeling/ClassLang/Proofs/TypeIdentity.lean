import ClassLang.Proofs.OrderIndependence
import ClassLang.Proofs.ValueSources
import ClassLang.Proofs.VisitedSites
import ClassLang.Types.WordChar

namespace ClassLang

variable [Alphabet]

theorem Expr.denote_variable {scopes : ScopeStack} {v : Variable}
    (h : scopes.lookup? v.name = some v) (place : Span) :
    (Expr.ident ⟨v.name, place⟩).denote scopes = pure (some (.value v.ty v.assignable)) := by
  rw [Expr.denote, Check.nameMeaning, h]

namespace ClassTable

def IsBuiltin (table : ClassTable) (name : String) : Prop :=
  ∃ ty, table.typeOf? name = some ty ∧ ∀ className, ty ≠ .classRef className

theorem knows_classRef_or_isBuiltin {table : ClassTable} {name : String}
    (h : table.contains name = true) : table.Knows (.classRef name) ∨ table.IsBuiltin name := by
  have hc : table.classType? name = some (.classRef name) := by rw [classType?, if_pos h]
  by_cases hv : name = "void"
  · exact .inr ⟨.void, hv ▸ table.typeOf?_void, by simp⟩
  cases hp : Primitive.ofKeyword? name with
  | some p => exact .inr ⟨.primitive p, table.typeOf?_primitive hv hp, by simp⟩
  | none =>
    cases hl : listElement? name with
    | none => exact .inl ((table.typeOf?_of_not_listElement hv hp hl).trans hc)
    | some element =>
      obtain ⟨ty, -, -, ht⟩ | ⟨-, ht⟩ := table.typeOf?_of_listElement hl hv hp
      · exact .inr ⟨.list ty, ht, by simp⟩
      · exact .inl (ht.trans hc)

end ClassTable

namespace Program

variable {p : Program}

/-- A type that occurs when a program is checked: that of a variable at some moment, that of a value
which an expression denotes, or one that a name stands for. -/
inductive Occurs (p : Program) : Ty → Prop
  | declared {scopes : ScopeStack} {x : Variable} (moment : p.Moment scopes)
      (live : x ∈ scopes.live) : p.Occurs x.ty
  | denoted {use : Use} {e : Expr} {s : Site} {ty : Ty} {assignable : Bool}
      (reached : p.Reaches ⟨.expression use e, s⟩)
      (denotes : s.answer e.meaning = some (.value ty assignable)) : p.Occurs ty
  | named {v : Visit} {name : String} {ty : Ty} (reached : p.Reaches v)
      (stands : v.site.answer (liftM (Check.resolve name)) = some ty) : p.Occurs ty

/-- The type is that of a class which is called like a type of the language itself. -/
def Misnamed (p : Program) (ty : Ty) : Prop :=
  ∃ c ∈ p.classes, p.registered.IsBuiltin c.name ∧ ty = .classRef c.name

theorem admits_known : p.registered.Admits fun ty => p.registered.Knows ty ∨ p.Misnamed ty :=
  ⟨fun _ _ ht _ => .inl (ClassTable.knows_of_typeOf? ht),
    fun _ _ _ _ _ ht => .inl (ClassTable.knows_of_typeOf? ht)⟩

theorem known_or_misnamed {c : ClassDef} (hc : c ∈ p.classes) :
    p.registered.Knows (.classRef c.name) ∨ p.Misnamed (.classRef c.name) := by
  have hn : p.registered.contains c.name = true :=
    (ClassTable.contains_registerAll _ _).mpr (List.mem_map_of_mem hc)
  exact (ClassTable.knows_classRef_or_isBuiltin hn).imp_right fun hb => ⟨c, hc, hb, rfl⟩

theorem Occurs.known_or_misnamed {ty : Ty} (h : p.Occurs ty) :
    p.registered.Knows ty ∨ p.Misnamed ty := by
  have hthis (c : ClassDef) (hc : c ∈ p.classes) := p.known_or_misnamed hc
  cases h with
  | declared moment live => exact typed_of_moment admits_known hthis moment _ live
  | @denoted use e s ty assignable reached denotes =>
    have hs := typed_of_reaches admits_known hthis reached
    have hsource := ((e.yields_denote s.scopes) s.table hs.grows).2 _ denotes
    obtain hk | ⟨x, hx, rfl⟩ := hsource.known_or_live
    · exact .inl hk
    · exact hs.scopes x hx
  | @named v name ty reached stands =>
    have ht : v.site.table.typeOf? name = some ty := stands
    rw [(grows_of_reaches reached).typeOf?] at ht
    exact .inl (ClassTable.knows_of_typeOf? ht)

theorem denote_this {scopes : ScopeStack} {c : ClassDef}
    (h : scopes.lookup? "this" = some c.this) (place : Span) :
    (Expr.ident ⟨"this", place⟩).denote scopes = pure (some (.value c.this.ty false)) :=
  Expr.denote_variable (v := c.this) h place

theorem clean_return_this {s : Site} {c : ClassDef} {m : Member}
    (hthis : s.scopes.lookup? "this" = some c.this) (hm : s.scopes.currentMember? = some m)
    (ht : s.table.typeOf? m.declaredType.text = some c.this.ty) (place span : Span) :
    s.answer (Stmt.ret (some (.ident ⟨"this", place⟩)) span).check = false ∧
      s.findings (Stmt.ret (some (.ident ⟨"this", place⟩)) span).check = [] := by
  have hr : Check.resolve m.declaredType.text s.table =
      ⟨some (.classRef c.name), (s.table.resolve m.declaredType.text).2, []⟩ :=
    Outcome.ext ht rfl rfl
  have ho : Stmt.checkReturn (some (.ident ⟨"this", place⟩)) span s.scopes s.table =
      ⟨false, (s.table.resolve m.declaredType.text).2, []⟩ := by
    have hfits (table : ClassTable) : table.isAssignable c.this.ty (.classRef c.name) = true := by
      simp [ClassTable.isAssignable, ClassDef.this]
    rw [Stmt.checkReturn, hm]
    -- all that is left to do is to look at the table
    apply Outcome.ext <;>
      simp [hr, denote_this hthis, hfits, Check.failIf, Meaning.valueType?, Ty.isVoid] <;> rfl
  constructor
  · exact congrArg Outcome.result ho
  · rw [Stmt.check, s.findings_reading, ho]

/-- Any two types that occur in a check and have one name are the same, unless one of them is the
type of `this` in a class which is called like a type of the language itself. In any other class the
type of `this` is the one that the name of the class stands for, so a method that is declared to
return the class may return `this`. -/
theorem type_determined_by_name (p : Program) :
    (∀ ty other, p.Occurs ty → p.Occurs other → ty.name = other.name →
      ty = other ∨ p.Misnamed ty ∨ p.Misnamed other) ∧
    ∀ v, p.Reaches v → (∀ c, v.node ≠ .classDef c) →
      ∃ c ∈ p.classes, v.site.scopes.currentClass? = some c ∧
        v.site.scopes.lookup? "this" = some c.this ∧
        (¬ p.registered.IsBuiltin c.name →
          v.site.answer (liftM (Check.resolve c.name)) = some c.this.ty ∧
          ∀ m, v.site.scopes.currentMember? = some m → m.declaredType.text = c.name →
            ∀ place span,
              v.site.answer (Stmt.ret (some (.ident ⟨"this", place⟩)) span).check = false ∧
              v.site.findings (Stmt.ret (some (.ident ⟨"this", place⟩)) span).check = []) := by
  constructor
  · intro ty other h k hn
    obtain hk | hm := h.known_or_misnamed
    · obtain ok | om := k.known_or_misnamed
      · rw [ClassTable.Knows, hn, ok] at hk
        exact .inl (Option.some.inj hk).symm
      · exact .inr (.inr om)
    · exact .inr (.inl hm)
  · intro v hv hn
    obtain ⟨c, hc, hcurrent, hdistinct, hlive⟩ := inside_of_reaches hv hn
    have hthis := ScopeStack.lookup?_of_mem_live hdistinct hlive
    refine ⟨c, hc, hcurrent, hthis, fun hb => ?_⟩
    have hknown : v.site.table.typeOf? c.name = some c.this.ty := by
      rw [(grows_of_reaches hv).typeOf?]
      exact (ClassTable.knows_classRef_or_isBuiltin
        ((ClassTable.contains_registerAll _ _).mpr (List.mem_map_of_mem hc))).resolve_right hb
    refine ⟨hknown, fun m hm ht place span => ?_⟩
    exact clean_return_this hthis hm (by rw [ht, hknown]) place span

end Program

end ClassLang

namespace ClassLang

attribute [local instance] Alphabet.unicode

namespace Program

section Fluent

def returnThis : Stmt := .ret (some (.ident (.provided "this"))) .nowhere

def same (typeName : String) : Member :=
  { Member.provided typeName "Same" typeName [] with
    kind := .method ⟨.provided "Same", [], some ⟨[returnThis], .nowhere⟩⟩ }

theorem reaches_returnThis {c : ClassDef} {typeName : String} (hc : c.members = [same typeName])
    (base : Site.answer ⟨[], (mk [c]).tableAfter []⟩ (liftM c.checkBase) = some false)
    (names : (c.entered ⟨[], (mk [c]).tableAfter []⟩).answer c.declareNames = some false)
    (unique : firstDuplicate? [] c.memberKeys = none)
    (type : (((c.entered ⟨[], (mk [c]).tableAfter []⟩).after c.declareNames).answer
      (liftM (Check.expectType (.provided typeName)))).isSome = true) :
    ∃ s, (mk [c]).Reaches ⟨.statement returnThis, s⟩ ∧
      s.scopes.currentMember? = some (same typeName) := by
  obtain ⟨ty, type⟩ := Option.isSome_iff_exists.mp type
  have hclass : (mk [c]).Reaches ⟨.classDef c, [], (mk [c]).tableAfter []⟩ := .classDef rfl
  have hitems : c.members = [] ++ same typeName :: [] := hc
  have hmember := hclass.step (.member base names unique hitems)
  have hbody := hmember.step (.body rfl type rfl rfl)
  have hstatements : [returnThis] = [] ++ returnThis :: [] := rfl
  have hreturn := hbody.step (.inBlock hstatements (by simp))
  exact ⟨_, hreturn, rfl⟩

theorem type_determined_by_name_in_node :
    let c := simpleClass "Node" none [same "Node"]
    ∃ s, (mk [c]).Reaches ⟨.statement returnThis, s⟩ ∧ s.scopes.lookup? "this" = some c.this ∧
      s.answer (liftM (Check.resolve "Node")) = some c.this.ty ∧
      s.answer returnThis.check = false ∧ s.findings returnThis.check = [] := by
  intro c
  obtain ⟨s, hs, hm⟩ := reaches_returnThis (c := c) rfl (by decide +kernel) (by decide +kernel)
    (by decide +kernel) (by decide +kernel)
  obtain ⟨d, hd, -, hthis, hfits⟩ := (type_determined_by_name ⟨[c]⟩).2 _ hs (by simp)
  obtain rfl := List.mem_singleton.mp hd
  have hknown : (mk [c]).registered.typeOf? "Node" = some c.this.ty := by decide +kernel
  have hb : ¬ (mk [c]).registered.IsBuiltin "Node" := by
    rintro ⟨ty, ht, hty⟩
    rw [hknown] at ht
    cases ht
    exact hty _ rfl
  obtain ⟨hresolve, hreturn⟩ := hfits hb
  exact ⟨s, hs, hthis, hresolve, hreturn (same "Node") hm rfl .nowhere .nowhere⟩

/-- In a class called `int` that name stands for the numbers, and `this` for no number. -/
theorem type_of_this_in_int :
    let c := { simpleClass "int" none [same "int"] with isBackend := true, isPrimitive := true }
    let p : Program := ⟨[c]⟩
    p.Occurs (.primitive .int) ∧ p.Occurs (.classRef "int") ∧
      (Ty.primitive .int).name = (Ty.classRef "int").name ∧ Ty.primitive .int ≠ .classRef "int" ∧
      (Context.run { file := "Main.lang" } p.check).2.diagnostics.map (fun d => d.problem) =
        [.returnTypeMismatch "int" "int"] := by
  intro c p
  obtain ⟨s, hs, hm⟩ := reaches_returnThis (c := c) rfl (by decide +kernel) (by decide +kernel)
    (by decide +kernel) (by decide +kernel)
  obtain ⟨d, hd, -, hdistinct, hlive⟩ := inside_of_reaches hs (by simp)
  obtain rfl := List.mem_singleton.mp hd
  have hthis := ScopeStack.lookup?_of_mem_live hdistinct hlive
  have hint : s.table.typeOf? "int" = some (.primitive .int) :=
    ClassTable.typeOf?_primitive s.table (by decide) (by decide)
  refine ⟨.named hs hint, ?_, rfl, by decide, by decide +kernel⟩
  have hdenotes :
      ((Expr.ident (.provided "this")).denote s.scopes (s.table.resolve "int").2).result =
        some (.value c.this.ty false) := by
    rw [Ident.provided, denote_this hthis]
    rfl
  exact .denoted (hs.step (.returned hm hint)) hdenotes

end Fluent

end Program

end ClassLang
