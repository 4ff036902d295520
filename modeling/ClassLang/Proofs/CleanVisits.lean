import ClassLang.Proofs.VisitedSites
import Mathlib.Logic.Relation

namespace ClassLang

def Expr.parts : Expr → List (Use × Expr)
  | .literal .. | .ident _ => []
  | .member target _ _ => [(.receiver, target)]
  | .call callee arguments _ => (.callee, callee) :: arguments.map (Prod.mk .argument)
  | .new _ arguments _ => arguments.map (Prod.mk .argument)
  | .unary _ operand _ => [(.operand, operand)]
  | .binary left _ right _ => [(.operand, left), (.operand, right)]
  | .assign target _ value _ => [(.target, target), (.assigned, value)]

/-- The expression stands below another one, at any depth, and is there for the given use. -/
inductive Expr.Holds (e : Expr) : Use → Expr → Prop
  | part {use : Use} {f : Expr} (inner : (use, f) ∈ e.parts) : e.Holds use f
  | inside {outerUse use : Use} {f g : Expr} (outer : e.Holds outerUse f)
      (inner : (use, g) ∈ f.parts) : e.Holds use g

def ForInit.expressions : ForInit → List (Use × Expr)
  | .declaration _ => []
  | .expression e => [(.forInit, e)]

def ForInit.statements : ForInit → List Stmt
  | .declaration d => [.declaration d]
  | .expression _ => []

namespace Stmt

def expressions : Stmt → List (Use × Expr)
  | .ret value _ => value.toList.map (Prod.mk .returned)
  | .declaration d => (d.declarators.filterMap Declarator.value).map (Prod.mk .initializer)
  | .whileLoop condition _ _ | .doLoop _ condition _ | .ifThen condition _ _
  | .ifElse condition _ _ _ => [(.condition, condition)]
  | .forLoop init condition step _ _ =>
    init.toList.flatMap ForInit.expressions ++
      (condition.toList.map (Prod.mk .condition) ++ step.toList.map (Prod.mk .forStep))
  | .expression e _ => [(.statement, e)]
  | .block .. | .continueLoop _ | .breakLoop _ => []

/-- The statements right below a statement. The declaration of a `for` loop is one of them. -/
def statements : Stmt → List Stmt
  | .block statements _ => statements
  | .whileLoop _ body _ | .doLoop body _ _ | .ifThen _ body _ => [body]
  | .ifElse _ thenBranch elseBranch _ => [thenBranch, elseBranch]
  | .forLoop init _ _ body _ => init.toList.flatMap ForInit.statements ++ [body]
  | .continueLoop _ | .breakLoop _ | .ret .. | .declaration _ | .expression .. => []

end Stmt

namespace Program

inductive Holds (p : Program) : Stmt → Prop
  | body {c : ClassDef} {m : Member} {b : Block} (declared : c ∈ p.classes) (member : m ∈ c.members)
      (present : m.body? = some b) : p.Holds b.toStmt
  | inside {t u : Stmt} (outer : p.Holds t) (inner : u ∈ t.statements) : p.Holds u

/-- The expression stands somewhere in the program, at any depth, and is there for the given use. -/
inductive Uses (p : Program) : Use → Expr → Prop
  | field {c : ClassDef} {m : Member} {declarators : List Declarator} {e : Expr}
      (declared : c ∈ p.classes) (member : m ∈ c.members) (kind : m.kind = .field declarators)
      (value : e ∈ declarators.filterMap Declarator.value) : p.Uses .initializer e
  | statement {t : Stmt} {use : Use} {e : Expr} (outer : p.Holds t)
      (inner : (use, e) ∈ t.expressions) : p.Uses use e
  | part {outerUse use : Use} {e f : Expr} (outer : p.Uses outerUse e)
      (inner : (use, f) ∈ e.parts) : p.Uses use f

end Program

variable [Alphabet]

namespace Site

variable {α β : Type} {s : Site}

omit [Alphabet] in
theorem findings_bind_eq_nil {c : Scoped α} {f : α → Scoped β} :
    s.findings (c >>= f) = [] ↔
      s.findings c = [] ∧ (s.after c).findings (f (s.answer c)) = [] := List.append_eq_nil_iff

theorem not_fails_of_clean {fails : α → Prop} {c : Scoped α}
    (h : Scoped.Honest (fun _ => .never) False fails c) (hc : s.findings c = []) :
    ¬ fails (s.answer c) := by
  intro hf
  obtain hn | hb | he := (h.check s.scopes s.table).accounted hf
  · exact hn hc
  · exact hb
  · exact he

theorem not_fails_of_clean_lift {fails : α → Prop} {c : Check α} (h : c.Honest .never False fails)
    (hc : s.findings (liftM c) = []) : ¬ fails (s.answer (liftM c)) :=
  not_fails_of_clean (Scoped.honest_lift fun _ => h) hc

end Site

open Site

namespace Expr

variable {s : Site} {meaning : Meaning} {span : Span}

theorem of_answer_call {callee : Expr} {arguments : List Expr}
    (h : s.answer (call callee arguments span).meaning = some meaning) :
    ∃ method, s.answer callee.meaning = some method ∧
      ((s.after callee.meaning).after (meanings arguments)).answer (liftM (Check.callResult method
        ((s.after callee.meaning).answer (meanings arguments)) callee.span span)) =
          some meaning := by
  have h : ((call callee arguments span).denote s.scopes s.table).result = some meaning := h
  rw [denote] at h
  exact Check.exists_of_result_bind (fun _ => rfl) h

theorem of_answer_new {className : Ident} {arguments : List Expr}
    (h : s.answer (new className arguments span).meaning = some meaning) : arguments = [] := by
  have h : ((new className arguments span).denote s.scopes s.table).result = some meaning := h
  rw [denote] at h
  obtain ⟨ty, -, h⟩ := Check.exists_of_result_bind (fun _ => rfl) h
  dsimp only at h
  rw [Check.result_bind] at h
  split at h
  · split at h
    · next he => exact List.isEmpty_iff.mp he
    · cases h
  · cases h

end Expr

/-- Of the statements of a block that is not reported only the last one may always return. -/
theorem Stmt.live_of_clean {before after : List Stmt} {t : Stmt} {s : Site}
    (h : s.findings (checkAll (before ++ t :: after)) = []) :
    ∀ u ∈ before, u.alwaysReturns = false := by
  induction before generalizing s with
  | nil => simp
  | cons b before ih =>
    obtain ⟨-, hrest⟩ := findings_bind_eq_nil.mp h
    cases hb : b.alwaysReturns with
    | true =>
      rw [hb, if_pos rfl] at hrest
      cases before <;> cases hrest
    | false =>
      rw [hb, if_neg Bool.false_ne_true] at hrest
      exact List.forall_mem_cons.mpr ⟨hb, ih (findings_bind_eq_nil.mp hrest).1⟩

theorem Routine.parameters_of_clean {m : Member} {returnType : Ty} {r : Routine} {s : Site}
    (h : s.findings (r.check m returnType) = []) :
    (s.push .function (.member m)).answer (failsAt Parameter.check r.parameters) = false := by
  rw [Routine.check, s.findings_within] at h
  exact Bool.eq_false_iff.mpr (not_fails_of_clean
    (Scoped.honest_failsAt Parameter.honest_check r.parameters) (findings_bind_eq_nil.mp h).1)

namespace Member

variable {c : ClassDef} {m : Member} {s : Site}

theorem field_of_clean {declarators : List Declarator} (kind : m.kind = .field declarators)
    (h : s.findings (m.check c) = []) :
    m.modifier = .normal ∧
      ∃ ty, s.answer (liftM (Check.expectValueType m.declaredType)) = some ty := by
  rw [check, kind] at h
  dsimp only at h
  rw [checkField, s.findings_reading] at h
  by_cases modifier : m.modifier = .normal
  · rw [if_neg (by simp [modifier])] at h
    have htype : s.findings (liftM (Check.expectValueType m.declaredType)) = [] :=
      (Scoped.findings_lift ..).trans (List.append_eq_nil_iff.mp h).1
    exact ⟨modifier, Option.ne_none_iff_exists'.mp
      (not_fails_of_clean_lift (Check.honest_expectValueType m.declaredType) htype)⟩
  · rw [if_pos (by simpa using modifier)] at h
    cases h

theorem exists_of_expectType_clean {f : Option Ty → Scoped Bool}
    (h : s.findings (liftM (Check.expectType m.declaredType) >>= f) = []) :
    ∃ ty, s.answer (liftM (Check.expectType m.declaredType)) = some ty ∧
      (s.after (liftM (Check.expectType m.declaredType))).findings (f (some ty)) = [] := by
  obtain ⟨ht, hf⟩ := findings_bind_eq_nil.mp h
  obtain ⟨ty, type⟩ := Option.ne_none_iff_exists'.mp
    (not_fails_of_clean_lift (Check.honest_expectType m.declaredType) ht)
  rw [type] at hf
  exact ⟨ty, type, hf⟩

theorem routine_of_clean {r : Routine} (kind : m.routine? = some r)
    (h : s.findings (m.check c) = []) :
    ∃ ty, s.answer (liftM (Check.expectType m.declaredType)) = some ty ∧
      (m.entered s).answer (failsAt Parameter.check r.parameters) = false := by
  obtain ⟨visibility, modifier, isStatic, declaredType, owner, span, memberKind⟩ := m
  cases memberKind with
  | field declarators => cases kind
  | method r =>
    cases kind
    obtain ⟨ty, type, h⟩ := exists_of_expectType_clean h
    obtain ⟨-, h⟩ := findings_bind_eq_nil.mp h
    rw [after_checkMethodHeader] at h
    exact ⟨ty, type, Routine.parameters_of_clean (findings_bind_eq_nil.mp h).1⟩
  | operator r =>
    cases kind
    obtain ⟨-, h⟩ := findings_bind_eq_nil.mp h
    obtain ⟨-, h⟩ := findings_bind_eq_nil.mp h
    rw [Site.after_failIf, Site.after_failIf] at h
    obtain ⟨ty, type, h⟩ := exists_of_expectType_clean h
    obtain ⟨-, h⟩ := findings_bind_eq_nil.mp h
    rw [Site.after_failIf] at h
    exact ⟨ty, type, Routine.parameters_of_clean (findings_bind_eq_nil.mp h).1⟩

end Member

namespace ClassDef

variable {c : ClassDef} {s : Site}

theorem body_of_clean (h : s.findings c.check = []) :
    s.answer (liftM c.checkBase) = some false ∧ (c.entered s).findings c.checkBody = [] := by
  have hbackend : s.after (liftM c.checkBackend) = s := s.after_failIf ..
  obtain ⟨-, h⟩ := findings_bind_eq_nil.mp h
  rw [hbackend] at h
  obtain ⟨hbase, h⟩ := findings_bind_eq_nil.mp h
  have base : s.answer (liftM c.checkBase) = some false :=
    not_not.mp (not_fails_of_clean_lift c.honest_checkBase hbase)
  have hlabel : (s.after (liftM c.checkBase)).after (liftM c.checkLabel) =
      s.after (liftM c.checkBase) := Site.after_failIf ..
  rw [base] at h
  obtain ⟨-, h⟩ := findings_bind_eq_nil.mp h
  rw [hlabel] at h
  exact ⟨base, (Site.findings_within ..).symm.trans (findings_bind_eq_nil.mp h).1⟩

theorem names_of_clean (h : s.findings c.checkBody = []) :
    s.findings c.declareNames = [] ∧ s.answer c.declareNames = some false ∧
      firstDuplicate? [] c.memberKeys = none := by
  obtain ⟨hnames, h⟩ := findings_bind_eq_nil.mp h
  have names : s.answer c.declareNames = some false :=
    not_not.mp (not_fails_of_clean c.honest_declareNames hnames)
  rw [names] at h
  have hunique := not_fails_of_clean_lift c.honest_checkUnique (findings_bind_eq_nil.mp h).1
  refine ⟨hnames, names, ?_⟩
  cases hd : firstDuplicate? [] c.memberKeys with
  | none => rfl
  | some name =>
    rw [checkUnique, hd] at hunique
    exact absurd rfl hunique

end ClassDef

namespace Leads

variable {s : Site}

theorem exists_member {c : ClassDef} {m : Member} (h : s.findings c.check = [])
    (hm : m ∈ c.members) : ∃ t, Leads ⟨.classDef c, s⟩ ⟨.member c m, t⟩ := by
  obtain ⟨before, after, items⟩ := List.append_of_mem hm
  obtain ⟨base, hbody⟩ := ClassDef.body_of_clean h
  obtain ⟨-, names, unique⟩ := ClassDef.names_of_clean hbody
  exact ⟨_, .member base names unique items⟩

theorem exists_fieldValue {c : ClassDef} {m : Member} {declarators : List Declarator} {e : Expr}
    (kind : m.kind = .field declarators) (h : s.findings (m.check c) = [])
    (he : e ∈ declarators.filterMap Declarator.value) :
    ∃ t, Leads ⟨.member c m, s⟩ ⟨.expression .initializer e, t⟩ := by
  obtain ⟨before, after, items⟩ := List.append_of_mem he
  obtain ⟨modifier, ty, type⟩ := Member.field_of_clean kind h
  exact ⟨_, .fieldValue kind modifier type items⟩

theorem exists_body {c : ClassDef} {m : Member} {b : Block} (present : m.body? = some b)
    (h : s.findings (m.check c) = []) :
    ∃ t, Leads ⟨.member c m, s⟩ ⟨.statement b.toStmt, t⟩ := by
  obtain ⟨r, kind, hb⟩ := Option.bind_eq_some_iff.mp present
  obtain ⟨ty, type, parameters⟩ := Member.routine_of_clean kind h
  exact ⟨_, .body kind type parameters hb⟩

theorem exists_statement {t u : Stmt} (h : s.findings t.check = []) (hu : u ∈ t.statements) :
    ∃ r, Leads ⟨.statement t, s⟩ ⟨.statement u, r⟩ := by
  cases t with
  | block statements span =>
    obtain ⟨before, after, items⟩ := List.append_of_mem hu
    obtain rfl : statements = before ++ u :: after := items
    rw [Stmt.check, s.findings_within] at h
    exact ⟨_, .inBlock rfl (Stmt.live_of_clean h)⟩
  | whileLoop condition body span =>
    obtain rfl := List.mem_singleton.mp hu
    exact ⟨_, .whileBody⟩
  | doLoop body condition span =>
    obtain rfl := List.mem_singleton.mp hu
    exact ⟨_, .doBody⟩
  | ifThen condition thenBranch span =>
    obtain rfl := List.mem_singleton.mp hu
    exact ⟨_, .ifThen⟩
  | ifElse condition thenBranch elseBranch span =>
    obtain rfl | hu := List.mem_cons.mp hu
    · exact ⟨_, .choiceThen⟩
    · obtain rfl := List.mem_singleton.mp hu
      exact ⟨_, .choiceElse⟩
  | forLoop init condition step body span =>
    obtain hu | hu := List.mem_append.mp hu
    · obtain ⟨first, hf, hu⟩ := List.mem_flatMap.mp hu
      obtain rfl : init = some first := Option.mem_toList.mp hf
      cases first with
      | declaration d =>
        obtain rfl := List.mem_singleton.mp hu
        exact ⟨_, .forDeclaration⟩
      | expression e => cases hu
    · obtain rfl := List.mem_singleton.mp hu
      exact ⟨_, .forBody⟩
  | continueLoop span => cases hu
  | breakLoop span => cases hu
  | ret value span => cases hu
  | declaration d => cases hu
  | expression e span => cases hu

open Relation (TransGen)

theorem exists_returned {e : Expr} {span : Span}
    (h : s.findings (Stmt.ret (some e) span).check = [])
    (hm : ∀ m ∈ s.scopes.currentMember?, ¬ s.table.Dangling m) :
    ∃ r, Leads ⟨.statement (.ret (some e) span), s⟩ ⟨.expression .returned e, r⟩ := by
  rw [Stmt.check, s.findings_reading, Stmt.checkReturn] at h
  cases hc : s.scopes.currentMember? with
  | none =>
    rw [hc] at h
    cases h
  | some m =>
    obtain ⟨ty, type⟩ := Option.ne_none_iff_exists'.mp (hm m hc)
    exact ⟨_, .returned hc type⟩

theorem exists_initialValue {d : Declaration} {e : Expr}
    (h : s.findings (Stmt.declaration d).check = [])
    (he : e ∈ d.declarators.filterMap Declarator.value) :
    ∃ r, TransGen Leads ⟨.statement (.declaration d), s⟩ ⟨.expression .initializer e, r⟩ := by
  obtain ⟨x, hx, value⟩ := List.mem_filterMap.mp he
  obtain ⟨before, after, items⟩ := List.append_of_mem hx
  obtain ⟨htype, -⟩ := findings_bind_eq_nil.mp h
  obtain ⟨ty, type⟩ := Option.ne_none_iff_exists'.mp
    (not_fails_of_clean_lift (Check.honest_expectValueType d.typeName) htype)
  exact ⟨_, .tail (.single (.declarator type items)) (.initialValue value)⟩

theorem exists_expression {t : Stmt} {use : Use} {e : Expr} (h : s.findings t.check = [])
    (hm : ∀ m ∈ s.scopes.currentMember?, ¬ s.table.Dangling m) (he : (use, e) ∈ t.expressions) :
    ∃ r, TransGen Leads ⟨.statement t, s⟩ ⟨.expression use e, r⟩ := by
  cases t with
  | ret value span =>
    obtain ⟨_, hv, ⟨⟩⟩ := List.mem_map.mp he
    obtain rfl : value = some e := Option.mem_toList.mp hv
    obtain ⟨r, leads⟩ := exists_returned h hm
    exact ⟨r, .single leads⟩
  | declaration d =>
    obtain ⟨_, hv, ⟨⟩⟩ := List.mem_map.mp he
    exact exists_initialValue h hv
  | whileLoop condition body span =>
    obtain ⟨⟩ := List.mem_singleton.mp he
    exact ⟨_, .single .whileCondition⟩
  | doLoop body condition span =>
    obtain ⟨⟩ := List.mem_singleton.mp he
    exact ⟨_, .single .doCondition⟩
  | ifThen condition thenBranch span =>
    obtain ⟨⟩ := List.mem_singleton.mp he
    exact ⟨_, .single .ifCondition⟩
  | ifElse condition thenBranch elseBranch span =>
    obtain ⟨⟩ := List.mem_singleton.mp he
    exact ⟨_, .single .choiceCondition⟩
  | forLoop init condition step body span =>
    obtain he | he := List.mem_append.mp he
    · obtain ⟨first, hf, he⟩ := List.mem_flatMap.mp he
      obtain rfl : init = some first := Option.mem_toList.mp hf
      cases first with
      | declaration d => cases he
      | expression e =>
        obtain ⟨⟩ := List.mem_singleton.mp he
        exact ⟨_, .single .forInit⟩
    · obtain he | he := List.mem_append.mp he
      · obtain ⟨_, hv, ⟨⟩⟩ := List.mem_map.mp he
        obtain rfl : condition = some e := Option.mem_toList.mp hv
        exact ⟨_, .single .forCondition⟩
      · obtain ⟨_, hv, ⟨⟩⟩ := List.mem_map.mp he
        obtain rfl : step = some e := Option.mem_toList.mp hv
        exact ⟨_, .single .forStep⟩
  | expression e span =>
    obtain ⟨⟩ := List.mem_singleton.mp he
    exact ⟨_, .single .expression⟩
  | block statements span => cases he
  | continueLoop span => cases he
  | breakLoop span => cases he

theorem exists_part {e f : Expr} {use outer : Use} {meaning : Meaning}
    (h : s.answer e.meaning = some meaning) (hf : (use, f) ∈ e.parts) :
    ∃ r, Leads ⟨.expression outer e, s⟩ ⟨.expression use f, r⟩ := by
  cases e with
  | literal kind text span => cases hf
  | ident name => cases hf
  | member target name span =>
    obtain ⟨⟩ := List.mem_singleton.mp hf
    exact ⟨_, .receiver⟩
  | call callee arguments span =>
    obtain he | hf := List.mem_cons.mp hf
    · cases he
      exact ⟨_, .callee⟩
    · obtain ⟨_, ha, ⟨⟩⟩ := List.mem_map.mp hf
      obtain ⟨before, after, items⟩ := List.append_of_mem ha
      obtain ⟨method, called, -⟩ := Expr.of_answer_call h
      exact ⟨_, .argument called items⟩
  | new className arguments span =>
    obtain rfl := Expr.of_answer_new h
    cases hf
  | unary operator operand span =>
    obtain ⟨⟩ := List.mem_singleton.mp hf
    exact ⟨_, .unaryOperand⟩
  | binary left operator right span =>
    obtain he | hf := List.mem_cons.mp hf
    · cases he
      exact ⟨_, .leftOperand⟩
    · obtain ⟨⟩ := List.mem_singleton.mp hf
      exact ⟨_, .rightOperand⟩
  | assign target operator value span =>
    obtain he | hf := List.mem_cons.mp hf
    · cases he
      exact ⟨_, .target⟩
    · obtain ⟨⟩ := List.mem_singleton.mp hf
      exact ⟨_, .assigned⟩

end Leads

namespace Program

variable {p : Program} {v w : Visit}

theorem Reaches.trans (h : p.Reaches v) (k : Relation.TransGen Leads v w) : p.Reaches w := by
  induction k with
  | single leads => exact h.step leads
  | tail _ leads ih => exact ih.step leads

theorem infix_of_reaches (h : p.Reaches v) : v.findings <:+: (p.check .empty).findings := by
  induction h with
  | @classDef before after c items =>
    have hc := Check.infix_anyFails ClassDef.checkAlone before c after p.registered
    rw [← items, ClassDef.findings_checkAlone] at hc
    exact hc
  | step reached leads ih => exact leads.infix_findings.trans ih

theorem clean_of_reaches (hp : (p.check .empty).findings = []) (h : p.Reaches v) :
    v.findings = [] := by
  have hi := infix_of_reaches h
  rw [hp] at hi
  exact List.infix_nil.mp hi

theorem denotes_of_reaches (hp : (p.check .empty).findings = []) {use : Use} {e : Expr} {s : Site}
    (h : p.Reaches ⟨.expression use e, s⟩) : ∃ meaning, s.answer e.meaning = some meaning := by
  have hc := clean_of_reaches hp h
  rw [Visit.findings, s.findings_meaning] at hc
  have hh : Check.Honest (.faulty none) False (· = none) (e.denote s.scopes) :=
    e.honest_denote s.scopes
  apply Option.ne_none_iff_exists'.mp
  intro hn
  obtain hf | hb | hx := (hh s.table).accounted hn
  · exact hf hc
  · exact hb
  · exact findings_ne_nil_of_faulty ((grows_of_reaches h).faulty hx) hp

theorem reaches_member (hp : (p.check .empty).findings = []) {c : ClassDef} (hc : c ∈ p.classes)
    {m : Member} (hm : m ∈ c.members) : ∃ s, p.Reaches ⟨.member c m, s⟩ := by
  obtain ⟨before, after, items⟩ := List.append_of_mem hc
  have hclass : p.Reaches ⟨.classDef c, [], p.tableAfter before⟩ := .classDef items
  obtain ⟨s, leads⟩ := Leads.exists_member (clean_of_reaches hp hclass) hm
  exact ⟨s, hclass.step leads⟩

/-- The check of a program that passes comes by every statement in it. -/
theorem reaches_of_holds (hp : (p.check .empty).findings = []) {t : Stmt} (h : p.Holds t) :
    ∃ s, p.Reaches ⟨.statement t, s⟩ := by
  induction h with
  | body declared member present =>
    obtain ⟨s, hs⟩ := reaches_member hp declared member
    obtain ⟨r, leads⟩ := Leads.exists_body present (clean_of_reaches hp hs)
    exact ⟨r, hs.step leads⟩
  | inside outer inner ih =>
    obtain ⟨s, hs⟩ := ih
    obtain ⟨r, leads⟩ := Leads.exists_statement (clean_of_reaches hp hs) inner
    exact ⟨r, hs.step leads⟩

theorem reaches_of_uses (hp : (p.check .empty).findings = []) {use : Use} {e : Expr}
    (h : p.Uses use e) : ∃ s, p.Reaches ⟨.expression use e, s⟩ := by
  induction h with
  | field declared member kind value =>
    obtain ⟨s, hs⟩ := reaches_member hp declared member
    obtain ⟨r, leads⟩ := Leads.exists_fieldValue kind (clean_of_reaches hp hs) value
    exact ⟨r, hs.step leads⟩
  | statement outer inner =>
    obtain ⟨s, hs⟩ := reaches_of_holds hp outer
    have hm : ∀ m ∈ s.scopes.currentMember?, ¬ s.table.Dangling m := fun m hm hd =>
      not_dangling_of_reaches hs m hm ((grows_of_reaches hs).dangling_iff.mp hd)
    obtain ⟨r, leads⟩ := Leads.exists_expression (clean_of_reaches hp hs) hm inner
    exact ⟨r, hs.trans leads⟩
  | part outer inner ih =>
    obtain ⟨s, hs⟩ := ih
    obtain ⟨meaning, hmeaning⟩ := denotes_of_reaches hp hs
    obtain ⟨r, leads⟩ := Leads.exists_part hmeaning inner
    exact ⟨r, hs.step leads⟩

end Program

end ClassLang
