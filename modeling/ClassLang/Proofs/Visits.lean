import ClassLang.Proofs.Verdict

namespace ClassLang

inductive Use where
  | statement
  | forInit
  | forStep
  | initializer
  | condition
  | returned
  | receiver
  | callee
  | argument
  | operand
  | target
  | assigned
  deriving DecidableEq, Repr

/-- Whether the value of an expression is dropped as soon as it is there. -/
def Use.isIdle : Use → Bool
  | .statement | .forInit | .forStep => true
  | .initializer | .condition | .returned | .receiver | .callee | .argument | .operand | .target
  | .assigned => false

inductive Node where
  | classDef (c : ClassDef)
  | member (c : ClassDef) (m : Member)
  | statement (t : Stmt)
  | declarator (ty : Ty) (d : Declarator)
  | expression (use : Use) (e : Expr)

/-- Where a check is made: the scopes around it, and the classes known by then. -/
structure Site where
  scopes : ScopeStack
  table : ClassTable

namespace Site

variable {α : Type}

def push (s : Site) (kind : ScopeKind) (owner : ScopeOwner) : Site :=
  ⟨s.scopes.push kind owner, s.table⟩

def answer (s : Site) (c : Scoped α) : α := (c s.scopes s.table).result.1

def findings (s : Site) (c : Scoped α) : List Finding := (c s.scopes s.table).findings

def after (s : Site) (c : Scoped α) : Site :=
  ⟨(c s.scopes s.table).result.2, (c s.scopes s.table).table⟩

variable (s : Site)

theorem after_failIf (condition : Bool) (problem : Problem) (span : Span) :
    s.after (liftM (Check.failIf condition problem span)) = s :=
  congrArg (Site.mk s.scopes) (Check.table_failIf s.table condition problem span)

theorem findings_reading (c : ScopeStack → Check α) :
    s.findings (Scoped.reading c) = (c s.scopes s.table).findings := List.append_nil _

theorem findings_within (kind : ScopeKind) (owner : ScopeOwner) (c : Scoped α) :
    s.findings (Scoped.within kind owner c) = (s.push kind owner).findings c := List.append_nil _

end Site

namespace Check

variable {α β : Type} {found : List Finding} {table : ClassTable}

theorem infix_first {c : Check α} {f : α → Check β} (h : found <:+: (c table).findings) :
    found <:+: ((c >>= f) table).findings := h.trans (List.prefix_append _ _).isInfix

theorem infix_next {c : Check α} {f : α → Check β} {a : α} (ha : (c table).result = a)
    (h : found <:+: (f a (c table).table).findings) : found <:+: ((c >>= f) table).findings := by
  subst ha
  exact h.trans (List.suffix_append _ _).isInfix

theorem infix_anyFails (f : α → Check Bool) (before : List α) (a : α) (after : List α)
    (table : ClassTable) :
    (f a (anyFails f before table).table).findings <:+:
      (anyFails f (before ++ a :: after) table).findings := by
  induction before generalizing table with
  | nil => exact infix_first (List.infix_refl _)
  | cons b before ih => exact infix_next rfl (infix_first (ih (f b table).table))

end Check

namespace Scoped

variable {α β : Type} {found : List Finding} {s : Site}

theorem infix_first {c : Scoped α} {f : α → Scoped β} (h : found <:+: s.findings c) :
    found <:+: s.findings (c >>= f) := h.trans (List.prefix_append _ _).isInfix

theorem infix_next {c : Scoped α} {f : α → Scoped β} {a : α} (ha : s.answer c = a)
    (h : found <:+: (s.after c).findings (f a)) : found <:+: s.findings (c >>= f) := by
  subst ha
  exact h.trans (List.suffix_append _ _).isInfix

theorem infix_within {kind : ScopeKind} {owner : ScopeOwner} {c : Scoped α}
    (h : found <:+: (s.push kind owner).findings c) :
    found <:+: s.findings (within kind owner c) := h.trans (List.prefix_append _ _).isInfix

theorem infix_anyFails (f : α → Scoped Bool) (before : List α) (a : α) (after : List α)
    (s : Site) :
    (s.after (anyFails f before)).findings (f a) <:+:
      s.findings (anyFails f (before ++ a :: after)) := by
  induction before generalizing s with
  | nil => exact infix_first (List.infix_refl _)
  | cons b before ih => exact infix_next rfl (infix_first (ih (s.after (f b))))

end Scoped

variable [Alphabet]

def Expr.meaning (e : Expr) : Scoped (Option Meaning) :=
  Scoped.reading fun scopes => e.denote scopes

def Expr.meanings (es : List Expr) : Scoped (List (Option Meaning)) :=
  Scoped.reading fun scopes => Expr.denoteAll scopes es

structure Visit where
  node : Node
  site : Site

namespace Visit

def findings : Visit → List Finding
  | ⟨.classDef c, s⟩ => s.findings c.check
  | ⟨.member c m, s⟩ => s.findings (m.check c)
  | ⟨.statement t, s⟩ => s.findings t.check
  | ⟨.declarator ty d, s⟩ => s.findings (d.check ty)
  | ⟨.expression _ e, s⟩ => s.findings e.meaning

end Visit

/-- Where the names of a class are declared: in a scope of its own, once its base is known. -/
def ClassDef.entered (c : ClassDef) (s : Site) : Site :=
  (s.after (liftM c.checkBase)).push .classBody (.classDef c)

def Member.entered (m : Member) (s : Site) : Site :=
  (s.after (liftM (Check.expectType m.declaredType))).push .function (.member m)

/-- The first visit leads to the second: to check the one part is also to check the other, which is
the next one below. What stands before it in a list has been checked by then. -/
inductive Leads : Visit → Visit → Prop
  | member {c : ClassDef} {s : Site} {before after : List Member} {m : Member}
      {baseFailed inheritedFailed : Bool} (base : s.answer (liftM c.checkBase) = some baseFailed)
      (names : (c.entered s).answer c.declareNames = some inheritedFailed)
      (unique : firstDuplicate? [] c.memberKeys = none) (items : c.members = before ++ m :: after) :
      Leads ⟨.classDef c, s⟩
        ⟨.member c m, ((c.entered s).after c.declareNames).after (anyFails (Member.check c) before)⟩
  | fieldValue {c : ClassDef} {m : Member} {s : Site} {declarators : List Declarator} {ty : Ty}
      {before after : List Expr} {e : Expr} (kind : m.kind = .field declarators)
      (modifier : m.modifier = .normal)
      (type : s.answer (liftM (Check.expectValueType m.declaredType)) = some ty)
      (items : declarators.filterMap Declarator.value = before ++ e :: after) :
      Leads ⟨.member c m, s⟩
        ⟨.expression .initializer e,
          (s.after (liftM (Check.expectValueType m.declaredType))).after
            (Scoped.reading fun scopes => anyFails (Expr.checkInitializer scopes ty) before)⟩
  | body {c : ClassDef} {m : Member} {s : Site} {r : Routine} {returnType : Ty} {b : Block}
      (kind : m.routine? = some r)
      (type : s.answer (liftM (Check.expectType m.declaredType)) = some returnType)
      (parameters : (m.entered s).answer (failsAt Parameter.check r.parameters) = false)
      (present : r.body = some b) :
      Leads ⟨.member c m, s⟩
        ⟨.statement b.toStmt, (m.entered s).after (failsAt Parameter.check r.parameters)⟩
  | inBlock {statements before after : List Stmt} {t : Stmt} {span : Span} {s : Site}
      (items : statements = before ++ t :: after) (live : ∀ u ∈ before, u.alwaysReturns = false) :
      Leads ⟨.statement (.block statements span), s⟩
        ⟨.statement t, (s.push .block .code).after (Stmt.checkAll before)⟩
  | returned {e : Expr} {span : Span} {s : Site} {m : Member} {expected : Ty}
      (current : s.scopes.currentMember? = some m)
      (type : s.answer (liftM (Check.resolve m.declaredType.text)) = some expected) :
      Leads ⟨.statement (.ret (some e) span), s⟩
        ⟨.expression .returned e, s.after (liftM (Check.resolve m.declaredType.text))⟩
  | declarator {d : Declaration} {s : Site} {ty : Ty} {before after : List Declarator}
      {x : Declarator} (type : s.answer (liftM (Check.expectValueType d.typeName)) = some ty)
      (items : d.declarators = before ++ x :: after) :
      Leads ⟨.statement (.declaration d), s⟩
        ⟨.declarator ty x,
          (s.after (liftM (Check.expectValueType d.typeName))).after
            (anyFails (Declarator.check ty) before)⟩
  | initialValue {ty : Ty} {x : Declarator} {e : Expr} {s : Site} (value : x.value = some e) :
      Leads ⟨.declarator ty x, s⟩ ⟨.expression .initializer e, s⟩
  | whileCondition {condition : Expr} {body : Stmt} {span : Span} {s : Site} :
      Leads ⟨.statement (.whileLoop condition body span), s⟩ ⟨.expression .condition condition, s⟩
  | whileBody {condition : Expr} {body : Stmt} {span : Span} {s : Site} :
      Leads ⟨.statement (.whileLoop condition body span), s⟩
        ⟨.statement body, (s.after (Scoped.reading condition.checkCondition)).push .loop .code⟩
  | doBody {body : Stmt} {condition : Expr} {span : Span} {s : Site} :
      Leads ⟨.statement (.doLoop body condition span), s⟩ ⟨.statement body, s.push .loop .code⟩
  | doCondition {body : Stmt} {condition : Expr} {span : Span} {s : Site} :
      Leads ⟨.statement (.doLoop body condition span), s⟩
        ⟨.expression .condition condition, s.after (Scoped.within .loop .code body.check)⟩
  | ifCondition {condition : Expr} {thenBranch : Stmt} {span : Span} {s : Site} :
      Leads ⟨.statement (.ifThen condition thenBranch span), s⟩
        ⟨.expression .condition condition, s⟩
  | ifThen {condition : Expr} {thenBranch : Stmt} {span : Span} {s : Site} :
      Leads ⟨.statement (.ifThen condition thenBranch span), s⟩
        ⟨.statement thenBranch,
          (s.after (Scoped.reading condition.checkCondition)).push .block .code⟩
  | choiceCondition {condition : Expr} {thenBranch elseBranch : Stmt} {span : Span} {s : Site} :
      Leads ⟨.statement (.ifElse condition thenBranch elseBranch span), s⟩
        ⟨.expression .condition condition, s⟩
  | choiceThen {condition : Expr} {thenBranch elseBranch : Stmt} {span : Span} {s : Site} :
      Leads ⟨.statement (.ifElse condition thenBranch elseBranch span), s⟩
        ⟨.statement thenBranch,
          (s.after (Scoped.reading condition.checkCondition)).push .block .code⟩
  | choiceElse {condition : Expr} {thenBranch elseBranch : Stmt} {span : Span} {s : Site} :
      Leads ⟨.statement (.ifElse condition thenBranch elseBranch span), s⟩
        ⟨.statement elseBranch,
          ((s.after (Scoped.reading condition.checkCondition)).after
            (Scoped.within .block .code thenBranch.check)).push .block .code⟩
  | forDeclaration {d : Declaration} {condition step : Option Expr} {body : Stmt} {span : Span}
      {s : Site} :
      Leads ⟨.statement (.forLoop (some (.declaration d)) condition step body span), s⟩
        ⟨.statement (.declaration d), s.push .loop .code⟩
  | forInit {e : Expr} {condition step : Option Expr} {body : Stmt} {span : Span} {s : Site} :
      Leads ⟨.statement (.forLoop (some (.expression e)) condition step body span), s⟩
        ⟨.expression .forInit e, s.push .loop .code⟩
  | forCondition {init : Option ForInit} {e : Expr} {step : Option Expr} {body : Stmt} {span : Span}
      {s : Site} :
      Leads ⟨.statement (.forLoop init (some e) step body span), s⟩
        ⟨.expression .condition e, (s.push .loop .code).after (checkOptional ForInit.check init)⟩
  | forStep {init : Option ForInit} {condition : Option Expr} {e : Expr} {body : Stmt} {span : Span}
      {s : Site} :
      Leads ⟨.statement (.forLoop init condition (some e) body span), s⟩
        ⟨.expression .forStep e,
          ((s.push .loop .code).after (checkOptional ForInit.check init)).after
            (checkOptional (fun e => Scoped.reading e.checkCondition) condition)⟩
  | forBody {init : Option ForInit} {condition step : Option Expr} {body : Stmt} {span : Span}
      {s : Site} :
      Leads ⟨.statement (.forLoop init condition step body span), s⟩
        ⟨.statement body,
          (((s.push .loop .code).after (checkOptional ForInit.check init)).after
            (checkOptional (fun e => Scoped.reading e.checkCondition) condition)).after
              (checkOptional (fun e => Scoped.reading e.checkDenotes) step)⟩
  | expression {e : Expr} {span : Span} {s : Site} :
      Leads ⟨.statement (.expression e span), s⟩ ⟨.expression .statement e, s⟩
  | receiver {use : Use} {target : Expr} {name : Ident} {span : Span} {s : Site} :
      Leads ⟨.expression use (.member target name span), s⟩ ⟨.expression .receiver target, s⟩
  | callee {use : Use} {callee : Expr} {arguments : List Expr} {span : Span} {s : Site} :
      Leads ⟨.expression use (.call callee arguments span), s⟩ ⟨.expression .callee callee, s⟩
  | argument {use : Use} {callee : Expr} {arguments before after : List Expr} {e : Expr}
      {span : Span} {s : Site} {method : Meaning} (called : s.answer callee.meaning = some method)
      (items : arguments = before ++ e :: after) :
      Leads ⟨.expression use (.call callee arguments span), s⟩
        ⟨.expression .argument e, (s.after callee.meaning).after (Expr.meanings before)⟩
  | newArgument {use : Use} {className : Ident} {arguments before after : List Expr} {e : Expr}
      {span : Span} {s : Site} {ty : Ty}
      (type : s.answer (liftM (Check.expectType className)) = some ty)
      (instantiable :
        (s.after (liftM (Check.expectType className))).table.isInstantiable ty = true)
      (items : arguments = before ++ e :: after) :
      Leads ⟨.expression use (.new className arguments span), s⟩
        ⟨.expression .argument e,
          (s.after (liftM (Check.expectType className))).after (Expr.meanings before)⟩
  | unaryOperand {use : Use} {operator : String} {operand : Expr} {span : Span} {s : Site} :
      Leads ⟨.expression use (.unary operator operand span), s⟩ ⟨.expression .operand operand, s⟩
  | leftOperand {use : Use} {left right : Expr} {operator : String} {span : Span} {s : Site} :
      Leads ⟨.expression use (.binary left operator right span), s⟩ ⟨.expression .operand left, s⟩
  | rightOperand {use : Use} {left right : Expr} {operator : String} {span : Span} {s : Site} :
      Leads ⟨.expression use (.binary left operator right span), s⟩
        ⟨.expression .operand right, s.after left.meaning⟩
  | target {use : Use} {target value : Expr} {operator : String} {span : Span} {s : Site} :
      Leads ⟨.expression use (.assign target operator value span), s⟩
        ⟨.expression .target target, s⟩
  | assigned {use : Use} {target value : Expr} {operator : String} {span : Span} {s : Site} :
      Leads ⟨.expression use (.assign target operator value span), s⟩
        ⟨.expression .assigned value, s.after target.meaning⟩

/-- The check of a program, starting without any class but its own, comes to a visit: that of one of
its classes, outside of all scopes, or one that such a visit leads to. -/
inductive Program.Reaches (p : Program) : Visit → Prop
  | classDef {before after : List ClassDef} {c : ClassDef}
      (items : p.classes = before ++ c :: after) :
      p.Reaches ⟨.classDef c, [], p.tableAfter before⟩
  | step {v w : Visit} (reached : p.Reaches v) (leads : Leads v w) : p.Reaches w

namespace Site

variable {α : Type} (s : Site)

theorem findings_meaning (e : Expr) :
    s.findings e.meaning = (e.denote s.scopes s.table).findings := s.findings_reading _

end Site

namespace Scoped

variable {α β : Type} {found : List Finding} {s : Site}

theorem infix_reading {e : Expr} {f : ScopeStack → Option Meaning → Check β} :
    s.findings e.meaning <:+: s.findings (reading fun scopes => e.denote scopes >>= f scopes) := by
  rw [s.findings_meaning, s.findings_reading]
  exact Check.infix_first (List.infix_refl _)

end Scoped

theorem Expr.infix_denoteAll (before : List Expr) (e : Expr) (after : List Expr)
    (scopes : ScopeStack) (table : ClassTable) :
    (e.denote scopes (denoteAll scopes before table).table).findings <:+:
      (denoteAll scopes (before ++ e :: after) table).findings := by
  induction before generalizing table with
  | nil => exact Check.infix_first (List.infix_refl _)
  | cons b before ih =>
    exact Check.infix_next rfl (Check.infix_first (ih (b.denote scopes table).table))

theorem Stmt.infix_checkAll {before : List Stmt} (live : ∀ u ∈ before, u.alwaysReturns = false)
    (t : Stmt) (after : List Stmt) (s : Site) :
    (s.after (checkAll before)).findings t.check <:+:
      s.findings (checkAll (before ++ t :: after)) := by
  induction before generalizing s with
  | nil => exact Scoped.infix_first (List.infix_refl _)
  | cons b before ih =>
    obtain ⟨hb, hrest⟩ := List.forall_mem_cons.mp live
    have hi := ih hrest (s.after b.check)
    rw [List.cons_append, checkAll, checkAll, hb]
    exact Scoped.infix_next rfl (Scoped.infix_first hi)

theorem Routine.infix_body {m : Member} {returnType : Ty} {r : Routine} {b : Block} {s : Site}
    (parameters :
      (s.push .function (.member m)).answer (failsAt Parameter.check r.parameters) = false)
    (present : r.body = some b) :
    ((s.push .function (.member m)).after (failsAt Parameter.check r.parameters)).findings
        b.toStmt.check <:+: s.findings (r.check m returnType) := by
  refine Scoped.infix_within (Scoped.infix_next parameters ?_)
  rw [present]
  exact Scoped.infix_first (List.infix_refl _)

omit [Alphabet] in
theorem Member.after_checkMethodHeader (c : ClassDef) (m : Member) (r : Routine) (s : Site) :
    s.after (liftM (m.checkMethodHeader c r)) = s := by
  have htable : (m.checkMethodHeader c r s.table).table = s.table := by
    simp only [checkMethodHeader, Check.table_bind, Check.table_failIf, Check.classes,
      Check.pure_apply]
  exact congrArg (Site.mk s.scopes) htable

theorem Member.infix_fieldValue {c : ClassDef} {m : Member} {s : Site}
    {declarators : List Declarator} {ty : Ty} {before after : List Expr} {e : Expr}
    (kind : m.kind = .field declarators) (modifier : m.modifier = .normal)
    (type : s.answer (liftM (Check.expectValueType m.declaredType)) = some ty)
    (items : declarators.filterMap Declarator.value = before ++ e :: after) :
    ((s.after (liftM (Check.expectValueType m.declaredType))).after
      (Scoped.reading fun scopes => anyFails (Expr.checkInitializer scopes ty) before)).findings
        (Scoped.reading fun scopes => e.checkInitializer scopes ty) <:+:
          s.findings (m.check c) := by
  rw [Site.findings_reading, Member.check, kind]
  dsimp only
  rw [Member.checkField, s.findings_reading, modifier]
  refine Check.infix_next type ?_
  rw [items]
  exact Check.infix_anyFails (Expr.checkInitializer s.scopes ty) before e after _

namespace Leads

open Scoped

variable {w : Visit} {s : Site}

theorem infix_classDef {c : ClassDef} (h : Leads ⟨.classDef c, s⟩ w) :
    w.findings <:+: s.findings c.check := by
  cases h with
  | @member _ _ before after m _ _ base names unique items =>
    have hbackend : s.after (liftM c.checkBackend) = s := s.after_failIf ..
    have hlabel : (s.after (liftM c.checkBase)).after (liftM c.checkLabel) =
        s.after (liftM c.checkBase) := Site.after_failIf ..
    have hunique : c.checkUnique = pure false := by rw [ClassDef.checkUnique, unique]
    refine infix_next rfl ?_
    rw [hbackend]
    refine infix_next base (infix_next rfl (infix_first (infix_within ?_)))
    rw [hlabel, ClassDef.checkBody, hunique]
    refine infix_next names (infix_next rfl (infix_first ?_))
    rw [items]
    exact infix_anyFails (Member.check c) before m after _

theorem infix_member {c : ClassDef} {m : Member} (h : Leads ⟨.member c m, s⟩ w) :
    w.findings <:+: s.findings (m.check c) := by
  cases h with
  | @fieldValue _ _ _ declarators ty before after e kind modifier type items =>
    exact infix_reading.trans (Member.infix_fieldValue kind modifier type items)
  | body kind type parameters present =>
    obtain ⟨_, _, _, declaredType, _, _, kind'⟩ := m
    cases kind' with
    | field declarators => cases kind
    | method r =>
      cases kind
      refine infix_next type (infix_next rfl (infix_first ?_))
      rw [Member.after_checkMethodHeader]
      exact Routine.infix_body parameters present
    | operator r =>
      cases kind
      refine infix_next rfl (infix_next rfl ?_)
      rw [Site.after_failIf, Site.after_failIf]
      refine infix_next type (infix_next rfl (infix_first ?_))
      rw [Site.after_failIf]
      exact Routine.infix_body parameters present

theorem infix_statement {t : Stmt} (h : Leads ⟨.statement t, s⟩ w) :
    w.findings <:+: s.findings t.check := by
  cases h with
  | inBlock items live =>
    rw [items]
    exact infix_within (Stmt.infix_checkAll live _ _ _)
  | returned current type =>
    rw [Visit.findings, Site.findings_meaning, Stmt.check, s.findings_reading, Stmt.checkReturn,
      current]
    exact Check.infix_next type (Check.infix_first (List.infix_refl _))
  | declarator type items =>
    refine infix_next type ?_
    rw [items]
    exact infix_anyFails _ _ _ _ _
  | whileCondition | ifCondition | choiceCondition => exact infix_first infix_reading
  | whileBody | ifThen | choiceThen =>
    exact infix_next rfl (infix_first (infix_within (List.infix_refl _)))
  | doBody => exact infix_first (infix_within (List.infix_refl _))
  | doCondition => exact infix_next rfl (infix_first infix_reading)
  | choiceElse =>
    refine infix_next rfl (infix_next rfl (infix_first ?_))
    exact infix_within (List.infix_refl _)
  | forDeclaration => exact infix_within (infix_first (List.infix_refl _))
  | forInit => exact infix_within (infix_first infix_reading)
  | forCondition => exact infix_within (infix_next rfl (infix_first infix_reading))
  | forStep =>
    refine infix_within (infix_next rfl (infix_next rfl ?_))
    exact infix_first infix_reading
  | forBody =>
    refine infix_within (infix_next rfl (infix_next rfl (infix_next rfl ?_)))
    exact infix_first (List.infix_refl _)
  | expression => exact infix_reading

theorem infix_declarator {ty : Ty} {x : Declarator} (h : Leads ⟨.declarator ty x, s⟩ w) :
    w.findings <:+: s.findings (x.check ty) := by
  cases h with
  | initialValue value =>
    rw [Visit.findings, Declarator.check, value]
    exact infix_first infix_reading

theorem infix_expression {use : Use} {e : Expr} (h : Leads ⟨.expression use e, s⟩ w) :
    w.findings <:+: s.findings e.meaning := by
  rw [s.findings_meaning]
  cases h with
  | receiver | callee | unaryOperand | leftOperand | target =>
    rw [Visit.findings, s.findings_meaning]
    exact Check.infix_first (List.infix_refl _)
  | rightOperand | assigned =>
    rw [Visit.findings, Site.findings_meaning]
    exact Check.infix_next rfl (Check.infix_first (List.infix_refl _))
  | @argument _ callee _ before after e _ _ _ called items =>
    rw [Visit.findings, Site.findings_meaning, items]
    refine Check.infix_next called (Check.infix_first ?_)
    exact Expr.infix_denoteAll before e after s.scopes _
  | @newArgument _ className _ before after e span _ ty type instantiable items =>
    have hsome : (before ++ e :: after).isEmpty = false := by simp
    rw [Visit.findings, Site.findings_meaning, items]
    refine Check.infix_next type (Check.infix_next rfl ?_)
    have hi : (Check.classes (Check.expectType className s.table).table).result.isInstantiable ty =
        true := instantiable
    rw [hi, hsome]
    exact Check.infix_first (Expr.infix_denoteAll before e after s.scopes _)

/-- All that is found wrong with a part of a program is found when the whole is checked. -/
theorem infix_findings {v : Visit} (h : Leads v w) : w.findings <:+: v.findings := by
  obtain ⟨node, s⟩ := v
  cases node with
  | classDef c => exact infix_classDef h
  | member c m => exact infix_member h
  | statement t => exact infix_statement h
  | declarator ty d => exact infix_declarator h
  | expression use e => exact infix_expression h

end Leads

end ClassLang
