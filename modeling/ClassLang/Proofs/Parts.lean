import ClassLang.Check.Class
import ClassLang.Proofs.Scripts

namespace ClassLang

open Scoped (Scripted)

inductive Part where
  | classDef (c : ClassDef)
  | member (c : ClassDef) (m : Member)
  | block (b : Block)
  | statement (s : Stmt)
  | initializer (declared : Ty) (e : Expr)
  | expression (e : Expr)

variable [Alphabet]

namespace Part

/-- An expression is asked for what it denotes, all else for whether it fails. -/
def Answer : Part → Type
  | .expression _ => Option Meaning
  | _ => Bool

def check : (part : Part) → Scoped part.Answer
  | .classDef c => c.check
  | .member c m => m.check c
  | .block b => b.check
  | .statement s => s.check
  | .initializer declared e => Scoped.reading fun scopes => e.checkInitializer scopes declared
  | .expression e => Scoped.reading fun scopes => e.denote scopes

end Part

def Declarator.scripted (ty : Ty) : (d : Declarator) → Scripted (d.check ty)
  | ⟨name, some value, _⟩ =>
    .both (.reading fun scopes => value.checkInitializer scopes ty) (.declare _ name.span)
  | ⟨name, none, _⟩ => .both (.pure false) (.declare _ name.span)

def Declaration.scripted (d : Declaration) : Scripted d.check :=
  .bind (.lift _) fun
    | some ty => .anyFails (Declarator.scripted ty) d.declarators
    | none => .pure true

def ForInit.scripted : (init : ForInit) → Scripted init.check
  | .declaration d => d.scripted
  | .expression e => .reading e.checkDenotes

namespace Stmt

def scriptedClauses (init : Option ForInit) (condition step : Option Expr) {body : Scoped Bool}
    (inner : Scripted body) : Scripted (do
      let initFailed ← checkOptional ForInit.check init
      let conditionFailed ← checkOptional (fun e => Scoped.reading e.checkCondition) condition
      let stepFailed ← checkOptional (fun e => Scoped.reading e.checkDenotes) step
      let bodyFailed ← body
      return initFailed || conditionFailed || stepFailed || bodyFailed) :=
  .bind (.checkOptional ForInit.scripted init) fun _ =>
    .bind (.checkOptional (fun e => .reading e.checkCondition) condition) fun _ =>
      .bind (.checkOptional (fun e => .reading e.checkDenotes) step) fun _ =>
        .bind inner fun _ => .pure _

mutual

def scripted : (s : Stmt) → Scripted s.check
  | .block statements _ => .within (scriptedAll statements)
  | .continueLoop span => .reading (checkInLoop "continue" span)
  | .breakLoop span => .reading (checkInLoop "break" span)
  | .ret value span => .reading (checkReturn value span)
  | .declaration d => d.scripted
  | .whileLoop condition body _ => .both (.reading condition.checkCondition) (.within body.scripted)
  | .doLoop body condition _ => .both (.within body.scripted) (.reading condition.checkCondition)
  | .ifThen condition thenBranch _ =>
    .both (.reading condition.checkCondition) (.within thenBranch.scripted)
  | .ifElse condition thenBranch elseBranch _ =>
    .bind (.reading condition.checkCondition) fun _ =>
      .bind (.within thenBranch.scripted) fun _ =>
        .bind (.within elseBranch.scripted) fun _ => .pure _
  | .forLoop init condition step body _ =>
    .within (scriptedClauses init condition step body.scripted)
  | .expression e _ => .reading e.checkDenotes
termination_by structural s => s

def scriptedAll : (statements : List Stmt) → Scripted (checkAll statements)
  | [] => .pure false
  | s :: rest =>
    .bind s.scripted fun failed =>
      match s.alwaysReturns with
      | true =>
        match rest with
        | [] => .pure failed
        | next :: _ => .lift (Check.fail .unreachableCode next.span)
      | false => .bind (scriptedAll rest) fun _ => .pure _

end

end Stmt

def Parameter.scripted (p : Parameter) : Scripted p.check :=
  .bind (.lift (Check.expectValueType p.typeName)) fun
    | some _ => .declare _ p.name.span
    | none => .pure true

def Block.scriptedReturning (m : Member) (returnType : Ty) (b : Block) :
    Scripted (b.checkReturning m returnType) :=
  .both b.toStmt.scripted (.lift _)

def Routine.scriptedInside (m : Member) (returnType : Ty) (r : Routine) : Scripted (do
    if ← failsAt Parameter.check r.parameters then return true
    else checkOptional (Block.checkReturning m returnType) r.body) :=
  .bind (.failsAt Parameter.scripted r.parameters) fun
    | true => .pure true
    | false => .checkOptional (Block.scriptedReturning m returnType) r.body

namespace Member

def scriptedMethod (c : ClassDef) (m : Member) (r : Routine) : Scripted (m.checkMethod c r) :=
  .bind (.lift (Check.expectType m.declaredType)) fun
    | some returnType =>
      .both (.lift (m.checkMethodHeader c r)) (.within (r.scriptedInside m returnType))
    | none => .pure true

def scriptedOperator (c : ClassDef) (m : Member) (r : Routine) : Scripted (m.checkOperator c r) :=
  .bind (.lift _) fun _ =>
    .bind (.lift _) fun _ =>
      .bind (.lift (Check.expectType m.declaredType)) fun
        | some returnType =>
          .bind (.lift _) fun _ => .bind (.within (r.scriptedInside m returnType)) fun _ => .pure _
        | none => .pure true

def scripted (c : ClassDef) : (m : Member) → Scripted (m.check c)
  | ⟨_, _, _, _, _, _, .field _⟩ => .reading _
  | ⟨_, _, _, _, _, _, .method r⟩ => scriptedMethod c _ r
  | ⟨_, _, _, _, _, _, .operator r⟩ => scriptedOperator c _ r

end Member

namespace ClassDef

def scriptedInherited (field : Member × List Declarator) : Scripted (declareInherited field) :=
  .bind (.lift (Check.resolve field.1.declaredType.text)) fun
    | some _ => .anyFails (fun d => .declare _ d.name.span) field.2
    | none => .pure false

def scriptedOwn (field : Member × List Declarator) : Scripted (declareOwn field) :=
  .bind (.lift (Check.expectValueType field.1.declaredType)) fun
    | some _ => .failsAt (fun d => .declare _ d.name.span) field.2
    | none => .pure true

def scriptedNames (c : ClassDef) : Scripted c.declareNames :=
  .bind
    (.bind (.lift Check.classes) fun table =>
      .anyFails (fun ancestor => .anyFails scriptedInherited ancestor.fields)
        (table.ancestors c).reverse)
    fun _ =>
      .bind (.declare _ c.ident.span) fun
        | true => .pure none
        | false =>
          .bind (.failsAt scriptedOwn c.fields) fun
            | true => .pure none
            | false => .pure _

def scriptedBody (c : ClassDef) : Scripted c.checkBody :=
  .bind c.scriptedNames fun
    | some _ =>
      .bind (.lift c.checkUnique) fun
        | true => .pure true
        | false =>
          .bind (.anyFails (Member.scripted c) c.members) fun _ =>
            .bind (.lift c.checkContract) fun _ => .pure _
    | none => .pure true

def scripted (c : ClassDef) : Scripted c.check :=
  .bind (.lift c.checkBackend) fun _ =>
    .bind (.lift c.checkBase) fun
      | some _ =>
        .bind (.lift c.checkLabel) fun _ => .bind (.within c.scriptedBody) fun _ => .pure _
      | none => .pure true

end ClassDef

def Part.scripted : (part : Part) → Scripted part.check
  | .classDef c => c.scripted
  | .member c m => m.scripted c
  | .block b => b.toStmt.scripted
  | .statement s => s.scripted
  | .initializer declared e => .reading fun scopes => e.checkInitializer scopes declared
  | .expression e => .reading fun scopes => e.denote scopes

end ClassLang
