import ClassLang.Source.Span
import ClassLang.Tree.Malformed

namespace ClassLang

structure Token where
  text : String
  location : Location
  deriving DecidableEq, Repr

/-- A parse tree. Terminals are nodes with a token and no children, but nothing forbids a node to
have both or neither. -/
structure Tree where
  rule : Rule
  token : Option Token
  children : List Tree

namespace Tree

def node (rule : Rule) (children : List Tree) : Tree := ⟨rule, none, children⟩

def leaf (rule : Rule) (text : String) (location : Location) : Tree :=
  ⟨rule, some ⟨text, location⟩, []⟩

def expect (t : Tree) (rule : Rule) : Except Malformed Tree :=
  if t.rule = rule then .ok t else .error (.unexpectedRule rule t.rule)

def require {α : Type} (t : Tree) (index : Nat) :
    Option (Except Malformed α) → Except Malformed α
  | some found => found
  | none => .error (.missingChild t.rule index)

def child (t : Tree) (index : Nat) : Except Malformed Tree :=
  t.require index (t.children[index]?.map .ok)

def optional (t : Tree) : Option Tree := t.children.head?

def getToken (t : Tree) : Except Malformed Token :=
  match t.token with
  | some token => .ok token
  | none => .error (.missingToken t.rule)

def text (t : Tree) : Except Malformed String := do
  return (← t.getToken).text

def part (t : Tree) (index : Nat) (rule : Rule) : Except Malformed Tree := do
  (← t.child index).expect rule

def optionalPart {α : Type} (t : Tree) (index : Nat) (rule : Rule)
    (read : Tree → Except Malformed α) : Except Malformed (Option α) := do
  match (← t.part index rule).optional with
  | some content => return some (← read content)
  | none => return none

def keywordPart (t : Tree) (index : Nat) (rule : Rule) : Except Malformed (Option String) :=
  t.optionalPart index rule text

def markerPart (t : Tree) (index : Nat) (rule : Rule) : Except Malformed Bool := do
  return (← t.part index rule).optional.isSome

mutual

/-- Where the first token of a tree stands. A token of the node's own comes before any below it. -/
def first? : Tree → Option Location
  | ⟨_, some token, _⟩ => some token.location
  | ⟨_, none, children⟩ => firstOf? children

def firstOf? : List Tree → Option Location
  | [] => none
  | t :: ts => t.first?.or (firstOf? ts)

end

mutual

/-- Where the last token of a tree stands. A token of the node's own hides those below it. -/
def last? : Tree → Option Location
  | ⟨_, some token, _⟩ => some token.location
  | ⟨_, none, children⟩ => lastOf? children

def lastOf? : List Tree → Option Location
  | [] => none
  | t :: ts => (lastOf? ts).or t.last?

end

/-- The stretch from the first to the last token. A tree without tokens is nowhere. -/
def span (t : Tree) : Span :=
  match t.first?, t.last? with
  | some start, some stop => ⟨start, stop⟩
  | _, _ => .nowhere

end Tree

end ClassLang
