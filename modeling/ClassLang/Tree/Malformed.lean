import ClassLang.Grammar.Rule

namespace ClassLang

/-- The part that a node was asked to play when it turned out to have the wrong rule for any of
them. -/
inductive Role where
  | member
  | statement
  | expression
  deriving DecidableEq, Repr

def Role.phrase : Role → String
  | .member => "a class member"
  | .statement => "a statement"
  | .expression => "an expression"

/-- Why a tree stands for no program. These are faults of the tree itself; what is wrong with the
program that a sound tree stands for is a `Problem`. -/
inductive Malformed where
  | unexpectedRule (expected found : Rule)
  | missingChild (rule : Rule) (index : Nat)
  | missingToken (rule : Rule)
  | unknownKeyword (rule : Rule) (text : String)
  | invalidNode (found : Rule) (role : Role)
  deriving DecidableEq, Repr

def Malformed.message : Malformed → String
  | .unexpectedRule expected found =>
    "expected a `" ++ expected.name ++ "` node, found `" ++ found.name ++ "`"
  | .missingChild rule index => "`" ++ rule.name ++ "` node is missing child " ++ toString index
  | .missingToken rule => "`" ++ rule.name ++ "` node carries no token"
  | .unknownKeyword rule text => "unknown keyword `" ++ text ++ "` in a `" ++ rule.name ++ "` node"
  | .invalidNode found role => "`" ++ found.name ++ "` node can not be used as " ++ role.phrase

end ClassLang
