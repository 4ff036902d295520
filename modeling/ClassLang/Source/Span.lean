namespace ClassLang

/-- A point in the source text. Line and column count from zero; `position` is the offset in the
whole text. -/
structure Location where
  line : UInt32
  column : UInt32
  position : UInt32
  deriving DecidableEq, Repr, Inhabited

/-- The location as readers see it, with line and column counted from one. -/
def Location.render (l : Location) : String :=
  "(" ++ toString (l.line + 1) ++ ":" ++ toString (l.column + 1) ++ ")"

/-- The stretch of source text from the first to the last token of a construct. -/
structure Span where
  start : Location
  stop : Location
  deriving DecidableEq, Repr

/-- The span of everything that holds no token, such as a class the language itself provides. -/
def Span.nowhere : Span := ⟨⟨0, 0, 0⟩, ⟨0, 0, 0⟩⟩

end ClassLang
