namespace ClassLang

/-- Which characters words are made of. -/
class Alphabet where
  isWordChar : Char → Bool

variable [Alphabet]

def listName (element : String) : String := element ++ "_list"

/-- The element's name in the name of a list type: what stands before a final `_list`, if that is a
non-empty row of word characters. The element may be a list itself. -/
def listElement? (name : String) : Option String :=
  let characters := name.toList
  let element := characters.take (characters.length - 5)
  if characters.drop (characters.length - 5) = "_list".toList ∧ element ≠ [] ∧
      element.all Alphabet.isWordChar then
    some (String.ofList element)
  else none

theorem length_lt_of_listElement? {name element : String} (h : listElement? name = some element) :
    element.length < name.length := by
  simp only [listElement?] at h
  split at h
  case isTrue hs =>
    cases h
    have hd := congrArg List.length hs.1
    have h5 : "_list".toList.length = 5 := by decide
    rw [List.length_drop, h5, String.length_toList] at hd
    rw [String.length_ofList, List.length_take, String.length_toList]
    omega
  case isFalse => cases h

end ClassLang
