/-! ASCII classes and comparison of ASCII letters without regard to case. Characters outside ASCII
are equal only to themselves. -/
namespace SqlRecovery.Text

/-- Space, tab, line feed, form feed or carriage return. -/
def isAsciiBlank (c : Char) : Bool :=
  c == ' ' || c == '\t' || c == '\n' || c == '\x0c' || c == '\r'

/-- The same character, up to the case of an ASCII letter. -/
def sameLetter (a b : Char) : Bool := a.toLower == b.toLower

/-- The same text, up to the case of ASCII letters. -/
def sameLetters (s t : List Char) : Bool := s.map Char.toLower == t.map Char.toLower

/-- What follows `w` at the start of the text, up to the case of ASCII letters. -/
def dropLetters? : List Char → List Char → Option (List Char)
  | [], s => some s
  | _ :: _, [] => none
  | a :: w, b :: s => if sameLetter a b then dropLetters? w s else none

/-- `part` stands somewhere in the text, letter for letter. -/
def occursIn (part : List Char) : List Char → Bool
  | [] => part.isEmpty
  | c :: s => part.isPrefixOf (c :: s) || occursIn part s

end SqlRecovery.Text
