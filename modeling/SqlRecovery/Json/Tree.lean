import SqlRecovery.Number.Whole

/-! JSON trees. Numbers keep their digits, objects keep the order of their members and members of
the same name. -/
namespace SqlRecovery.Json

/-- A number as it is written. The exponent is its sign, set for a negative one, and its digits. -/
structure Numeral where
  negative : Bool
  whole : List Char
  fraction : List Char
  exponent : Option (Bool × List Char)
  deriving DecidableEq

/-- A JSON value. A string whose escapes name half a surrogate pair has no text. -/
inductive Tree where
  | null
  | bool (b : Bool)
  | number (n : Numeral)
  | string (text : Option String)
  | array (items : List Tree)
  | object (members : List (Option String × Tree))

namespace Tree

/-- A string with a text. -/
def text (s : String) : Tree := .string (some s)

/-- A whole number. -/
def int (n : Int) : Tree := .number ⟨n < 0, Number.digitsOf n.natAbs, [], none⟩

/-- An object with named members. -/
def record (members : List (String × Tree)) : Tree := .object (members.map fun m => (some m.1, m.2))

/-- The text of a string. -/
def text? : Tree → Option String
  | .string s => s
  | _ => none

end Tree

end SqlRecovery.Json
