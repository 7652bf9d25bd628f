import SqlRecovery.Json.Tree

/-! Compact JSON text. Strings escape quotes, backslashes and control characters, nothing else. -/
namespace SqlRecovery.Json

/-- A hexadecimal digit in lower case. -/
def hexDigit (n : Nat) : Char := (Nat.digitChar (n % 16))

/-- The written form of one character of a string. -/
def escape (c : Char) : List Char :=
  if c == '"' then ['\\', '"']
  else if c == '\\' then ['\\', '\\']
  else if c == '\x08' then ['\\', 'b']
  else if c == '\x0c' then ['\\', 'f']
  else if c == '\n' then ['\\', 'n']
  else if c == '\r' then ['\\', 'r']
  else if c == '\t' then ['\\', 't']
  else if c.toNat < 0x20 then ['\\', 'u', '0', '0', hexDigit (c.toNat / 16), hexDigit c.toNat]
  else [c]

/-- A string between quotes. -/
def writeText (s : List Char) : List Char := '"' :: s.flatMap escape ++ ['"']

/-- The replacement character stands where a string has no text. -/
def writeString (s : Option String) : List Char := writeText (s.getD "\uFFFD").toList

/-- A number. The exponent always shows its sign. -/
def Numeral.write (n : Numeral) : List Char :=
  (if n.negative then ['-'] else []) ++ n.whole ++
    (if n.fraction.isEmpty then [] else '.' :: n.fraction) ++
    match n.exponent with
    | none => []
    | some (negative, digits) => 'e' :: (if negative then '-' else '+') :: digits

namespace Tree

mutual

/-- The text of a tree. -/
def write : Tree → List Char
  | .null => "null".toList
  | .bool b => if b then "true".toList else "false".toList
  | .number n => n.write
  | .string s => writeString s
  | .array items => '[' :: writeItems items ++ [']']
  | .object members => '\x7b' :: writeMembers members ++ ['\x7d']

/-- Items with commas between them. -/
def writeItems : List Tree → List Char
  | [] => []
  | [t] => t.write
  | t :: u :: items => t.write ++ ',' :: writeItems (u :: items)

/-- Members with commas between them. -/
def writeMembers : List (Option String × Tree) → List Char
  | [] => []
  | [(key, t)] => writeString key ++ ':' :: t.write
  | (key, t) :: m :: members => writeString key ++ ':' :: t.write ++ ',' :: writeMembers (m :: members)

end

/-- The text of a tree as a string. -/
def compact (t : Tree) : String := String.ofList t.write

end Tree

end SqlRecovery.Json
