import SqlRecovery.Parameter.Value
import SqlRecovery.Text.Ascii
import SqlRecovery.Text.Blank

/-! Parameters as a log line shows them: tokens `value(type)` with commas between them. A token that
its type cannot be read from is kept as raw text, so reading never fails. -/
namespace SqlRecovery
open Text Number

/-- How the value of a token is read. -/
inductive Reading where
  | text
  | int32
  | int64
  | double
  | boolean
  | raw
  deriving DecidableEq, Repr

namespace Reading

/-- The names that choose a reading, in the order in which they are tried. -/
def names : List (String × Reading) :=
  [("string", text), ("varchar", text), ("integer", int32), ("int", int32), ("long", int64),
    ("bigint", int64), ("double", double), ("float", double), ("boolean", boolean), ("bit", boolean)]

/-- The reading whose name occurs in the type, in any letter case. -/
def ofType (type : List Char) : Reading :=
  let lower := type.map Char.toLower
  ((names.find? fun x => occursIn x.1.toList lower).map (·.2)).getD raw

end Reading

/-- A truth value by name or as a digit. -/
def readBool? (s : List Char) : Option Bool :=
  if sameLetters s "true".toList || s == ['1'] then some true
  else if sameLetters s "false".toList || s == ['0'] then some false
  else none

namespace Value

/-- The value of a text under a reading, if it is in the form that the reading asks for. -/
def read? (s : List Char) : Reading → Option Value
  | .text => some (.text (String.ofList s))
  | .int32 => (readInt32? s).map .integer
  | .int64 => (readInt64? s).map .long
  | .double => (readDouble? s).map .double
  | .boolean => (readBool? s).map .boolean
  | .raw => none

/-- The value of a text of a declared type. -/
def ofTyped (s type : List Char) : Value :=
  (read? s (Reading.ofType type)).getD (.raw (String.ofList s))

/-- Value and type of a token: the type stands between the first opening and the first closing
parenthesis. -/
def splitToken? (token : List Char) : Option (List Char × List Char) :=
  let opened := token.findIdx (· == '(')
  let closed := token.findIdx (· == ')')
  if 0 < opened ∧ opened < closed ∧ closed < token.length then
    some (trim (token.take opened), trim ((token.take closed).drop (opened + 1)))
  else none

/-- The value of a token. A null is one whatever its type. -/
def ofToken (token : List Char) : Value :=
  let (s, type) := (splitToken? token).getD (token, [])
  if sameLetters s "null".toList then .null else ofTyped s type

end Value

namespace Parameter

/-- The pieces between the commas outside parentheses. Quotes do not count here. -/
def pieces : Nat → List Char → List (List Char)
  | _, [] => [[]]
  | depth, c :: s =>
    if c == ',' && depth == 0 then [] :: pieces depth s
    else
      let inner := if c == '(' then depth + 1 else if c == ')' then depth - 1 else depth
      (pieces inner s).modifyHead (c :: ·)

/-- The parameter of one piece. -/
def ofPiece (piece : List Char) : Parameter := ⟨Value.ofToken (trim piece), String.ofList (trim piece)⟩

/-- The parameters of a one-line text. -/
def ofLine (line : List Char) : List Parameter :=
  if line.isEmpty then [] else (pieces 0 line).map ofPiece

/-- The parameters that a text lists. -/
def readAll (text : String) : List Parameter := ofLine (collapse text.toList)

end Parameter

end SqlRecovery
