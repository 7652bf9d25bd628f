import SqlRecovery.LogLine.Noise
import SqlRecovery.Text.Ascii

/-! Lines that continue the statement of an earlier line. The test is a heuristic: it looks at the
first word or mark, and a line with a trait of framework output is never taken. -/
namespace SqlRecovery.LogLine
open Text

/-- The keywords that a continuing line may begin with. -/
def continuationKeywords : List String :=
  ["SELECT", "FROM", "WHERE", "AND", "OR", "ORDER", "GROUP", "HAVING", "LIMIT", "OFFSET", "JOIN",
    "LEFT", "RIGHT", "INNER", "OUTER", "FULL", "CROSS", "INSERT", "UPDATE", "DELETE", "SET",
    "VALUES", "INTO", "CREATE", "ALTER", "DROP", "UNION", "DISTINCT", "AS", "ON", "IN", "NOT",
    "IS", "NULL", "LIKE", "BETWEEN", "CASE", "WHEN", "EXISTS"]

/-- The word in any letter case, then an ASCII blank or an opening parenthesis. -/
def startsWithKeyword (word : String) (s : List Char) : Bool :=
  match dropLetters? word.toList s with
  | some (c :: _) => isAsciiBlank c || c == '('
  | _ => false

/-- The line begins with a keyword. -/
def beginsWithKeyword (s : List Char) : Bool :=
  continuationKeywords.any (startsWithKeyword · s)

/-- The line begins with a comma or a parenthesis. -/
def beginsWithMark (s : List Char) : Bool :=
  match s with
  | c :: _ => c == ',' || c == '(' || c == ')'
  | [] => false

/-- A character of a plain or qualified name. -/
def isQualifiedChar (c : Char) : Bool := c.isAlphanum || c == '_' || c == '.'

/-- The line begins with a name, and a comma, an ASCII blank or the end follows it. -/
def beginsWithName (s : List Char) : Bool :=
  match s with
  | c :: _ => (c.isAlpha || c == '_') && match s.dropWhile isQualifiedChar with
    | [] => true
    | d :: _ => d == ',' || isAsciiBlank d
  | [] => false

/-- The line continues a statement. -/
def isContinuation (s : List Char) : Bool :=
  !s.isEmpty && !isNoise s && (beginsWithKeyword s || beginsWithMark s || beginsWithName s)

end SqlRecovery.LogLine
