import SqlRecovery.Sql.Scan

/-! The shapes that lines of a laid out statement come in. -/
namespace SqlRecovery.Sql.Layout
open Text

/-- One line of the result. -/
abbrev Line := List Char

/-- The indent of joins, further conditions and closing parentheses. -/
def clauseIndent : List Char := [' ', ' ']

/-- The indent of columns and values. -/
def listIndent : List Char := [' ', ' ', ' ', ' ']

/-- A segment on a line of its own, unless it is blank. -/
def lineOf (indent segment : List Char) : List Line :=
  if (trim segment).isEmpty then [] else [indent ++ trim segment]

/-- Every item but the last gets a comma. -/
def withCommas : List (List Char) → List (List Char)
  | [] => []
  | [x] => [x]
  | x :: xs => (x ++ [',']) :: withCommas xs

/-- The first item stands behind the head, the others below it. -/
def hanging (head : List Char) (entries : List (List Char)) : List Line :=
  match withCommas entries with
  | [] => [head]
  | x :: xs => (head ++ ' ' :: x) :: xs.map (List.replicate (head.length + 1) ' ' ++ ·)

/-- An opening line, one line for each item of the comma list, and a closing line. -/
def bracketed (opener inner closing : List Char) : List Line :=
  opener :: (withCommas (items inner)).map (listIndent ++ ·) ++ [clauseIndent ++ closing]

/-- The text between consecutive cuts. -/
def segments (t : Scan) : Nat → List Nat → Nat → List (List Char)
  | start, [], stop => [t.slice start stop]
  | start, cut :: cuts, stop => t.slice start cut :: segments t cut cuts stop

/-- The segments on lines of their own, all but the first indented. -/
def broken (t : Scan) (start : Nat) (cuts : List Nat) (stop : Nat) : List Line :=
  match segments t start cuts stop with
  | [] => []
  | x :: xs => lineOf [] x ++ xs.flatMap (lineOf clauseIndent)

end SqlRecovery.Sql.Layout
