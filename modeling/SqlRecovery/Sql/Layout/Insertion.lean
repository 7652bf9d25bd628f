import SqlRecovery.Sql.Layout.Line

/-! Insertions: the columns and the value groups as bracketed lists. -/
namespace SqlRecovery.Sql.Layout
open Text

/-- The words behind each other with one space between them, without empty ones. -/
def spaced (a b : List Char) : List Char := if b.isEmpty then a else a ++ ' ' :: b

/-- The table and its columns. The column list opens at the first parenthesis, if the last
character closes one. -/
def targetLines (head target : List Char) : List Line :=
  if target.contains '(' && target.getLast? == some ')' then
    let table := trim (target.takeWhile (· != '('))
    let columns := ((target.dropWhile (· != '(')).drop 1).dropLast
    bracketed (spaced head table ++ [' ', '(']) columns [')']
  else [spaced head target]

/-- The item begins with an opening and ends with a closing parenthesis. -/
def isGroup (item : List Char) : Bool := item.head? == some '(' && item.getLast? == some ')'

/-- The groups behind the first, each closed by a comma but the last. -/
def groupLines (opener : List Char) : List (List Char) → List Line
  | [] => []
  | [g] => bracketed opener (g.drop 1).dropLast [')']
  | g :: gs => bracketed opener (g.drop 1).dropLast [')', ','] ++
      groupLines (clauseIndent ++ ['(']) gs

/-- The values, opened up if they are groups throughout. -/
def valueLines (keyword region : List Char) : List Line :=
  let groups := items region
  if !groups.isEmpty && groups.all isGroup then groupLines (keyword ++ [' ', '(']) groups
  else lineOf [] (keyword ++ ' ' :: region)

/-- The lines of an insertion, if it has INTO and then VALUES. -/
def insertionLines (t : Scan) : Option (List Line) := do
  let into ← t.find "INTO" 0 t.length
  let targetStart := into + "INTO".length
  let values ← t.find "VALUES" targetStart t.length
  let valuesStop := values + "VALUES".length
  return targetLines (trim (t.slice 0 targetStart)) (trim (t.slice targetStart values)) ++
    valueLines (t.slice values valuesStop) (trim (t.slice valuesStop t.length))

end SqlRecovery.Sql.Layout
