import SqlRecovery.Sql.Layout.Clause

/-! Queries: the fields below each other, then the tables, the joins and the clauses. -/
namespace SqlRecovery.Sql.Layout
open Text

/-- The joins. A longer phrase comes before the shorter ones that begin at the same place. -/
def joinPhrases : List String :=
  ["LEFT OUTER JOIN", "RIGHT OUTER JOIN", "FULL OUTER JOIN", "LEFT JOIN", "RIGHT JOIN",
    "INNER JOIN", "FULL JOIN", "CROSS JOIN", "NATURAL JOIN", "JOIN"]

/-- The whole word at the start of the text. -/
def startsWithWord (word : String) (s : List Char) : Bool :=
  match dropLetters? word.toList s with
  | none => false
  | some [] => true
  | some (c :: _) => !isNameChar c

/-- How many characters of the field list its modifier takes. -/
def modifierLength (fields : List Char) : Nat :=
  if startsWithWord "DISTINCT" fields then "DISTINCT".length
  else if startsWithWord "ALL" fields then "ALL".length
  else 0

/-- The head with the modifier taken over from the field list, and the fields that remain. -/
def takeModifier (head fields : List Char) : List Char × List Char :=
  match modifierLength fields with
  | 0 => (head, fields)
  | n => (head ++ ' ' :: fields.take n, trimStart (fields.drop n))

/-- The tables from FROM on, each join on a line of its own. -/
def tableLines (t : Scan) (start stop : Nat) : List Line :=
  let hits := (Cursor.fresh t joinPhrases stop).hits (start + "FROM".length)
  broken t start (hits.map (·.1)) stop

/-- The lines of a query, if it has SELECT and then FROM. -/
def queryLines (t : Scan) : Option (List Line) := do
  let select ← t.find "SELECT" 0 t.length
  let fieldsStart := select + "SELECT".length
  let tables ← t.find "FROM" fieldsStart t.length
  let (head, fields) :=
    takeModifier (t.slice select fieldsStart) (trim (t.slice fieldsStart tables))
  let clauses := clausesFrom t (tables + "FROM".length)
  return lineOf [] (t.slice 0 select) ++ hanging head (items fields) ++
    tableLines t tables clauses ++ clauseLines t clauses

end SqlRecovery.Sql.Layout
