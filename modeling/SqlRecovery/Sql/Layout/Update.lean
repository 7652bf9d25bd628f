import SqlRecovery.Sql.Layout.Clause

/-! Updates and deletions: the assignments below each other, then the clauses. -/
namespace SqlRecovery.Sql.Layout

/-- The lines of an update, if it has SET. -/
def updateLines (t : Scan) : Option (List Line) := do
  let set ← t.find "SET" 0 t.length
  let assignments := set + "SET".length
  let clauses := clausesFrom t assignments
  return lineOf [] (t.slice 0 set) ++
    hanging (t.slice set assignments) (items (t.slice assignments clauses)) ++
    clauseLines t clauses

/-- The lines of a deletion. -/
def deletionLines (t : Scan) : List Line := clauseLines t 0

end SqlRecovery.Sql.Layout
