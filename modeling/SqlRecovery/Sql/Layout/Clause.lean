import SqlRecovery.Sql.Layout.Line
import SqlRecovery.Sql.Cursor

/-! The clauses that queries, updates and deletions share. -/
namespace SqlRecovery.Sql.Layout

/-- The clauses in the order in which a statement has them. -/
def clausePhrases : List String := ["WHERE", "GROUP BY", "HAVING", "ORDER BY", "LIMIT"]

/-- The words that matter inside a WHERE clause. -/
def conditionPhrases : List String := ["AND", "OR", "BETWEEN"]

/-- The places where a new condition begins. The first AND behind a BETWEEN belongs to it. -/
def conditionBreaks : Bool → List (Nat × String) → List Nat
  | _, [] => []
  | between, (i, p) :: hits =>
    if p == "BETWEEN" then conditionBreaks true hits
    else if p == "AND" && between then conditionBreaks false hits
    else i :: conditionBreaks between hits

/-- A WHERE clause, one line for each condition. -/
def whereLines (t : Scan) (start stop : Nat) : List Line :=
  let hits := (Cursor.fresh t conditionPhrases stop).hits (start + "WHERE".length)
  broken t start (conditionBreaks false hits) stop

/-- The clauses found from a position on, each searched for behind the one before. -/
def clauseStarts (t : Scan) : Nat → List String → List (Nat × String)
  | _, [] => []
  | start, p :: phrases => match t.find p start t.length with
    | some i => (i, p) :: clauseStarts t (i + p.length) phrases
    | none => clauseStarts t start phrases

/-- Each clause on lines of its own. -/
def clauseBodies (t : Scan) : List (Nat × String) → List Line
  | [] => []
  | (i, p) :: rest =>
    let stop := (rest.head?.map (·.1)).getD t.length
    (if p == "WHERE" then whereLines t i stop else lineOf [] (t.slice i stop)) ++
      clauseBodies t rest

/-- The statement from a position on: what stands before the first clause, then the clauses. -/
def clauseLines (t : Scan) (start : Nat) : List Line :=
  let starts := clauseStarts t start clausePhrases
  let stop := (starts.head?.map (·.1)).getD t.length
  lineOf [] (t.slice start stop) ++ clauseBodies t starts

/-- Where the first of the clauses begins, in whatever order they come. -/
def clausesFrom (t : Scan) (start : Nat) : Nat :=
  ((t.first clausePhrases start t.length).map (·.1)).getD t.length

end SqlRecovery.Sql.Layout
