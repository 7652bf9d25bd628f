import SqlRecovery.Sql.Kind
import SqlRecovery.Sql.Layout.Query
import SqlRecovery.Sql.Layout.Insertion
import SqlRecovery.Sql.Layout.Update

/-! The layout of a statement over several lines. A statement whose structure is not found is
written on one line, so a layout always exists. -/
namespace SqlRecovery.Sql.Layout
open Text

/-- The lines for a statement of the kind, if its structure is found. -/
def linesOf (kind : Kind) (t : Scan) : Option (List Line) :=
  match kind with
  | .query => queryLines t
  | .insert => insertionLines t
  | .update => updateLines t
  | .delete => some (deletionLines t)
  | .other => none

/-- A statement that is already on one line, laid out. -/
def layOut (kind : Kind) (flat : List Char) : List Char :=
  match linesOf kind (Scan.ofText flat) with
  | some (line :: lines) => joinWith ['\n'] (line :: lines)
  | _ => flat

/-- The statement, laid out for its kind. -/
def format (kind : Kind) (sql : String) : String :=
  String.ofList (layOut kind (collapse sql.toList))

end SqlRecovery.Sql.Layout
