import SqlRecovery.Calendar.Moment
import SqlRecovery.Statement

/-! The text block in which a statement is shown. -/
namespace SqlRecovery.Viewer

/-- The width of the rules of a block. -/
def blockWidth : Nat := 59

/-- A line made of one character. -/
def rule (c : Char) : List Char := List.replicate blockWidth c

/-- A heading with the time between two rules, then the statement and a closing rule, then an empty
line. -/
def block (statement : Statement) (time : Calendar.Moment) : String :=
  String.ofList (rule '═' ++ '\n' :: statement.label.toList ++ " [".toList ++ time.stampText ++
    "]\n".toList ++ rule '─' ++ '\n' :: statement.formatted.toList ++ '\n' :: rule '═' ++
    "\n\n".toList)

end SqlRecovery.Viewer
