import SqlRecovery.Text.Blank
import SqlRecovery.Text.Ascii

/-! The kinds of statements, told apart by their leading keyword, and how each is shown. -/
namespace SqlRecovery.Sql
open Text

/-- What a statement does. -/
inductive Kind where
  | query
  | insert
  | update
  | delete
  | other
  deriving DecidableEq, Repr

/-- The ASCII letters at the start of a statement, behind blanks. -/
def leadingKeyword (sql : String) : String :=
  String.ofList ((trimStart sql.toList).takeWhile Char.isAlpha)

namespace Kind

/-- The kind that a leading keyword announces, in any letter case. -/
def ofKeyword (keyword : List Char) : Kind :=
  if sameLetters keyword "SELECT".toList then query
  else if sameLetters keyword "INSERT".toList then insert
  else if sameLetters keyword "UPDATE".toList then update
  else if sameLetters keyword "DELETE".toList then delete
  else other

/-- The kind of a statement. -/
def detect (sql : String) : Kind := ofKeyword (leadingKeyword sql).toList

/-- The heading under which a statement of this kind is shown. -/
def label : Kind → String
  | query => "🔎 QUERY"
  | insert => "✨ INSERT"
  | update => "✏️ UPDATE"
  | delete => "🗑️ DELETE"
  | other => "📝 SQL"

/-- A colour by its red, green and blue parts. -/
structure Color where
  red : UInt8
  green : UInt8
  blue : UInt8
  deriving DecidableEq

/-- The colour in which a statement of this kind is shown. -/
def color : Kind → Color
  | query => ⟨34, 139, 34⟩
  | insert => ⟨218, 165, 32⟩
  | update => ⟨30, 144, 255⟩
  | delete => ⟨220, 20, 60⟩
  | other => ⟨0, 206, 209⟩

end Kind

end SqlRecovery.Sql
