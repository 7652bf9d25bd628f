import SqlRecovery.Parameter.Placeholder
import SqlRecovery.Parameter.Token
import SqlRecovery.Sql.Layout

/-! Recovered statements. -/
namespace SqlRecovery
open Sql

/-- A statement as it was logged, and as it reads with its parameters filled in. -/
structure Statement where
  logged : String
  formatted : String
  kind : Kind
  label : String
  parameters : List Parameter

namespace Statement

/-- A statement under the label of its kind. -/
def labelled (logged formatted : String) (kind : Kind) (parameters : List Parameter) : Statement :=
  ⟨logged, formatted, kind, kind.label, parameters⟩

/-- The statement that a logged text and its parameters text give. The kind is that of the text
with the parameters filled in. -/
def complete (logged parametersText : String) : Statement :=
  let parameters := Parameter.readAll parametersText
  let filled := substitute logged parameters
  let kind := Kind.detect filled
  labelled logged (Layout.format kind filled) kind parameters

end Statement

end SqlRecovery
