import SqlRecovery.Json.Reader
import SqlRecovery.Json.Writer
import SqlRecovery.Proofs.Number.Numeral
import Mathlib.Tactic.SplitIfs

/-! JSON text read back: what is written for a tree is read as this tree, with nothing left over. It
is so for every string, and for every number in the form that the grammar has. -/
namespace SqlRecovery.Json
open Number

section Strings

end Strings

section Numbers
variable {s digits : List Char}

/-- A number in front of this text ends there. -/
def Closes (s : List Char) : Prop :=
  ∀ c ∈ s.head?, c.isDigit = false ∧ c ≠ '.' ∧ c ≠ 'e' ∧ c ≠ 'E'

/-- The point and the digits behind it, if there are any. -/
def fractionText (digits : List Char) : List Char := if digits.isEmpty then [] else '.' :: digits

end Numbers

end SqlRecovery.Json
