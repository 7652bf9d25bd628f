import SqlRecovery.Parameter.Value

/-! Placeholders of a statement, filled from left to right in one pass. -/
namespace SqlRecovery

/-- Each question mark is replaced by the next literal while there is one. Nothing is looked for in
the literals. -/
def fill : List Char → List (List Char) → List Char
  | s, [] => s
  | [], _ :: _ => []
  | c :: s, p :: literals => if c == '?' then p ++ fill s literals else c :: fill s (p :: literals)

/-- Without literals nothing changes. -/
@[simp] theorem fill_nil (s : List Char) : fill s [] = s := by
  cases s <;> rfl

/-- The statement with the literals of the parameters in place of its question marks. -/
def substitute (sql : String) (parameters : List Parameter) : String :=
  String.ofList (fill sql.toList (parameters.map Parameter.literal))

end SqlRecovery
