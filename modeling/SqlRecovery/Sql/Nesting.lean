import SqlRecovery.Text.Blank

/-! Which characters of a statement stand outside parentheses and quoted literals, and the items of
a list written with commas at that level. -/
namespace SqlRecovery.Sql
open Text

/-- The quote that opens and closes a literal. -/
def quoteMark : Char := '\x27'

/-- How many parentheses are open, and whether a quoted literal is. -/
structure Nesting where
  depth : Nat
  quoted : Bool
  deriving DecidableEq

namespace Nesting

/-- Nothing is open. -/
def outside : Nesting := ⟨0, false⟩

/-- Neither a parenthesis nor a literal is open. -/
def isTop (n : Nesting) : Bool := !n.quoted && n.depth == 0

/-- Inside a literal only the closing quote counts. A closing parenthesis without an open one
changes nothing. -/
def step (n : Nesting) (c : Char) : Nesting :=
  if n.quoted then ⟨n.depth, c != quoteMark⟩
  else if c == quoteMark then ⟨n.depth, true⟩
  else if c == '(' then ⟨n.depth + 1, false⟩
  else if c == ')' then ⟨n.depth - 1, false⟩
  else n

/-- The nesting behind a text. -/
def after (n : Nesting) (s : List Char) : Nesting := s.foldl step n

/-- For every character, whether it stands at the top level. An opening mark still does, a closing
one does not. -/
def flags : Nesting → List Char → List Bool
  | _, [] => []
  | n, c :: s => n.isTop :: flags (n.step c) s

theorem after_append (n : Nesting) (s t : List Char) : n.after (s ++ t) = (n.after s).after t :=
  List.foldl_append

@[simp] theorem length_flags (n : Nesting) (s : List Char) : (n.flags s).length = s.length := by
  induction s generalizing n with
  | nil => rfl
  | cons c s ih => simp [flags, ih]

/-- The flags behind a text depend on nothing but the nesting behind it. -/
theorem flags_append (n : Nesting) (s t : List Char) :
    n.flags (s ++ t) = n.flags s ++ (n.after s).flags t := by
  induction s generalizing n with
  | nil => rfl
  | cons c s ih => simp [flags, after, ih]

/-- The pieces between the commas at the top level. -/
def pieces : Nesting → List Char → List (List Char)
  | _, [] => [[]]
  | n, c :: s =>
    if c == ',' && n.isTop then [] :: pieces (n.step c) s
    else (pieces (n.step c) s).modifyHead (c :: ·)

end Nesting

/-- The trimmed items of a comma list. A blank text has none. -/
def items (s : List Char) : List (List Char) :=
  if allBlank s then [] else (Nesting.pieces .outside s).map trim

end SqlRecovery.Sql
