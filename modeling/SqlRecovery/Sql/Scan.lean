import SqlRecovery.Sql.Nesting
import SqlRecovery.Text.Ascii

/-! A statement on one line, marked for the search of keyword phrases. A phrase counts where it
stands as whole words, in any letter case, outside parentheses and literals, and not behind a dot. -/
namespace SqlRecovery.Sql
open Text

/-- A character that a name may be made of. Every character outside ASCII may. -/
def isNameChar (c : Char) : Bool := c.isAlphanum || c == '_' || 0x80 ≤ c.toNat

/-- One character of a statement: whether it stands at the top level, and whether it directly
follows a name or a dot. -/
structure Spot where
  char : Char
  top : Bool
  glued : Bool
  deriving DecidableEq

/-- A statement as the list of its spots. -/
abbrev Scan := List Spot

namespace Scan

/-- The spots of a text that goes on from the given nesting. -/
def spots : Nesting → Bool → List Char → Scan
  | _, _, [] => []
  | n, glued, c :: s => ⟨c, n.isTop, glued⟩ :: spots (n.step c) (isNameChar c || c == '.') s

/-- The spots of a text are its characters with marks. -/
@[simp] theorem map_char_spots (n : Nesting) (glued : Bool) (s : List Char) :
    (spots n glued s).map (·.char) = s := by
  induction s generalizing n glued with
  | nil => rfl
  | cons c s ih => simp [spots, ih]

/-- The spots stand at the top level where the nesting says so. -/
theorem map_top_spots (n : Nesting) (glued : Bool) (s : List Char) :
    (spots n glued s).map (·.top) = n.flags s := by
  induction s generalizing n glued with
  | nil => rfl
  | cons c s ih => simp [spots, Nesting.flags, ih]

/-- The spots of a whole statement. -/
def ofText (s : List Char) : Scan := spots .outside false s

/-- The characters from position `start` up to, but without, position `stop`. -/
def slice (t : Scan) (start stop : Nat) : List Char :=
  ((t.drop start).take (stop - start)).map (·.char)

/-- The letters of the phrase, then the end or a character that no name may go on with. -/
def spells : List Char → Scan → Bool
  | [], [] => true
  | [], x :: _ => !isNameChar x.char
  | _ :: _, [] => false
  | k :: phrase, x :: t => sameLetter k x.char && spells phrase t

/-- The phrase begins at the first spot. -/
def beginsWith (phrase : List Char) : Scan → Bool
  | [] => false
  | x :: t => x.top && !x.glued && !phrase.isEmpty && spells phrase (x :: t)

/-- The first position at which the phrase begins and up to `stop` ends; `t` starts at position
`start`. -/
def findFrom (phrase : List Char) (stop : Nat) : Nat → Scan → Option Nat
  | _, [] => none
  | start, x :: t =>
    if stop < start + phrase.length then none
    else if beginsWith phrase (x :: t) then some start
    else findFrom phrase stop (start + 1) t

/-- The first place of the phrase between two positions. -/
def find (t : Scan) (phrase : String) (start stop : Nat) : Option Nat :=
  findFrom phrase.toList (min stop t.length) start (t.drop start)

/-- The leftmost of several hits; of two at one position the one listed first. -/
def leftmost : List (Nat × String) → Option (Nat × String)
  | [] => none
  | x :: xs => match leftmost xs with
    | some y => if y.1 < x.1 then some y else some x
    | none => some x

/-- The first place of any of the phrases between two positions. -/
def first (t : Scan) (phrases : List String) (start stop : Nat) : Option (Nat × String) :=
  leftmost (phrases.filterMap fun p => (t.find p start stop).map (·, p))

end Scan

end SqlRecovery.Sql
