import SqlRecovery.Sql.Scan

/-! A search for several phrases that moves forward and remembers the next place of each, so that
a statement with many hits is not searched again from every hit. -/
namespace SqlRecovery.Sql

/-- What is known of the next place of a phrase. -/
inductive Sighting where
  | unknown
  | ahead (position : Nat)
  | gone
  deriving DecidableEq

/-- A forward search for phrases that end up to `stop`. -/
structure Cursor where
  scan : Scan
  stop : Nat
  seen : List (String × Sighting)

namespace Cursor

/-- A search that has not looked yet. -/
def fresh (scan : Scan) (phrases : List String) (stop : Nat) : Cursor :=
  ⟨scan, stop, phrases.map (·, .unknown)⟩

/-- Look for the phrase again. -/
def search (c : Cursor) (start : Nat) (phrase : String) : Sighting :=
  match c.scan.find phrase start c.stop with
  | some i => .ahead i
  | none => .gone

/-- The next place of a phrase at or behind `start`. What lies ahead, or is known to be gone,
needs no new search. -/
def look (c : Cursor) (start : Nat) (phrase : String) : Sighting → Sighting
  | .unknown => c.search start phrase
  | .ahead i => if start ≤ i then .ahead i else c.search start phrase
  | .gone => .gone

/-- The cursor after a look from `start`. -/
def advance (c : Cursor) (start : Nat) : Cursor :=
  { c with seen := c.seen.map fun x => (x.1, c.look start x.1 x.2) }

/-- The places ahead. -/
def places (c : Cursor) : List (Nat × String) :=
  c.seen.filterMap fun
    | (p, .ahead i) => some (i, p)
    | _ => none

/-- The first place of any phrase at or behind `start`, and the cursor that remembers the look. -/
def next (c : Cursor) (start : Nat) : Option (Nat × String) × Cursor :=
  (Scan.leftmost (c.advance start).places, c.advance start)

/-- All places from `start` on, each searched for behind the one before. -/
def hits (c : Cursor) (start : Nat) : List (Nat × String) :=
  match (c.next start).1 with
  | none => []
  | some (i, p) =>
    if start < i + p.length ∧ start < c.stop then
      (i, p) :: hits (c.next start).2 (i + p.length)
    else []
termination_by c.stop - start
decreasing_by
  rename_i h
  simp only [next, advance]
  omega

end Cursor

end SqlRecovery.Sql
