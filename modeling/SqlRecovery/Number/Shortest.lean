import SqlRecovery.Number.Binary64
import SqlRecovery.Number.Whole

/-! The shortest decimal that rounds to a given double. Decimal grids are tried from coarse to
fine, and on each grid the two neighbours of the exact value. -/
namespace SqlRecovery.Number

/-- The decimal `digits * 10 ^ exponent`. -/
structure Decimal where
  digits : Nat
  exponent : Int
  deriving DecidableEq

/-- A positive value with the decimals that round to it. Everything is counted in quarters of a
unit in the last place, and `unitNum / unitDen` is the value of such a quarter. -/
structure Neighbourhood where
  value : Nat
  below : Nat
  closed : Bool
  unitNum : Nat
  unitDen : Nat

namespace Neighbourhood

/-- The values nearer to a finite positive double than to any other. Below a power of two the
neighbour is only half as far away. -/
def ofBinary64 (x : Binary64) : Neighbourhood :=
  let narrow := x.fraction == 0 && 1 < x.exponentField
  { value := 4 * x.significand
    below := if narrow then 1 else 2
    closed := x.significand % 2 == 0
    unitNum := Nat.pow 2 x.scale
    unitDen := Nat.pow 2 1076 }

/-- The multiple `c` of the grid `gridNum / gridDen` is not too small. -/
def admitsBelow (n : Neighbourhood) (gridNum gridDen c : Nat) : Bool :=
  let left := (n.value - n.below) * n.unitNum * gridDen
  let right := c * gridNum * n.unitDen
  if n.closed then left ≤ right else left < right

/-- The multiple `c` of the grid `gridNum / gridDen` is not too large. -/
def admitsAbove (n : Neighbourhood) (gridNum gridDen c : Nat) : Bool :=
  let left := c * gridNum * n.unitDen
  let right := (n.value + 2) * n.unitNum * gridDen
  if n.closed then left ≤ right else left < right

/-- The grid point that rounds to the value, if there is one; of two the nearer. -/
def pick (n : Neighbourhood) (tie : Tie) (gridNum gridDen : Nat) : Option Nat :=
  let num := n.value * n.unitNum * gridDen
  let den := gridNum * n.unitDen
  let floor := num / den
  match n.admitsBelow gridNum gridDen floor, n.admitsAbove gridNum gridDen (floor + 1) with
  | true, true => some (roundDiv tie num den)
  | true, false => some floor
  | false, true => some (floor + 1)
  | false, false => none

/-- The grid point on the grid of step `10 ^ exponent`. -/
def onGrid (n : Neighbourhood) (tie : Tie) (exponent : Int) : Option Decimal :=
  let point := if 0 ≤ exponent then n.pick tie (Nat.pow 10 exponent.toNat) 1
    else n.pick tie 1 (Nat.pow 10 (-exponent).toNat)
  point.map (⟨·, exponent⟩)

end Neighbourhood

/-- An exponent whose grid is coarser than the number itself. -/
def coarseExponent (x : Binary64) : Int :=
  ((x.significand.log2 + x.scale : Int) - 1074) * 30103 / 100000 + 2

/-- The shortest decimal that rounds to a finite positive double. Seventeen digits always do. -/
def shortest (tie : Tie) (x : Binary64) : Decimal :=
  let n := Neighbourhood.ofBinary64 x
  let start := coarseExponent x
  ((List.range 24).findSome? fun (i : Nat) => n.onGrid tie (start - i)).getD ⟨0, 0⟩

/-- The decimal written without an exponent. -/
def Decimal.positional (d : Decimal) : List Char :=
  let ds := digitsOf d.digits
  if 0 ≤ d.exponent then ds ++ List.replicate d.exponent.toNat '0'
  else
    let places := (-d.exponent).toNat
    if places < ds.length then ds.take (ds.length - places) ++ '.' :: ds.drop (ds.length - places)
    else ['0', '.'] ++ List.replicate (places - ds.length) '0' ++ ds

end SqlRecovery.Number
