/-! Double precision numbers as 64-bit words, with exact rational values. All rounding is done on
natural numbers. -/
namespace SqlRecovery.Number

/-- What becomes of a number exactly between two neighbours. -/
inductive Tie where
  | toEven
  | up
  deriving DecidableEq

/-- The whole number nearest to a quotient. -/
def roundDiv (tie : Tie) (num den : Nat) : Nat :=
  let q := num / den
  let r := num % den
  if 2 * r < den then q
  else if den < 2 * r then q + 1
  else match tie with
    | .toEven => q + q % 2
    | .up => q + 1

/-- A double precision number in the IEEE interchange format: a sign, eleven bits of exponent and
fifty-two bits of fraction. -/
structure Binary64 where
  bits : UInt64
  deriving DecidableEq

namespace Binary64

/-- The sign bit is set. -/
def isNegative (x : Binary64) : Bool := Nat.pow 2 63 ≤ x.bits.toNat

/-- The exponent field. -/
def exponentField (x : Binary64) : Nat := x.bits.toNat / Nat.pow 2 52 % Nat.pow 2 11

/-- The fraction field. -/
def fraction (x : Binary64) : Nat := x.bits.toNat % Nat.pow 2 52

/-- Neither an infinity nor a NaN. -/
def isFinite (x : Binary64) : Bool := x.exponentField != 2047

/-- Not a number. -/
def isNaN (x : Binary64) : Bool := !x.isFinite && x.fraction != 0

/-- A zero of either sign. -/
def isZero (x : Binary64) : Bool := x.bits.toNat % Nat.pow 2 63 == 0

/-- The magnitude of a finite number is its significand times a power of two. -/
def significand (x : Binary64) : Nat :=
  if x.exponentField = 0 then x.fraction else Nat.pow 2 52 + x.fraction

/-- The binary exponent, counted in steps of the smallest positive number `2 ^ (-1074)`. -/
def scale (x : Binary64) : Nat := x.exponentField - 1

/-- The number with this sign and these lower bits. -/
def ofMagnitude (negative : Bool) (magnitude : Nat) : Binary64 :=
  ⟨UInt64.ofNat (if negative then Nat.pow 2 63 + magnitude else magnitude)⟩

/-- The infinity of this sign. -/
def infinity (negative : Bool) : Binary64 := ofMagnitude negative (2047 * Nat.pow 2 52)

/-- The zero of this sign. -/
def zero (negative : Bool) : Binary64 := ofMagnitude negative 0

/-- The canonical NaN. -/
def nan : Binary64 := ⟨0x7FF8000000000000⟩

/-- The number nearest to a quotient, ties to the even significand. What rounds beyond the largest
finite number becomes infinite. -/
def nearest (negative : Bool) (num den : Nat) : Binary64 :=
  let units := num * Nat.pow 2 1074
  let scale := (units / den).log2 - 52
  let magnitude := scale * Nat.pow 2 52 + roundDiv .toEven units (den * Nat.pow 2 scale)
  if magnitude < 2047 * Nat.pow 2 52 then ofMagnitude negative magnitude else infinity negative

/-- The magnitude of a finite number as numerator over `2 ^ 1074`. -/
def units (x : Binary64) : Nat := x.significand * Nat.pow 2 x.scale

/-- Equality of numbers: no NaN equals anything, and the two zeros are equal. -/
def sameNumber (x y : Binary64) : Bool :=
  !x.isNaN && !y.isNaN && (x.bits == y.bits || (x.isZero && y.isZero))

/-- The number is whole. -/
def isWhole (x : Binary64) : Bool := x.isFinite && x.units % Nat.pow 2 1074 == 0

/-- The magnitude lies below `10 ^ 16`. -/
def isShort (x : Binary64) : Bool := x.isFinite && x.units < Nat.pow 10 16 * Nat.pow 2 1074

end Binary64

end SqlRecovery.Number
