import SqlRecovery.Json.Tree
import SqlRecovery.Number.DoubleText

/-! JSON numbers as whole numbers and as doubles. Doubles are written with the fewest digits that
read back. They are read quickly rather than exactly: as many digits as fit in 64 bits are kept, and
one multiplication or division by a power of ten follows, so the last bit may differ. -/
namespace SqlRecovery.Json
open Number

/-- A number without fraction and exponent. A negative zero is no whole number. -/
def Numeral.int? (n : Numeral) : Option Int :=
  if n.fraction.isEmpty && n.exponent.isNone then
    let value := Nat.ofDigitChars 10 n.whole 0
    if n.negative then (if value = 0 then none else some (-Int.ofNat value)) else some value
  else none

/-- The significand with as many of the digits behind it as fit in 64 bits, and how many did. -/
def takeDigits : Nat → List Char → Nat × Nat
  | significand, [] => (significand, 0)
  | significand, c :: digits =>
    let longer := significand * 10 + (c.toNat - '0'.toNat)
    if longer < Nat.pow 2 64 then
      let (result, taken) := takeDigits longer digits
      (result, taken + 1)
    else (significand, 0)

/-- The double nearest to a power of ten. -/
def powerOfTen (n : Nat) : Binary64 := Binary64.nearest false (Nat.pow 10 n) 1

/-- The rounded product with a power of ten. -/
def timesPower (x : Binary64) (n : Nat) : Binary64 :=
  Binary64.nearest false (x.units * (powerOfTen n).units) (Nat.pow 2 2148)

/-- The rounded quotient by a power of ten. -/
def overPower (x : Binary64) (n : Nat) : Binary64 :=
  Binary64.nearest false x.units (powerOfTen n).units

/-- Divide by a power of ten, in steps if it is not a double itself. -/
def divided (x : Binary64) (n : Nat) : Binary64 :=
  if n ≤ 308 then overPower x n
  else if x.isZero then x
  else divided (overPower x 308) (n - 308)
termination_by n

/-- The positive double for a significand and a decimal exponent, unless it is too large. -/
def assembled (significand : Nat) (exponent : Int) : Option Binary64 :=
  let x := Binary64.nearest false significand 1
  if exponent < 0 then some (divided x exponent.natAbs)
  else if exponent ≤ 308 then
    let product := timesPower x exponent.toNat
    if product.isFinite then some product else none
  else if significand = 0 then some x
  else none

/-- The digits of an exponent denote a number beyond 32 bits. -/
def hugePower (digits : List Char) : Bool := Nat.pow 2 31 ≤ Nat.ofDigitChars 10 digits 0

/-- The magnitude of a number. -/
def Numeral.magnitude? (n : Numeral) : Option Binary64 :=
  let (head, taken) := takeDigits 0 n.whole
  let dropped := n.whole.length - taken
  let (significand, places) := takeDigits head n.fraction
  let shift : Int := dropped - places
  match n.exponent with
  | none => assembled significand shift
  | some (negative, digits) =>
    if hugePower digits then
      if significand ≠ 0 && !negative then none else some (Binary64.zero false)
    else
      let power := Nat.ofDigitChars 10 digits 0
      assembled significand (if negative then shift - power else shift + power)

/-- The double of a number. -/
def Numeral.double? (n : Numeral) : Option Binary64 :=
  n.magnitude?.map fun x => if n.negative then ⟨x.bits + 0x8000000000000000⟩ else x

/-- The digits of a decimal in positional notation, in front of and behind the point. -/
def positionalParts (d : Decimal) : List Char × List Char :=
  let text := d.positional
  (text.takeWhile (· != '.'), (text.dropWhile (· != '.')).drop 1)

/-- A finite double as a number. Positional notation serves from `10 ^ -5` up to, but without,
`10 ^ 16`. -/
def Numeral.ofBinary64 (x : Binary64) : Numeral :=
  if x.isZero then ⟨x.isNegative, ['0'], ['0'], none⟩
  else
    let d := shortest .toEven x
    let digits := digitsOf d.digits
    let power : Int := digits.length - 1 + d.exponent
    if -5 ≤ power ∧ power < 16 then
      let (whole, fraction) := positionalParts d
      ⟨x.isNegative, whole, if fraction.isEmpty then ['0'] else fraction, none⟩
    else ⟨x.isNegative, digits.take 1, digits.drop 1, some (power < 0, digitsOf power.natAbs)⟩

/-- A double as a tree. What is not finite is null. -/
def Tree.ofBinary64 (x : Binary64) : Tree :=
  if x.isFinite then .number (.ofBinary64 x) else .null

end SqlRecovery.Json
