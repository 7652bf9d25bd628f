import SqlRecovery.Number.Shortest

/-! Doubles as text: read in the usual decimal notations, correctly rounded, and written with the
fewest digits that read back. -/
namespace SqlRecovery.Number

/-- The double nearest to `digits * 10 ^ exponent`. Far outside the range no power is formed. -/
def ofDecimal (negative : Bool) (digits : Nat) (exponent : Int) : Binary64 :=
  let top := (digitsOf digits).length + exponent
  if digits = 0 ∨ top < -400 then Binary64.zero negative
  else if 400 < top then Binary64.infinity negative
  else if 0 ≤ exponent then Binary64.nearest negative (digits * Nat.pow 10 exponent.toNat) 1
  else Binary64.nearest negative digits (Nat.pow 10 (-exponent).toNat)

/-- An exponent part, from its letter to the end of the text. No exponent part counts as zero. -/
def readExponent? : List Char → Option Int
  | [] => some 0
  | e :: s => if e == 'e' || e == 'E' then readInt? s else none

/-- Digits with an optional point among them, then an optional exponent part. -/
def readUnsigned? (negative : Bool) (s : List Char) : Option Binary64 :=
  let whole := s.takeWhile Char.isDigit
  let rest := s.dropWhile Char.isDigit
  let fraction := if rest.head? == some '.' then (rest.drop 1).takeWhile Char.isDigit else []
  let rest := if rest.head? == some '.' then (rest.drop 1).dropWhile Char.isDigit else rest
  let digits := whole ++ fraction
  if digits.isEmpty then none
  else (readExponent? rest).map fun e =>
    ofDecimal negative (Nat.ofDigitChars 10 digits 0) (e - fraction.length)

/-- A name of an infinite number or of NaN, in any letter case, or a decimal number. -/
def readMagnitude? (negative : Bool) (s : List Char) : Option Binary64 :=
  let name := s.map Char.toLower
  if name == "inf".toList || name == "infinity".toList then some (.infinity negative)
  else if name == "nan".toList then some .nan
  else readUnsigned? negative s

/-- The double that a text denotes. -/
def readDouble? : List Char → Option Binary64
  | '+' :: s => readMagnitude? false s
  | '-' :: s => readMagnitude? true s
  | s => readMagnitude? false s

/-- The magnitude of a finite double. Whole numbers below `10 ^ 16` get one decimal place. -/
def magnitudeText (x : Binary64) : List Char :=
  if x.isZero then ['0', '.', '0']
  else
    let text := (shortest .up x).positional
    if x.isWhole && x.isShort then text ++ ['.', '0'] else text

/-- A double as a SQL number. -/
def doubleText (x : Binary64) : List Char :=
  if x.isNaN then "NaN".toList
  else
    let text := if x.isFinite then magnitudeText x else "inf".toList
    if x.isNegative then '-' :: text else text

end SqlRecovery.Number
