import SqlRecovery.Calendar.Moment
import SqlRecovery.Text.Blank

/-! Reading a moment from its text with a `T`. Blanks may stand before and behind every number of
the date and the clock, and digits beyond the ninth of the fraction are passed over. -/
namespace SqlRecovery.Calendar
open Number Text

/-- A number of at most `width` digits at the start of the text, and the rest. -/
def digitsUpTo (width : Nat) (s : List Char) : Option (Nat × List Char) :=
  let digits := (s.take width).takeWhile Char.isDigit
  if digits.isEmpty then none
  else some (Nat.ofDigitChars 10 digits 0, s.drop digits.length)

/-- A year: four digits at most, or any number of them behind a sign. -/
def readYear (s : List Char) : Option (Int × List Char) :=
  match trimStart s with
  | '-' :: s => (digitsUpTo s.length s).map fun x => (-Int.ofNat x.1, x.2)
  | '+' :: s => (digitsUpTo s.length s).map fun x => (Int.ofNat x.1, x.2)
  | s => (digitsUpTo 4 s).map fun x => (Int.ofNat x.1, x.2)

/-- A mark behind blanks, then one or two digits behind blanks. -/
def readField (mark : Char) (s : List Char) : Option (Nat × List Char) :=
  match trimStart s with
  | c :: s => if c == mark then digitsUpTo 2 (trimStart s) else none
  | [] => none

/-- The nanoseconds behind a point, if there is one. -/
def readFraction (s : List Char) : Option (Nat × List Char) :=
  match s with
  | '.' :: s =>
    (digitsUpTo 9 s).map fun x =>
      (x.1 * Nat.pow 10 (9 - (s.length - x.2.length)), x.2.dropWhile Char.isDigit)
  | s => some (0, s)

/-- The sixtieth second is the fifty-ninth with a whole second of nanoseconds more. -/
def leapNormal (second nano : Nat) : Nat × Nat :=
  if second = 60 then (59, 1000000000 + nano) else (second, nano)

/-- The moment that a text denotes. -/
def Moment.read? (s : List Char) : Option Moment := do
  let (year, s) ← readYear s
  let (month, s) ← readField '-' s
  let (day, s) ← readField '-' s
  let (hour, s) ← readField 'T' s
  let (minute, s) ← readField ':' s
  let (second, s) ← readField ':' s
  let (nano, s) ← readFraction s
  if allBlank s then
    Moment.of? year month day hour minute (leapNormal second nano).1 (leapNormal second nano).2
  else none

end SqlRecovery.Calendar
