import SqlRecovery.Number.Whole

/-! Moments of the proleptic Gregorian calendar without a time zone. A leap second is told by a
nanosecond count of a thousand million or more, and may follow any second. -/
namespace SqlRecovery.Calendar
open Number

/-- The year has a twenty-ninth of February. -/
def isLeapYear (year : Int) : Bool := year % 4 == 0 && (year % 100 != 0 || year % 400 == 0)

/-- The days of a month; none for a number that is no month. -/
def daysIn (year : Int) (month : Nat) : Nat :=
  match month with
  | 2 => if isLeapYear year then 29 else 28
  | 4 | 6 | 9 | 11 => 30
  | 1 | 3 | 5 | 7 | 8 | 10 | 12 => 31
  | _ => 0

/-- The numbers name a day and a time of day in the supported years. -/
def IsMoment (year : Int) (month day hour minute second nano : Nat) : Prop :=
  (-262143 ≤ year ∧ year ≤ 262142) ∧ (1 ≤ day ∧ day ≤ daysIn year month) ∧
    hour < 24 ∧ minute < 60 ∧ second < 60 ∧ nano < 2000000000

instance (year : Int) (month day hour minute second nano : Nat) :
    Decidable (IsMoment year month day hour minute second nano) := by
  unfold IsMoment; infer_instance

/-- A leap second, if it is one, follows the last second of a minute. -/
def LeapsAtMinuteEnd (second nano : Nat) : Prop := 1000000000 ≤ nano → second = 59

instance (second nano : Nat) : Decidable (LeapsAtMinuteEnd second nano) := by
  unfold LeapsAtMinuteEnd; infer_instance

/-- A day and a time of day. -/
structure Moment where
  year : Int
  month : Nat
  day : Nat
  hour : Nat
  minute : Nat
  second : Nat
  nano : Nat
  valid : IsMoment year month day hour minute second nano
  deriving DecidableEq

namespace Moment

/-- The moment that the numbers name, if they do. They name no leap second within a minute. -/
def of? (year : Int) (month day hour minute second nano : Nat) : Option Moment :=
  if h : IsMoment year month day hour minute second nano ∧ LeapsAtMinuteEnd second nano then
    some ⟨year, month, day, hour, minute, second, nano, h.1⟩
  else none

/-- The second as it is shown: a leap second counts as the second behind the one that it follows, and
at the end of a minute as the sixtieth. -/
def shownSecond (m : Moment) : Nat := m.second + m.nano / 1000000000

/-- A number with zeros in front up to a width. -/
def padded (width n : Nat) : List Char :=
  List.replicate (width - (digitsOf n).length) '0' ++ digitsOf n

/-- The year with four digits, or with a sign where four unsigned digits do not do. -/
def yearText (year : Int) : List Char :=
  if year < 0 then '-' :: padded 4 year.natAbs
  else if year < 10000 then padded 4 year.natAbs
  else '+' :: padded 4 year.natAbs

/-- Year, month and day. -/
def dateText (m : Moment) : List Char :=
  yearText m.year ++ '-' :: padded 2 m.month ++ '-' :: padded 2 m.day

/-- Hour, minute and second. -/
def clockText (m : Moment) : List Char :=
  padded 2 m.hour ++ ':' :: padded 2 m.minute ++ ':' :: padded 2 m.shownSecond

/-- Date and time of day with a space between them. -/
def stampText (m : Moment) : List Char := m.dateText ++ ' ' :: m.clockText

/-- The stamp with the milliseconds behind a point, without zeros in front of them. -/
def sqlText (m : Moment) : List Char := m.stampText ++ '.' :: digitsOf (m.nano / 1000000)

/-- A fraction of a second with as many digits as it needs: none, three, six or nine. -/
def fractionText (nano : Nat) : List Char :=
  if nano = 0 then []
  else if nano % 1000000 = 0 then '.' :: padded 3 (nano / 1000000)
  else if nano % 1000 = 0 then '.' :: padded 6 (nano / 1000)
  else '.' :: padded 9 nano

/-- Date and time of day with a `T` between them and the fraction behind. -/
def isoText (m : Moment) : List Char :=
  m.dateText ++ 'T' :: m.clockText ++ fractionText (m.nano % 1000000000)

end Moment

end SqlRecovery.Calendar
