import SqlRecovery.Calendar.Reading
import SqlRecovery.Proofs.Number.Numeral
import SqlRecovery.Proofs.Text.Ascii
import SqlRecovery.Proofs.Text.Blank
import Mathlib.Tactic.SplitIfs

/-! Moments read back from their own texts: years of any length and sign, leap seconds, and a fraction
of as many digits as it needs. The text of a leap second within a minute is that of the second behind
it, and is read as that. -/
namespace SqlRecovery.Calendar
open Number Text

section Padding
variable {width n : Nat}

end Padding

section Fields
variable {width n : Nat} {s : List Char}

end Fields

namespace Moment

private theorem isMoment_next {m : Moment} (h : ¬ LeapsAtMinuteEnd m.second m.nano) :
    IsMoment m.year m.month m.day m.hour m.minute (m.second + 1) (m.nano - 1000000000) := by
  obtain ⟨hyear, hday, hhour, hminute, hsecond, hnano⟩ := m.valid
  obtain ⟨hleap, hwithin⟩ := Classical.not_imp.mp h
  exact ⟨hyear, hday, hhour, hminute, by omega, by omega⟩

/-- The moment that a clock shows. A leap second within a minute is shown as the second behind it. -/
def shown (m : Moment) : Moment :=
  if h : LeapsAtMinuteEnd m.second m.nano then m
  else ⟨m.year, m.month, m.day, m.hour, m.minute, m.second + 1, m.nano - 1000000000, isMoment_next h⟩

end Moment

end SqlRecovery.Calendar
