import SqlRecovery.Text.Ascii
import SqlRecovery.Text.Blank

/-! The letters of ASCII and their case. -/
namespace SqlRecovery.Text

theorem isAlpha_iff (c : Char) : c.isAlpha = true ↔
    (65 ≤ c.toNat ∧ c.toNat ≤ 90) ∨ (97 ≤ c.toNat ∧ c.toNat ≤ 122) := by
  have hletter : c.isAlpha = (decide (c.val ≥ 'A'.val ∧ c.val ≤ 'Z'.val) ||
      (decide (c.val ≥ 'a'.val) && decide (c.val ≤ 'z'.val))) := rfl
  simp [hletter, UInt32.le_iff_toNat_le]

theorem not_blank_of_isAlpha {c : Char} (h : c.isAlpha = true) : isBlank c = false := by
  rcases isAlpha_iff c |>.mp h with h | h <;> simp [isBlank] <;> omega

theorem not_blank_of_isDigit {c : Char} (h : c.isDigit = true) : isBlank c = false := by
  rw [Char.isDigit_iff_toNat] at h
  change 48 ≤ c.toNat ∧ c.toNat ≤ 57 at h
  simp [isBlank]
  omega

theorem toNat_toLower (c : Char) :
    c.toLower.toNat = if 65 ≤ c.toNat ∧ c.toNat ≤ 90 then c.toNat + 32 else c.toNat := by
  have hupper : (c.val ≥ 'A'.val ∧ c.val ≤ 'Z'.val) ↔ 65 ≤ c.toNat ∧ c.toNat ≤ 90 := by
    simp [UInt32.le_iff_toNat_le]
  change Char.toNat (dite _ _ _) = _
  split
  case isTrue h =>
    rw [if_pos (hupper.mp h)]
    have h90 := (hupper.mp h).2
    change (c.val + ('a'.val - 'A'.val)).toNat = c.val.toNat + 32
    change c.val.toNat ≤ 90 at h90
    rw [UInt32.toNat_add]
    change (c.val.toNat + 32) % 2 ^ 32 = _
    omega
  case isFalse h => rw [if_neg ((not_congr hupper).mp h)]

/-- Letters are compared with letters only. -/
theorem isAlpha_of_sameLetter {a b : Char} (h : sameLetter a b = true) : b.isAlpha = a.isAlpha := by
  rw [sameLetter, beq_iff_eq] at h
  have hnat := congrArg Char.toNat h
  rw [toNat_toLower, toNat_toLower] at hnat
  rw [Bool.eq_iff_iff, isAlpha_iff, isAlpha_iff]
  split at hnat <;> split at hnat <;> omega

/-- What is no letter is the same as itself only. -/
theorem eq_of_sameLetter {a b : Char} (ha : a.isAlpha = false) (h : sameLetter a b = true) :
    b = a := by
  have hb : b.isAlpha = false := by rw [isAlpha_of_sameLetter h, ha]
  rw [sameLetter, beq_iff_eq] at h
  have hnat := congrArg Char.toNat h
  rw [toNat_toLower, toNat_toLower] at hnat
  rw [← Bool.not_eq_true, isAlpha_iff] at ha hb
  apply Char.toNat_inj.mp
  split at hnat <;> split at hnat <;> omega

end SqlRecovery.Text
