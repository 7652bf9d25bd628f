import SqlRecovery.Proofs.Text.Blank
import SqlRecovery.Text.Ascii

/-! Parts that stand somewhere in a text. -/
namespace SqlRecovery.Text

theorem occursIn_iff {part s : List Char} : occursIn part s = true ↔ part <:+: s := by
  induction s with
  | nil =>
    rw [occursIn, List.isEmpty_iff, List.infix_nil]
  | cons c s ih =>
    rw [occursIn, Bool.or_eq_true, List.isPrefixOf_iff_prefix, ih, List.infix_cons_iff]

theorem trimStart_suffix_self (s : List Char) : trimStart s <:+ s := List.dropWhile_suffix _

theorem trimEnd_prefix_self (s : List Char) : trimEnd s <+: s := by
  have h : s.reverse.dropWhile isBlank <:+ s.reverse := List.dropWhile_suffix _
  rwa [← List.reverse_prefix, List.reverse_reverse] at h

theorem trim_infix_self (s : List Char) : trim s <:+: s :=
  (trimEnd_prefix_self _).isInfix.trans (trimStart_suffix_self s).isInfix

/-- A trimmed text does not begin with a blank. -/
theorem trimStart_of_trim {s : List Char} (h : trim s = s) : trimStart s = s := by
  refine (trimStart_suffix_self s).eq_of_length_le ?_
  calc s.length = (trim s).length := by rw [h]
    _ ≤ (trimStart s).length := (trimEnd_prefix_self _).length_le

/-- A text in front of which all blanks are gone begins with another character, if it has any. -/
theorem not_blank_of_trimStart {c : Char} {s : List Char} (h : trimStart (c :: s) = c :: s) :
    isBlank c = false := by
  cases hc : isBlank c with
  | false => rfl
  | true =>
    have hle := (trimStart_suffix_self s).length_le
    rw [← trimStart_cons_of_blank hc, h, List.length_cons] at hle
    exact absurd hle (Nat.not_succ_le_self _)

end SqlRecovery.Text
