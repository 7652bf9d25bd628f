import SqlRecovery.Number.Whole
import Mathlib.Data.Nat.Digits.Defs

/-! Numerals: which texts denote a whole number, and which of them is the canonical one. Reading finds
exactly the number that a text denotes, however many digits it has; writing gives the canonical
numeral. -/
namespace SqlRecovery.Number

/-- The number that digits denote by their places. -/
def placeValue (digits : List Char) : Nat :=
  Nat.ofDigits 10 (digits.reverse.map fun c => c.toNat - '0'.toNat)

/-- One or more ASCII digits. -/
structure Digits (s : List Char) : Prop where
  nonempty : s ≠ []
  all : ∀ c ∈ s, c.isDigit = true

instance (s : List Char) : Decidable (Digits s) :=
  have : Decidable (∀ c ∈ s, c.isDigit = true) := List.decidableBAll _ s
  decidable_of_iff (s ≠ [] ∧ ∀ c ∈ s, c.isDigit = true) ⟨fun h => ⟨h.1, h.2⟩, fun h => ⟨h.1, h.2⟩⟩

/-- The text is a numeral of the number: digits, with at most one sign in front of them. -/
inductive Denotes : List Char → Int → Prop
  | plain {s : List Char} (h : Digits s) : Denotes s (placeValue s)
  | plus {s : List Char} (h : Digits s) : Denotes ('+' :: s) (placeValue s)
  | minus {s : List Char} (h : Digits s) : Denotes ('-' :: s) (-placeValue s)

/-- The numeral without a plus sign, without leading zeros, and without a sign in front of zero. -/
structure Canonical (s : List Char) (n : Int) : Prop where
  denotes : Denotes s n
  unsigned : ∀ t, s ≠ '+' :: t
  unpadded : ∀ c t, s ≠ '0' :: c :: t
  negative : ∀ t, s ≠ '-' :: '0' :: t

section Reading
variable {s : List Char} {n : Int}

theorem placeValue_eq (s : List Char) : placeValue s = Nat.ofDigitChars 10 s 0 := by
  induction s with
  | nil => rfl
  | cons c s ih =>
    rw [Nat.ofDigitChars_cons, Nat.ofDigitChars_eq_ofDigitChars_zero, ← ih, placeValue,
      List.reverse_cons, List.map_append, Nat.ofDigits_append, List.length_map, List.length_reverse,
      placeValue]
    simp [Nat.add_comm]

theorem readNat?_eq_some_iff {m : Nat} :
    readNat? s = some m ↔ Digits s ∧ m = placeValue s := by
  rw [placeValue_eq, readNat?]
  constructor
  · intro h
    split at h
    case isTrue hs =>
      simp only [Bool.and_eq_true, Bool.not_eq_true', List.isEmpty_eq_false_iff,
        List.all_eq_true] at hs
      exact ⟨⟨hs.1, hs.2⟩, (Option.some.inj h).symm⟩
    case isFalse => cases h
  · rintro ⟨⟨hne, hall⟩, rfl⟩
    rw [if_pos]
    simp only [Bool.and_eq_true, Bool.not_eq_true', List.isEmpty_eq_false_iff, List.all_eq_true]
    exact ⟨hne, hall⟩

/-- Digits begin with no sign. -/
theorem Digits.ne_sign (h : Digits s) {c : Char} (hc : c.isDigit = false) (t : List Char) :
    s ≠ c :: t := by
  rintro rfl
  rw [h.all c List.mem_cons_self] at hc
  cases hc

/-- A text is read as the number that it denotes, and all else is refused. -/
theorem readInt?_eq_some_iff : readInt? s = some n ↔ Denotes s n := by
  constructor
  · intro h
    unfold readInt? at h
    split at h
    all_goals
      obtain ⟨m, hm, rfl⟩ := Option.map_eq_some_iff.mp h
      obtain ⟨hdigits, rfl⟩ := readNat?_eq_some_iff.mp hm
    · exact .plus hdigits
    · exact .minus hdigits
    · exact .plain hdigits
  · intro h
    cases h with
    | plain hdigits =>
      have hread := readNat?_eq_some_iff.mpr ⟨hdigits, rfl⟩
      unfold readInt?
      split
      · exact absurd rfl (hdigits.ne_sign (by decide) _)
      · exact absurd rfl (hdigits.ne_sign (by decide) _)
      · rw [hread]
        rfl
    | plus hdigits =>
      rw [readInt?, readNat?_eq_some_iff.mpr ⟨hdigits, rfl⟩]
      rfl
    | minus hdigits =>
      rw [readInt?, readNat?_eq_some_iff.mpr ⟨hdigits, rfl⟩]
      rfl

/-- A numeral has no characters but digits and a sign. -/
theorem Denotes.not_mem {c : Char} (hs : Denotes s n) (hdigit : c.isDigit = false) (hplus : c ≠ '+')
    (hminus : c ≠ '-') : c ∉ s := by
  have hdigits : ∀ {t : List Char}, Digits t → c ∉ t := fun ht hc => by
    rw [ht.all c hc] at hdigit
    cases hdigit
  cases hs with
  | plain ht => exact hdigits ht
  | plus ht => exact fun hc => (List.mem_cons.mp hc).elim hplus (hdigits ht)
  | minus ht => exact fun hc => (List.mem_cons.mp hc).elim hminus (hdigits ht)

theorem Denotes.unique {m : Int} (hm : Denotes s m) (hn : Denotes s n) : m = n := by
  rw [← readInt?_eq_some_iff] at hm hn
  exact Option.some.inj (hm.symm.trans hn)

end Reading

section Writing

theorem digits_digitsOf (n : Nat) : Digits (digitsOf n) :=
  ⟨Nat.toDigits_ne_nil, fun _ hc => isDigit_of_mem_digitsOf hc⟩

/-- The digits of a positive number begin with no zero. -/
theorem head?_digitsOf {n : Nat} (hn : 0 < n) : (digitsOf n).head? ≠ some '0' := by
  induction n using Nat.strong_induction_on with
  | h n ih =>
    by_cases hsmall : n < 10
    · have hdigit : ∀ d < 10, 0 < d → [Nat.digitChar d].head? ≠ some '0' := by decide
      rw [digitsOf, Nat.toDigits_of_lt_base hsmall]
      exact hdigit n hsmall hn
    · have hfewer := ih (n / 10) (by omega) (by omega)
      rw [digitsOf] at hfewer ⊢
      rw [Nat.toDigits_of_base_le (by decide) (by omega), List.head?_append,
        Option.or_of_isSome (by simp [Nat.toDigits_ne_nil])]
      exact hfewer

/-- What is written is the canonical numeral. -/
theorem canonical_decimal (n : Int) : Canonical (decimal n) n where
  denotes := readInt?_eq_some_iff.mp (readInt?_decimal n)
  unsigned := by
    intro t h
    have hplus : '+' ∈ decimal n := by rw [h]; exact List.mem_cons_self
    rcases isDigit_of_mem_decimal hplus with heq | hdigit
    · cases heq
    · cases hdigit
  unpadded := by
    intro c t h
    rw [decimal] at h
    split at h
    · cases h
    case isFalse hn =>
      by_cases hzero : n = 0
      · subst hzero
        cases h
      · refine head?_digitsOf (n := n.natAbs) (by omega) ?_
        rw [h]
        rfl
  negative := by
    intro t h
    rw [decimal] at h
    split at h
    case isTrue hn =>
      refine head?_digitsOf (n := n.natAbs) (by omega) ?_
      rw [(List.cons.inj h).2]
      rfl
    · exact (digits_digitsOf _).ne_sign (by decide) _ h

end Writing

end SqlRecovery.Number
