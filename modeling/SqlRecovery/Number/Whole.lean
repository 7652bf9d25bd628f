/-! Whole numbers in decimal: written without leading zeros, read with any number of them and with
an optional sign, and refused outside the range of the type that is asked for. -/
namespace SqlRecovery.Number

/-- The digits of a natural number. -/
def digitsOf (n : Nat) : List Char := Nat.toDigits 10 n

/-- The decimal form of a whole number. -/
def decimal (n : Int) : List Char :=
  if n < 0 then '-' :: digitsOf n.natAbs else digitsOf n.natAbs

/-- The number that a non-empty run of digits denotes. -/
def readNat? (s : List Char) : Option Nat :=
  if !s.isEmpty && s.all Char.isDigit then some (Nat.ofDigitChars 10 s 0) else none

theorem isDigit_of_mem_digitsOf {n : Nat} {c : Char} (h : c ∈ digitsOf n) : c.isDigit = true :=
  Nat.isDigit_of_mem_toDigits (by decide) (by decide) h

theorem isDigit_of_mem_decimal {n : Int} {c : Char} (h : c ∈ decimal n) :
    c = '-' ∨ c.isDigit = true := by
  rw [decimal] at h
  split at h
  · exact (List.mem_cons.mp h).imp_right isDigit_of_mem_digitsOf
  · exact .inr (isDigit_of_mem_digitsOf h)

theorem decimal_ne_nil (n : Int) : decimal n ≠ [] := by
  rw [decimal]
  split
  · exact List.cons_ne_nil _ _
  · exact Nat.toDigits_ne_nil

/-- What is written reads back. -/
@[simp] theorem readNat?_digitsOf (n : Nat) : readNat? (digitsOf n) = some n := by
  have digit : ∀ c ∈ Nat.toDigits 10 n, c.isDigit = true := fun _ => isDigit_of_mem_digitsOf
  simpa [readNat?, digitsOf, Nat.ofDigitChars_toDigits, Nat.toDigits_ne_nil] using digit

/-- The number that an optional sign and digits denote. -/
def readInt? (s : List Char) : Option Int :=
  match s with
  | '+' :: s => (readNat? s).map Int.ofNat
  | '-' :: s => (readNat? s).map fun n => -Int.ofNat n
  | s => (readNat? s).map Int.ofNat

private theorem readInt?_of_digit {c : Char} (s : List Char) (h : c.isDigit = true) :
    readInt? (c :: s) = (readNat? (c :: s)).map Int.ofNat := by
  unfold readInt?
  split <;> simp_all [Char.isDigit]

@[simp] theorem readInt?_decimal (n : Int) : readInt? (decimal n) = some n := by
  by_cases hn : n < 0
  · simp only [decimal, hn, if_true, readInt?, readNat?_digitsOf, Option.map_some]
    exact congrArg some (by rw [Int.ofNat_eq_natCast]; omega)
  · rw [decimal, if_neg hn]
    rcases h : digitsOf n.natAbs with _ | ⟨c, s⟩
    · exact absurd h Nat.toDigits_ne_nil
    · have hc : c ∈ digitsOf n.natAbs := by simp [h]
      rw [readInt?_of_digit s (isDigit_of_mem_digitsOf hc), ← h, readNat?_digitsOf, Option.map_some]
      exact congrArg some (by rw [Int.ofNat_eq_natCast]; omega)

/-- The number, if it lies in the 32-bit range. -/
def toInt32? (n : Int) : Option Int32 :=
  if -0x80000000 ≤ n ∧ n < 0x80000000 then some (Int32.ofInt n) else none

/-- The number, if it lies in the 64-bit range. -/
def toInt64? (n : Int) : Option Int64 :=
  if -0x8000000000000000 ≤ n ∧ n < 0x8000000000000000 then some (Int64.ofInt n) else none

/-- A 32-bit number read from its text. -/
def readInt32? (s : List Char) : Option Int32 := (readInt? s).bind toInt32?

/-- A 64-bit number read from its text. -/
def readInt64? (s : List Char) : Option Int64 := (readInt? s).bind toInt64?

@[simp] theorem toInt32?_toInt (n : Int32) : toInt32? n.toInt = some n := by
  have hrange : -0x80000000 ≤ n.toInt ∧ n.toInt < 0x80000000 := ⟨n.le_toInt, n.toInt_lt⟩
  rw [toInt32?, if_pos hrange, Int32.ofInt_toInt]

@[simp] theorem toInt64?_toInt (n : Int64) : toInt64? n.toInt = some n := by
  have hrange : -0x8000000000000000 ≤ n.toInt ∧ n.toInt < 0x8000000000000000 :=
    ⟨n.le_toInt, n.toInt_lt⟩
  rw [toInt64?, if_pos hrange, Int64.ofInt_toInt]

/-- Every number of 32 bits reads back, up to the ends of the range. -/
@[simp] theorem readInt32?_decimal (n : Int32) : readInt32? (decimal n.toInt) = some n := by
  rw [readInt32?, readInt?_decimal, Option.bind_some, toInt32?_toInt]

/-- Every number of 64 bits reads back, up to the ends of the range. -/
@[simp] theorem readInt64?_decimal (n : Int64) : readInt64? (decimal n.toInt) = some n := by
  rw [readInt64?, readInt?_decimal, Option.bind_some, toInt64?_toInt]

end SqlRecovery.Number
