import SqlRecovery.Proofs.Number.Numeral
import SqlRecovery.Proofs.Parameter.Dispatch

/-! Parameters of whole number types. What a numeral in the range of the type becomes, and that all
else stays as it is: no number is changed on its way from the log into the statement, but a number
that does not fit its type is written between quotes. A type that names both widths is read by the
smaller one. -/
namespace SqlRecovery
open Text Number

/-- The widths of whole numbers. -/
inductive Width where
  | int32
  | int64

namespace Width

/-- The first number that is too large. -/
def bound : Width → Int
  | int32 => 2 ^ 31
  | int64 => 2 ^ 63

/-- The number lies in the range. -/
def Fits (w : Width) (n : Int) : Prop := -w.bound ≤ n ∧ n < w.bound

instance (w : Width) (n : Int) : Decidable (w.Fits n) := inferInstanceAs (Decidable (_ ∧ _))

def reading : Width → Reading
  | int32 => .int32
  | int64 => .int64

/-- The value that a number of the range becomes. -/
def value : Width → Int → Value
  | int32, n => .integer (Int32.ofInt n)
  | int64, n => .long (Int64.ofInt n)

variable {w : Width} {m n : Int}

theorem literal_value (h : w.Fits n) : (w.value n).literal = decimal n := by
  cases w with
  | int32 => exact congrArg decimal (Int32.toInt_ofInt_of_le h.1 h.2)
  | int64 => exact congrArg decimal (Int64.toInt_ofInt_of_le h.1 h.2)

/-- Numbers of the range stay apart. -/
theorem value_inj (hm : w.Fits m) (hn : w.Fits n) (h : w.value m = w.value n) : m = n := by
  cases w with
  | int32 =>
    rw [← Int32.toInt_ofInt_of_le hm.1 hm.2, ← Int32.toInt_ofInt_of_le hn.1 hn.2,
      Value.integer.inj h]
  | int64 =>
    rw [← Int64.toInt_ofInt_of_le hm.1 hm.2, ← Int64.toInt_ofInt_of_le hn.1 hn.2,
      Value.long.inj h]

theorem value_ne_raw (s : String) : w.value n ≠ .raw s := by
  cases w <;> exact fun h => nomatch h

theorem read?_reading (w : Width) (s : List Char) : Value.read? s w.reading =
    (readInt? s).bind fun n => if w.Fits n then some (w.value n) else none := by
  cases w with
  | int32 =>
    change ((readInt? s).bind toInt32?).map Value.integer = _
    rw [Option.map_bind]
    congr 1
    funext n
    exact apply_ite (Option.map Value.integer) _ _ _
  | int64 =>
    change ((readInt? s).bind toInt64?).map Value.long = _
    rw [Option.map_bind]
    congr 1
    funext n
    exact apply_ite (Option.map Value.long) _ _ _

end Width

namespace Value
variable {w : Width} {s type : List Char} {n : Int}

/-- A numeral in the range becomes its number. -/
theorem ofTyped_of_denotes (hrule : w.reading.FirstRule type) (hs : Denotes s n)
    (hfits : w.Fits n) : ofTyped s type = w.value n := by
  rw [ofTyped, Reading.ofType_of_firstRule hrule, w.read?_reading, readInt?_eq_some_iff.mpr hs,
    Option.bind_some, if_pos hfits, Option.getD_some]

/-- What is no numeral, or lies outside the range, stays as it is. -/
theorem ofTyped_of_not_denotes (hrule : w.reading.FirstRule type)
    (hs : ∀ n, w.Fits n → ¬ Denotes s n) : ofTyped s type = .raw (String.ofList s) := by
  rw [ofTyped, Reading.ofType_of_firstRule hrule, w.read?_reading]
  cases hread : readInt? s with
  | none => rfl
  | some n =>
    have hout : ¬ w.Fits n := fun hfits => hs n hfits (readInt?_eq_some_iff.mp hread)
    rw [Option.bind_some, if_neg hout, Option.getD_none]

private theorem literal_raw (s : List Char) : (raw (String.ofList s)).literal = quoted s :=
  congrArg quoted String.toList_ofList

end Value

open Value

/-- Whole numbers are read exactly. If the first name in the type is one of a whole number type, a text
becomes a number of that type exactly if it is a numeral of it and the number lies in the range, and
stays as it is in every other case; so what goes into the statement is the canonical numeral of the
number, or the text between quotes. No text has parameters with moments or lists. -/
theorem whole_numbers_exact :
    (∀ (w : Width) (type s : List Char), w.reading.FirstRule type →
      (∀ n, w.Fits n → (ofTyped s type = w.value n ↔ Denotes s n)) ∧
      ((∀ n, w.Fits n → ¬ Denotes s n) → ofTyped s type = .raw (String.ofList s)) ∧
      ((∃ n, w.Fits n ∧ Denotes s n ∧ (ofTyped s type).literal = decimal n ∧
          Canonical (decimal n) n) ∨
        (∀ n, w.Fits n → ¬ Denotes s n) ∧ (ofTyped s type).literal = quoted s)) ∧
    ∀ text, ∀ p ∈ Parameter.readAll text, ¬ p.value.Brought := by
  refine ⟨fun w type s hrule => ⟨fun n hfits => ⟨fun h => ?_, fun hs => ?_⟩, ?_, ?_⟩,
    fun text p hp => Parameter.not_brought hp⟩
  · by_contra hs
    by_cases hother : ∃ m, w.Fits m ∧ Denotes s m
    · obtain ⟨m, hm, hdenotes⟩ := hother
      rw [ofTyped_of_denotes hrule hdenotes hm] at h
      exact hs (w.value_inj hm hfits h ▸ hdenotes)
    · rw [ofTyped_of_not_denotes hrule fun m hm hdenotes => hother ⟨m, hm, hdenotes⟩] at h
      exact w.value_ne_raw _ h.symm
  · exact ofTyped_of_denotes hrule hs hfits
  · exact ofTyped_of_not_denotes hrule
  · by_cases hnumber : ∃ n, w.Fits n ∧ Denotes s n
    · obtain ⟨n, hfits, hs⟩ := hnumber
      refine .inl ⟨n, hfits, hs, ?_, canonical_decimal n⟩
      rw [ofTyped_of_denotes hrule hs hfits, w.literal_value hfits]
    · have hnone : ∀ n, w.Fits n → ¬ Denotes s n := fun n hfits hs => hnumber ⟨n, hfits, hs⟩
      refine .inr ⟨hnone, ?_⟩
      rw [ofTyped_of_not_denotes hrule hnone, literal_raw]

/-- At the lower end of the range, with leading zeros, and one beyond its upper end. -/
theorem whole_numbers_exact_limits :
    Width.int32.reading.FirstRule "BigInteger".toList ∧
      ofTyped "-002147483648".toList "BigInteger".toList = .integer (-2147483648) ∧
      ofTyped "2147483648".toList "BigInteger".toList = .raw "2147483648" ∧
      ∀ p ∈ Parameter.readAll "+1(Integer), (1, 2)(List)", ¬ p.value.Brought := by
  have hrule : Width.int32.reading.FirstRule "BigInteger".toList :=
    Reading.firstRule_int32 (by decide) (by decide) (by decide)
  have hlowest : Denotes "-002147483648".toList (-2147483648) :=
    .minus (s := "002147483648".toList) (by decide)
  have hbeyond : Denotes "2147483648".toList 2147483648 := .plain (by decide)
  refine ⟨hrule, ?_, ?_, whole_numbers_exact.2 _⟩
  · exact ((whole_numbers_exact.1 .int32 _ _ hrule).1 (-2147483648) (by decide)).mpr hlowest
  · refine (whole_numbers_exact.1 .int32 _ _ hrule).2.1 fun n hfits hn => ?_
    rw [hn.unique hbeyond] at hfits
    exact absurd hfits (by decide)

/-- A number of 64 bits under a type that names such numbers and no text. It is written as a number if
the type does not name numbers of 32 bits too, or if the number is one of these; any other is written
between quotes. -/
theorem literal_ofTyped_long {type : List Char} {n : Int64}
    (hlong : Names "long" type ∨ Names "bigint" type) (hstring : ¬ Names "string" type)
    (hvarchar : ¬ Names "varchar" type) :
    (¬ Names "int" type ∨ Width.int32.Fits n.toInt →
      (ofTyped (decimal n.toInt) type).literal = decimal n.toInt) ∧
    (Names "int" type → ¬ Width.int32.Fits n.toInt →
      (ofTyped (decimal n.toInt) type).literal = quoted (decimal n.toInt)) := by
  have hdenotes : Denotes (decimal n.toInt) n.toInt := (canonical_decimal n.toInt).denotes
  constructor
  · intro hnarrow
    by_cases hint : Names "int" type
    · have hfits := hnarrow.resolve_left (not_not_intro hint)
      have hrule : Width.int32.reading.FirstRule type :=
        Reading.firstRule_int32 hint hstring hvarchar
      rw [ofTyped_of_denotes hrule hdenotes hfits, Width.literal_value hfits]
    · have hfits : Width.int64.Fits n.toInt := ⟨n.le_toInt, n.toInt_lt⟩
      have hname := hlong.resolve_right (mt Reading.names_int_of_bigint hint)
      have hrule : Width.int64.reading.FirstRule type :=
        Reading.firstRule_int64 hname hint hstring hvarchar
      rw [ofTyped_of_denotes hrule hdenotes hfits, Width.literal_value hfits]
  · intro hint hwide
    have hrule : Width.int32.reading.FirstRule type :=
      Reading.firstRule_int32 hint hstring hvarchar
    rw [ofTyped_of_not_denotes hrule fun m hfits hm => hwide (hdenotes.unique hm ▸ hfits),
      literal_raw]

/-- The least number of 64 bits as a long, and the first one beyond 32 bits as a big integer. -/
theorem literal_ofTyped_long_limits :
    (ofTyped (decimal Int64.minValue.toInt) "Long".toList).literal = "-9223372036854775808".toList ∧
      (ofTyped (decimal (2147483648 : Int64).toInt) "BIGINT".toList).literal =
        "'2147483648'".toList := by
  constructor
  · exact (literal_ofTyped_long (n := Int64.minValue) (.inl (by decide)) (by decide)
      (by decide)).1 (.inl (by decide))
  · exact (literal_ofTyped_long (n := 2147483648) (.inr (by decide)) (by decide)
      (by decide)).2 (by decide) (by decide)

/-- Not every number of 64 bits is written as a number under every such type. -/
theorem not_literal_bigint : ¬ ∀ (n : Int64) (type : List Char),
    Names "long" type ∨ Names "bigint" type → ¬ Names "string" type → ¬ Names "varchar" type →
      (ofTyped (decimal n.toInt) type).literal = decimal n.toInt := by
  intro h
  have hnumber := h 3000000000 "BIGINT".toList (.inr (by decide)) (by decide) (by decide)
  exact absurd hnumber (by decide)

end SqlRecovery
