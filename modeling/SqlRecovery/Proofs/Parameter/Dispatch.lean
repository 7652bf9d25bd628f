import SqlRecovery.Parameter.Token
import SqlRecovery.Proofs.Text.Occurrence

/-! How the declared type of a value decides what the value becomes. The first name of the table that
occurs in the type chooses the reading; a text that is not in the form that the reading asks for
stays as it is. -/
namespace SqlRecovery
open Text Number

/-- The name occurs in the type, in any letter case. -/
def Names (name : String) (type : List Char) : Prop := name.toList <:+: type.map Char.toLower

instance (name : String) (type : List Char) : Decidable (Names name type) :=
  decidable_of_iff _ occursIn_iff

namespace Reading
variable {r : Reading} {type : List Char}

/-- The reading belongs to the first name of the table that occurs in the type. -/
def FirstRule (r : Reading) (type : List Char) : Prop :=
  ∃ before name after, names = before ++ (name, r) :: after ∧ Names name type ∧
    ∀ x ∈ before, ¬ Names x.1 type

theorem ofType_of_firstRule (h : r.FirstRule type) : ofType type = r := by
  obtain ⟨before, name, after, hnames, hname, hbefore⟩ := h
  have hfind : names.find? (fun x => occursIn x.1.toList (type.map Char.toLower)) =
      some (name, r) := by
    refine List.find?_eq_some_iff_append.mpr ⟨occursIn_iff.mpr hname, before, after, hnames, ?_⟩
    intro x hx
    rw [Bool.not_eq_true', ← Bool.not_eq_true, occursIn_iff]
    exact hbefore x hx
  rw [ofType, hfind]
  rfl

/-- A type that names whole numbers of 32 bits and no text chooses them, whatever else it names. -/
theorem firstRule_int32 (hint : Names "int" type) (hstring : ¬ Names "string" type)
    (hvarchar : ¬ Names "varchar" type) : int32.FirstRule type := by
  by_cases hinteger : Names "integer" type
  · refine ⟨[("string", text), ("varchar", text)], "integer", _, rfl, hinteger, ?_⟩
    simp [hstring, hvarchar]
  · refine ⟨[("string", text), ("varchar", text), ("integer", int32)], "int", _, rfl, hint, ?_⟩
    simp [hstring, hvarchar, hinteger]

theorem names_int_of_bigint (h : Names "bigint" type) : Names "int" type :=
  List.IsInfix.trans ⟨"big".toList, [], rfl⟩ h

theorem names_int_of_integer (h : Names "integer" type) : Names "int" type :=
  List.IsInfix.trans ⟨[], "eger".toList, rfl⟩ h

/-- A type that names whole numbers of 64 bits chooses them if it names no text and no whole numbers
of 32 bits. -/
theorem firstRule_int64 (hlong : Names "long" type) (hint : ¬ Names "int" type)
    (hstring : ¬ Names "string" type) (hvarchar : ¬ Names "varchar" type) :
    int64.FirstRule type := by
  refine ⟨[("string", text), ("varchar", text), ("integer", int32), ("int", int32)], "long", _, rfl,
    hlong, ?_⟩
  simp [hstring, hvarchar, hint, mt names_int_of_integer hint]

end Reading

namespace Value

/-- A value of a declared type is the text, or what the reading of a number or of a truth value makes
of it. -/
theorem ofTyped_cases (s type : List Char) :
    ofTyped s type = .text (String.ofList s) ∨ ofTyped s type = .raw (String.ofList s) ∨
      (∃ n, readInt32? s = some n ∧ ofTyped s type = .integer n) ∨
      (∃ n, readInt64? s = some n ∧ ofTyped s type = .long n) ∨
      (∃ x, readDouble? s = some x ∧ ofTyped s type = .double x) ∨
      ∃ b, readBool? s = some b ∧ ofTyped s type = .boolean b := by
  rw [ofTyped]
  cases Reading.ofType type with
  | text => exact .inl rfl
  | raw => exact .inr (.inl rfl)
  | int32 =>
    cases hread : readInt32? s with
    | none => simp [read?, hread]
    | some n => simp [read?, hread]
  | int64 =>
    cases hread : readInt64? s with
    | none => simp [read?, hread]
    | some n => simp [read?, hread]
  | double =>
    cases hread : readDouble? s with
    | none => simp [read?, hread]
    | some x => simp [read?, hread]
  | boolean =>
    cases hread : readBool? s with
    | none => simp [read?, hread]
    | some b => simp [read?, hread]

/-- The values that callers bring: moments and lists. -/
inductive Brought : Value → Prop
  | moment (m : Calendar.Moment) : Brought (.moment m)
  | list (values : List Value) : Brought (.list values)

/-- Reading a token gives no moment and no list. -/
theorem not_brought_ofToken (token : List Char) : ¬ Brought (ofToken token) := by
  rw [ofToken]
  dsimp only
  split
  · rintro ⟨⟩
  · intro h
    rcases ofTyped_cases ((splitToken? token).getD (token, [])).1
        ((splitToken? token).getD (token, [])).2 with
      heq | heq | ⟨_, -, heq⟩ | ⟨_, -, heq⟩ | ⟨_, -, heq⟩ | ⟨_, -, heq⟩ <;>
    · rw [heq] at h
      cases h

end Value

theorem Parameter.not_brought {text : String} {p : Parameter} (h : p ∈ Parameter.readAll text) :
    ¬ p.value.Brought := by
  rw [readAll, ofLine] at h
  split at h
  · cases h
  · obtain ⟨piece, -, rfl⟩ := List.mem_map.mp h
    exact Value.not_brought_ofToken (trim piece)

end SqlRecovery
