import SqlRecovery.Proofs.Text.Utf8

/-! Texts by their bytes. A text is reached into by byte positions, and what it does not have is a
fault: a slice has to lie within the text and to begin and end between characters. -/
namespace SqlRecovery.Bytewise
open Text

/-- The bytes of a text, each as the character of its number. -/
def bytes (s : List Char) : List Char := (Utf8.encode s).map fun b => Char.ofNat b.toNat

/-- How many bytes a text has. -/
def size (s : List Char) : Nat := (bytes s).length

/-- The byte position behind so many characters. -/
def offset (s : List Char) (i : Nat) : Nat := size (s.take i)

/-- The byte position lies between two characters, or at an end of the text. -/
def Edge (s : List Char) (n : Nat) : Prop := ∃ front back, s = front ++ back ∧ size front = n

section Bytes
variable {c : Char} {s t : List Char} {i j k n : Nat}

@[simp] theorem bytes_nil : bytes [] = [] := rfl

@[simp] theorem bytes_append (s t : List Char) : bytes (s ++ t) = bytes s ++ bytes t := by
  simp [bytes, Utf8.encode]

theorem bytes_cons (c : Char) (s : List Char) : bytes (c :: s) = bytes [c] ++ bytes s :=
  bytes_append [c] s

@[simp] theorem size_nil : size [] = 0 := rfl

@[simp] theorem size_append (s t : List Char) : size (s ++ t) = size s + size t := by
  simp [size]

theorem size_cons (c : Char) (s : List Char) : size (c :: s) = size [c] + size s :=
  size_append [c] s

private theorem toNat_ofByte (b : UInt8) : (Char.ofNat b.toNat).toNat = b.toNat := by
  have hb : b.toNat.isValidChar := .inl (Nat.lt_trans b.toNat_lt (by decide))
  rw [Char.ofNat, dif_pos hb]
  rfl

/-- A character of ASCII is its own byte. -/
theorem bytes_ascii (h : c.toNat < 0x80) : bytes [c] = [c] := by
  have hval : c.val.toNat < 0x80 := h
  have hone : String.utf8EncodeChar c = [UInt8.ofNat c.val.toNat] := by
    fun_cases String.utf8EncodeChar c
    case case1 => rfl
    all_goals omega
  have hbyte : Char.ofNat (UInt8.ofNat c.val.toNat).toNat = c := by
    rw [UInt8.toNat_ofNat', Nat.mod_eq_of_lt (by omega)]
    exact Char.ofNat_toNat c
  simp only [bytes, Utf8.encode, List.flatMap_singleton, hone, List.map_singleton, hbyte]

/-- No byte of another character is one of ASCII. -/
theorem bytes_not_ascii (h : 0x80 ≤ c.toNat) : ∀ b ∈ bytes [c], 0x80 ≤ b.toNat := by
  have hval : 0x80 ≤ c.val.toNat := h
  have hencode : ∀ b ∈ String.utf8EncodeChar c, 0x80 ≤ b.toNat := by
    fun_cases String.utf8EncodeChar c
    case case1 => omega
    all_goals simp; omega
  intro b hb
  obtain ⟨u, hu, rfl⟩ := List.mem_map.mp hb
  rw [toNat_ofByte]
  exact hencode u (by simpa [Utf8.encode] using hu)

theorem size_pos (c : Char) : 0 < size [c] := by
  simp [size, bytes, Utf8.encode, Char.utf8Size_pos]

theorem size_ascii (h : c.toNat < 0x80) : size [c] = 1 := by
  rw [size, bytes_ascii h, List.length_singleton]

@[simp] theorem offset_zero (s : List Char) : offset s 0 = 0 := rfl

@[simp] theorem offset_length (s : List Char) : offset s s.length = size s := by
  rw [offset, List.take_length]

theorem offset_append (s t : List Char) : offset (s ++ t) s.length = size s := by
  rw [offset, List.take_left]

theorem offset_add (s : List Char) (i k : Nat) :
    offset s (i + k) = offset s i + size ((s.drop i).take k) := by
  rw [offset, List.take_add, size_append, offset]

theorem offset_le (h : i ≤ j) : offset s i ≤ offset s j := by
  obtain ⟨k, rfl⟩ := Nat.exists_eq_add_of_le h
  rw [offset_add]
  exact Nat.le_add_right _ _

theorem offset_le_size (s : List Char) (i : Nat) : offset s i ≤ size s := by
  conv => rhs; rw [← List.take_append_drop i s, size_append]
  exact Nat.le_add_right _ _

theorem offset_lt (h : i < j) (hj : j ≤ s.length) : offset s i < offset s j := by
  have hi : i < s.length := by omega
  refine Nat.lt_of_lt_of_le ?_ (offset_le (i := i + 1) h)
  rw [offset_add, List.drop_eq_getElem_cons hi, List.take_succ_cons, List.take_zero]
  exact Nat.lt_add_of_pos_right (size_pos _)

theorem offset_le_iff (hi : i ≤ s.length) : offset s i ≤ offset s j ↔ i ≤ j := by
  refine ⟨fun h => Nat.le_of_not_lt fun hlt => ?_, offset_le⟩
  exact Nat.not_lt.mpr h (offset_lt hlt hi)

theorem offset_lt_iff (hj : j ≤ s.length) : offset s i < offset s j ↔ i < j := by
  rw [← Nat.not_le, ← Nat.not_le, offset_le_iff hj]

/-- A byte position lies between characters, or behind the first byte of one that is not ASCII. -/
theorem edge_or (h : n < size s) :
    (∃ i < s.length, n = offset s i) ∨ ∃ b, (bytes s)[n]? = some b ∧ 0x80 ≤ b.toNat := by
  induction s generalizing n with
  | nil => simp at h
  | cons c s ih =>
    rw [bytes_cons]
    rcases Nat.lt_or_ge n (size [c]) with hn | hn
    · rcases Nat.lt_or_ge c.toNat 0x80 with hc | hc
      · rw [size_ascii hc] at hn
        exact .inl ⟨0, by simp, by simp; omega⟩
      · refine .inr ⟨(bytes [c])[n], ?_, bytes_not_ascii hc _ (List.getElem_mem hn)⟩
        rw [List.getElem?_append_left hn, List.getElem?_eq_getElem hn]
    · rw [size_cons] at h
      have hrest := ih (n := n - size [c]) (by omega)
      rw [List.getElem?_append_right hn]
      refine hrest.imp_left ?_
      rintro ⟨i, hi, hni⟩
      refine ⟨i + 1, by simpa using hi, ?_⟩
      rw [offset, List.take_succ_cons, size_cons, ← offset, ← hni]
      omega

end Bytes

/-- What a text or a list was asked for and does not have. -/
inductive Fault where
  | slice (length start stop : Nat)
  | index (length position : Nat)
  | underflow (minuend subtrahend : Nat)
  | stalled (position : Nat)
  deriving DecidableEq, Repr

/-- A result, unless an access on the way to it is a fault. -/
abbrev Checked := Except Fault

/-- The text in front of a byte position and the text behind it, if no character stands across. -/
def parted? : List Char → Nat → Option (List Char × List Char)
  | s, 0 => some ([], s)
  | [], _ + 1 => none
  | c :: s, n + 1 =>
    if size [c] ≤ n + 1 then (parted? s (n + 1 - size [c])).map fun x => (c :: x.1, x.2) else none

/-- The text from byte `start` up to, but without, byte `stop`. -/
def slice (s : List Char) (start stop : Nat) : Checked (List Char) :=
  match (parted? s stop).bind fun x => parted? x.1 start with
  | some (_, part) => pure part
  | none => throw (.slice (size s) start stop)

/-- The entries of a list from position `start` up to, but without, position `stop`. -/
def run {α : Type} (xs : List α) (start stop : Nat) : Checked (List α) :=
  if start ≤ stop ∧ stop ≤ xs.length then pure ((xs.drop start).take (stop - start))
  else throw (.slice xs.length start stop)

/-- The entry at a position. -/
def entry {α : Type} (xs : List α) (i : Nat) : Checked α :=
  match xs[i]? with
  | some x => pure x
  | none => throw (.index xs.length i)

/-- The list with another entry at a position. -/
def store {α : Type} (xs : List α) (i : Nat) (x : α) : Checked (List α) :=
  if i < xs.length then pure (xs.set i x) else throw (.index xs.length i)

/-- The difference of two lengths. -/
def minus (a b : Nat) : Checked Nat := if b ≤ a then pure (a - b) else throw (.underflow a b)

section Access
variable {α : Type} {xs : List α} {x : α} {s t front part back : List Char} {a b i j n : Nat}

theorem parted?_eq_some_iff :
    parted? s n = some (front, back) ↔ s = front ++ back ∧ size front = n := by
  induction s generalizing n front with
  | nil =>
    cases n with
    | zero => cases front <;> simp [parted?]
    | succ n =>
      simp only [parted?, reduceCtorEq, false_iff, List.nil_eq, List.append_eq_nil_iff]
      rintro ⟨⟨rfl, -⟩, hsize⟩
      cases hsize
  | cons c s ih =>
    have hpos := size_pos c
    cases front with
    | nil =>
      cases n with
      | zero => simp [parted?]
      | succ n => simp [parted?]
    | cons d front =>
      have hd := size_pos d
      rw [size_cons d front, List.cons_append, List.cons.injEq]
      cases n with
      | zero => simp [parted?]; omega
      | succ n =>
        rw [parted?]
        split
        case isTrue hle =>
          simp only [Option.map_eq_some_iff, Prod.exists, Prod.mk.injEq, List.cons.injEq]
          constructor
          · rintro ⟨front, back, h, ⟨rfl, rfl⟩, rfl⟩
            obtain ⟨rfl, hsize⟩ := ih.mp h
            exact ⟨⟨rfl, rfl⟩, by omega⟩
          · rintro ⟨⟨rfl, rfl⟩, hsize⟩
            exact ⟨front, back, ih.mpr ⟨rfl, by omega⟩, ⟨rfl, rfl⟩, rfl⟩
        case isFalse hle =>
          simp only [reduceCtorEq, false_iff]
          rintro ⟨⟨rfl, -⟩, hsize⟩
          omega

/-- A slice is what stands between the bytes in front of it and the text behind it. -/
theorem slice_eq_ok_iff : slice s a b = .ok part ↔
    ∃ front back, s = front ++ (part ++ back) ∧ size front = a ∧ a + size part = b := by
  have hparted : slice s a b = .ok part ↔
      ∃ y, (parted? s b).bind (fun x => parted? x.1 a) = some (y, part) := by
    rw [slice]
    split
    case h_1 y q h => simp [h, pure, Except.pure]
    case h_2 h => simp [h, throw, throwThe, MonadExceptOf.throw]
  simp only [hparted, Option.bind_eq_some_iff, Prod.exists, parted?_eq_some_iff]
  constructor
  · rintro ⟨front, -, back, ⟨rfl, rfl⟩, rfl, rfl⟩
    exact ⟨front, back, List.append_assoc _ _ _, rfl, (size_append _ _).symm⟩
  · rintro ⟨front, back, rfl, rfl, rfl⟩
    exact ⟨front, front ++ part, back, ⟨(List.append_assoc _ _ _).symm, size_append _ _⟩, rfl, rfl⟩

/-- A text can be sliced if and only if the ends of the slice are in order, within the text and
between characters. -/
theorem exists_slice_iff :
    (∃ part, slice s a b = .ok part) ↔ a ≤ b ∧ b ≤ size s ∧ Edge s a ∧ Edge s b := by
  simp only [slice_eq_ok_iff]
  constructor
  · rintro ⟨part, front, back, rfl, rfl, rfl⟩
    refine ⟨Nat.le_add_right _ _, by simp, ⟨front, part ++ back, rfl, rfl⟩, ?_⟩
    exact ⟨front ++ part, back, (List.append_assoc _ _ _).symm, size_append _ _⟩
  · rintro ⟨hab, -, ⟨front, back, rfl, rfl⟩, front', back', h, rfl⟩
    rcases List.append_eq_append_iff.mp h with ⟨part, rfl, rfl⟩ | ⟨part, rfl, rfl⟩
    · exact ⟨part, front, back', rfl, rfl, (size_append _ _).symm⟩
    · obtain rfl : part = [] := by
        cases part with
        | nil => rfl
        | cons c part =>
          have hpos := size_pos c
          rw [size_append, size_cons] at hab
          omega
      exact ⟨[], front', back, by simp⟩

theorem slice_append (front part back : List Char) :
    slice (front ++ (part ++ back)) (size front) (size front + size part) = pure part :=
  slice_eq_ok_iff.mpr ⟨front, back, rfl, rfl, rfl⟩

theorem slice_rest (front rest : List Char) :
    slice (front ++ rest) (size front) (size (front ++ rest)) = pure rest :=
  slice_eq_ok_iff.mpr ⟨front, [], by rw [List.append_nil], rfl, (size_append _ _).symm⟩

theorem slice_offset (h : i ≤ j) :
    slice s (offset s i) (offset s j) = pure ((s.drop i).take (j - i)) := by
  obtain ⟨k, rfl⟩ := Nat.exists_eq_add_of_le h
  refine slice_eq_ok_iff.mpr ⟨s.take i, (s.drop i).drop k, ?_, rfl, ?_⟩
  · rw [Nat.add_sub_cancel_left, List.take_append_drop, List.take_append_drop]
  · rw [Nat.add_sub_cancel_left, ← offset_add]

private theorem exists_ok_ite {p : Prop} [Decidable p] {x : α} {e : Fault} :
    (∃ y, (if p then pure x else throw e : Checked α) = .ok y) ↔ p := by
  split
  case isTrue h => exact iff_of_true ⟨x, rfl⟩ h
  case isFalse h => exact iff_of_false (fun ⟨_, hy⟩ => by cases hy) h

/-- Part of a list can be taken if and only if its ends are in order and within the list. -/
theorem exists_run_iff : (∃ part, run xs a b = .ok part) ↔ a ≤ b ∧ b ≤ xs.length := exists_ok_ite

theorem exists_entry_iff : (∃ x, entry xs i = .ok x) ↔ i < xs.length := by
  rw [entry]
  cases h : xs[i]? with
  | none =>
    exact iff_of_false (fun ⟨_, hx⟩ => by cases hx)
      (Nat.not_lt.mpr (List.getElem?_eq_none_iff.mp h))
  | some x => exact iff_of_true ⟨x, rfl⟩ (List.getElem?_eq_some_iff.mp h).1

theorem exists_store_iff : (∃ ys, store xs i x = .ok ys) ↔ i < xs.length := exists_ok_ite

theorem exists_minus_iff : (∃ d, minus a b = .ok d) ↔ b ≤ a := exists_ok_ite

theorem run_of_le (hab : a ≤ b) (hb : b ≤ xs.length) :
    run xs a b = pure ((xs.drop a).take (b - a)) := if_pos ⟨hab, hb⟩

theorem entry_of_getElem? (h : xs[i]? = some x) : entry xs i = pure x := by
  rw [entry, h]

theorem store_of_lt (h : i < xs.length) (x : α) : store xs i x = pure (xs.set i x) := if_pos h

theorem minus_of_le (h : b ≤ a) : minus a b = pure (a - b) := if_pos h

/-- A slice does not begin inside a character. -/
example : slice "é(".toList 1 3 = .error (.slice 3 1 3) := rfl

end Access

/-- The byte positions of a character in a text that begins at position `n`. -/
def positions (c : Char) : Nat → List Char → List Nat
  | _, [] => []
  | n, d :: s => if d == c then n :: positions c (n + size [d]) s else positions c (n + size [d]) s

/-- The first byte position of a character. -/
def position? (c : Char) (s : List Char) : Option Nat := (positions c 0 s).head?

section Position
variable {c : Char} {front s rest : List Char}

theorem positions_append (h : c ∉ front) (n : Nat) (s : List Char) :
    positions c n (front ++ s) = positions c (n + size front) s := by
  induction front generalizing n with
  | nil => rfl
  | cons d front ih =>
    rw [List.mem_cons, not_or] at h
    have hd : (d == c) = false := beq_eq_false_iff_ne.mpr (Ne.symm h.1)
    rw [List.cons_append, positions, hd, if_neg Bool.false_ne_true, ih h.2, size_cons d front,
      Nat.add_assoc]

theorem position?_of_not_mem (h : c ∉ s) : position? c s = none := by
  have hall := positions_append h 0 []
  rw [List.append_nil] at hall
  rw [position?, hall, positions, List.head?_nil]

theorem position?_append (h : c ∉ front) (rest : List Char) :
    position? c (front ++ c :: rest) = some (size front) := by
  rw [position?, positions_append h, positions, beq_self_eq_true, if_pos rfl, List.head?_cons,
    Nat.zero_add]

end Position

end SqlRecovery.Bytewise
