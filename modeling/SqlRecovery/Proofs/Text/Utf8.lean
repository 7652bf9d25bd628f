import SqlRecovery.Text.Utf8

/-! Reading the UTF-8 bytes of a text gives back the text. A character has one lead byte and up to
three further bytes, each of which carries six bits. -/
namespace SqlRecovery.Text.Utf8

/-- The bytes of a text, character by character. -/
def encode (s : List Char) : List UInt8 := s.flatMap String.utf8EncodeChar

/-- The bytes that the library gives for a string. -/
theorem data_toUTF8 (text : String) : text.toUTF8.data.toList = encode text.toList := by
  have h := String.toByteArray_ofList (l := text.toList)
  rw [String.ofList_toList] at h
  rw [String.toUTF8_eq_toByteArray, h, List.utf8Encode, List.data_toByteArray, encode]

theorem toNat_ofNat {n : Nat} (h : n < 256) : (UInt8.ofNat n).toNat = n := by
  simp [Nat.mod_eq_of_lt h]

theorem admits_iff {low high n : Nat} (hl : low < 256) (hh : high < 256) (hn : n < 256) :
    (UInt8.ofNat low ≤ UInt8.ofNat n ∧ UInt8.ofNat n ≤ UInt8.ofNat high) ↔ low ≤ n ∧ n ≤ high := by
  rw [UInt8.le_iff_toNat_le, UInt8.le_iff_toNat_le, toNat_ofNat hl, toNat_ofNat hh, toNat_ofNat hn]

/-- A further byte that does not yet complete the character. -/
theorem step_more {low high n : Nat} (missing bits : Nat) (hn : n < 64)
    (hl : low ≤ n + 0x80) (hh : n + 0x80 ≤ high) (hb : high < 256) :
    step (some ⟨missing + 2, .ofNat low, .ofNat high, bits⟩) (.ofNat (n + 0x80)) =
      ([], some ⟨missing + 1, .ofNat 0x80, .ofNat 0xBF, bits * 64 + n⟩) := by
  have hin := (admits_iff (by omega) hb (show n + 0x80 < 256 by omega)).mpr ⟨hl, hh⟩
  simp only [step]
  rw [if_pos hin, if_neg (by omega), toNat_ofNat (by omega)]
  simp

/-- The byte that completes the character. -/
theorem step_last {low high n : Nat} (bits : Nat) (hn : n < 64)
    (hl : low ≤ n + 0x80) (hh : n + 0x80 ≤ high) (hb : high < 256) :
    step (some ⟨1, .ofNat low, .ofNat high, bits⟩) (.ofNat (n + 0x80)) =
      ([Char.ofNat (bits * 64 + n)], none) := by
  have hin := (admits_iff (by omega) hb (show n + 0x80 < 256 by omega)).mpr ⟨hl, hh⟩
  simp only [step]
  rw [if_pos hin, if_pos (Nat.le_refl 1), toNat_ofNat (by omega)]
  simp

/-- What the lead byte of a character of two bytes leaves open. -/
theorem start_two {n : Nat} (hl : 2 ≤ n) (hh : n < 32) :
    start (.ofNat (n + 0xC0)) = ([], some ⟨1, .ofNat 0x80, .ofNat 0xBF, n⟩) := by
  rw [start, toNat_ofNat (by omega), if_neg (by omega), if_neg (by omega), if_pos (by omega)]
  simp

/-- What the lead byte of a character of three bytes leaves open. Short codes and surrogates are
kept out by the bounds of the second byte. -/
theorem start_three : ∀ n < 16, start (.ofNat (n + 0xE0)) = ([], some
    ⟨2, .ofNat (if n = 0 then 0xA0 else 0x80), .ofNat (if n = 13 then 0x9F else 0xBF), n⟩) := by
  decide

/-- What the lead byte of a character of four bytes leaves open. -/
theorem start_four : ∀ n < 5, start (.ofNat (n + 0xF0)) = ([], some
    ⟨3, .ofNat (if n = 0 then 0x90 else 0x80), .ofNat (if n = 4 then 0x8F else 0xBF), n⟩) := by
  decide

theorem decodeFrom_silent {o : Option Open} {b : UInt8} {next : Option Open}
    (h : step o b = ([], next)) (bs : List UInt8) :
    decodeFrom o (b :: bs) = decodeFrom next bs := by
  cases o <;> rw [decodeFrom, h] <;> rfl

theorem decodeFrom_complete {o : Option Open} {b : UInt8} {c : Char}
    (h : step o b = ([c], none)) (bs : List UInt8) :
    decodeFrom o (b :: bs) = c :: decodeFrom none bs := by
  cases o <;> rw [decodeFrom, h] <;> rfl

private theorem decodeFrom_one {v : Nat} (h : v < 0x80) (rest : List UInt8) :
    decodeFrom none (.ofNat v :: rest) = Char.ofNat v :: decodeFrom none rest := by
  apply decodeFrom_complete
  rw [step, start, toNat_ofNat (by omega), if_pos h]

private theorem decodeFrom_two {v : Nat} (hl : 0x80 ≤ v) (hh : v < 0x800) (rest : List UInt8) :
    decodeFrom none (.ofNat (v / 64 + 0xC0) :: .ofNat (v % 64 + 0x80) :: rest) =
      Char.ofNat v :: decodeFrom none rest := by
  have hv : v / 64 * 64 + v % 64 = v := by omega
  have h := start_two (n := v / 64) (by omega) (by omega)
  rw [decodeFrom_silent (o := none) h]
  rw [decodeFrom_complete (step_last _ (by omega) (by omega) (by omega) (by omega)), hv]

private theorem decodeFrom_three {v : Nat} (hl : 0x800 ≤ v) (hh : v < 0x10000)
    (hs : v < 0xD800 ∨ 0xDFFF < v) (rest : List UInt8) :
    decodeFrom none (.ofNat (v / 4096 + 0xE0) :: .ofNat (v / 64 % 64 + 0x80) ::
      .ofNat (v % 64 + 0x80) :: rest) = Char.ofNat v :: decodeFrom none rest := by
  have hv : (v / 4096 * 64 + v / 64 % 64) * 64 + v % 64 = v := by omega
  have h := start_three (v / 4096) (by omega)
  rw [decodeFrom_silent (o := none) h]
  rw [decodeFrom_silent (step_more 0 _ (by omega) (by split <;> omega)
    (by split <;> omega) (by split <;> omega))]
  rw [decodeFrom_complete (step_last _ (by omega) (by omega) (by omega) (by omega)), hv]

private theorem decodeFrom_four {v : Nat} (hl : 0x10000 ≤ v) (hh : v < 0x110000)
    (rest : List UInt8) :
    decodeFrom none (.ofNat (v / 262144 + 0xF0) :: .ofNat (v / 4096 % 64 + 0x80) ::
      .ofNat (v / 64 % 64 + 0x80) :: .ofNat (v % 64 + 0x80) :: rest) =
      Char.ofNat v :: decodeFrom none rest := by
  have hv : ((v / 262144 * 64 + v / 4096 % 64) * 64 + v / 64 % 64) * 64 + v % 64 = v := by omega
  have h := start_four (v / 262144) (by omega)
  rw [decodeFrom_silent (o := none) h]
  rw [decodeFrom_silent (step_more 1 _ (by omega) (by split <;> omega)
    (by split <;> omega) (by split <;> omega))]
  rw [decodeFrom_silent (step_more 0 _ (by omega) (by omega) (by omega) (by omega))]
  rw [decodeFrom_complete (step_last _ (by omega) (by omega) (by omega) (by omega)), hv]

/-- The bytes of a character are read as that character, whatever follows. -/
theorem decodeFrom_encodeChar (c : Char) (rest : List UInt8) :
    decodeFrom none (String.utf8EncodeChar c ++ rest) = c :: decodeFrom none rest := by
  have hvalid : c.val.toNat < 0xD800 ∨ 0xDFFF < c.val.toNat ∧ c.val.toNat < 0x110000 := c.valid
  have hc : Char.ofNat c.val.toNat = c := Char.ofNat_toNat c
  fun_cases String.utf8EncodeChar c
  case case1 v h1 =>
    have h := decodeFrom_one (v := v) (by omega) rest
    rwa [show Char.ofNat v = c from hc] at h
  case case2 v h1 h2 =>
    have h := decodeFrom_two (v := v) (by omega) (by omega) rest
    rw [show Char.ofNat v = c from hc] at h
    rwa [show v / 64 % 0x20 = v / 64 by omega]
  case case3 v h1 h2 h3 =>
    have h := decodeFrom_three (v := v) (by omega) (by omega) (by omega) rest
    rw [show Char.ofNat v = c from hc] at h
    rwa [show v / 4096 % 0x10 = v / 4096 by omega]
  case case4 v h1 h2 h3 =>
    have h := decodeFrom_four (v := v) (by omega) (by omega) rest
    rw [show Char.ofNat v = c from hc] at h
    rwa [show v / 262144 % 0x08 = v / 262144 by omega]

/-- Reading undoes writing. -/
theorem decode_encode (s : List Char) : decode (encode s) = s := by
  induction s with
  | nil => rfl
  | cons c s ih =>
    rw [decode, encode, List.flatMap_cons, decodeFrom_encodeChar]
    exact congrArg (c :: ·) ih

end SqlRecovery.Text.Utf8
