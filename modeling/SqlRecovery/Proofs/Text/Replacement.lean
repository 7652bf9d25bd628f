import Mathlib.Data.List.Induction
import Mathlib.Tactic.SplitIfs
import SqlRecovery.Proofs.Text.Utf8

/-! What is read from bytes that need not be UTF-8, said by the characters and their bytes alone. The
bytes are characters and broken parts. A broken part is as long as it can be: it is cut off from a
character, or is a single byte that no character begins with. -/
namespace SqlRecovery.Text.Utf8

/-- A character begins with the bytes, or they are all of one. -/
def Begins (bytes : List UInt8) : Prop := ∃ c, bytes <+: String.utf8EncodeChar c

theorem begins_encodeChar (c : Char) : Begins (String.utf8EncodeChar c) := ⟨c, List.prefix_rfl⟩

theorem Begins.left {first second : List UInt8} (h : Begins (first ++ second)) : Begins first := by
  obtain ⟨c, hc⟩ := h
  exact ⟨c, (List.prefix_append first second).trans hc⟩

/-- The bytes `part` in front of `rest` are no character, and no character begins with them and the
byte behind them. They are the beginning of one, or a single byte. -/
structure Broken (part rest : List UInt8) : Prop where
  nonempty : part ≠ []
  incomplete : ∀ c, String.utf8EncodeChar c ≠ part
  begun : Begins part ∨ part.length = 1
  stuck : ∀ b ∈ rest.head?, ¬ Begins (part ++ [b])

/-- The bytes are read as the text: each character as itself, each broken part as one replacement
character. -/
inductive Reads : List UInt8 → List Char → Prop
  | nil : Reads [] []
  | char (c : Char) {bytes : List UInt8} {s : List Char} (h : Reads bytes s) :
    Reads (String.utf8EncodeChar c ++ bytes) (c :: s)
  | broken {part bytes : List UInt8} {s : List Char} (hpart : Broken part bytes)
    (h : Reads bytes s) : Reads (part ++ bytes) ('\uFFFD' :: s)

section Characters

private theorem val_ofNat {v : Nat} (h : v < 0xD800 ∨ 0xDFFF < v ∧ v < 0x110000) :
    (Char.ofNat v).val.toNat = v := by
  rw [Char.ofNat, dif_pos h]
  rfl

private theorem encodeChar_two {n k : Nat} (hl : 2 ≤ n) (hh : n < 32) (hk : k < 64) :
    String.utf8EncodeChar (Char.ofNat (n * 64 + k)) = [.ofNat (n + 0xC0), .ofNat (k + 0x80)] := by
  rw [String.utf8EncodeChar, val_ofNat (by omega), if_neg (by omega), if_pos (by omega)]
  congr 3 <;> omega

private theorem encodeChar_three {n j k : Nat} (hn : n < 16) (hj : j < 64) (hk : k < 64)
    (hshort : n = 0 → 32 ≤ j) (hsurrogate : n = 13 → j < 32) :
    String.utf8EncodeChar (Char.ofNat ((n * 64 + j) * 64 + k)) =
      [.ofNat (n + 0xE0), .ofNat (j + 0x80), .ofNat (k + 0x80)] := by
  rw [String.utf8EncodeChar, val_ofNat (by omega), if_neg (by omega), if_neg (by omega), if_pos (by omega)]
  congr 4 <;> omega

private theorem encodeChar_four {n i j k : Nat} (hn : n < 5) (hi : i < 64) (hj : j < 64)
    (hk : k < 64) (hshort : n = 0 → 16 ≤ i) (hlarge : n = 4 → i < 16) :
    String.utf8EncodeChar (Char.ofNat (((n * 64 + i) * 64 + j) * 64 + k)) =
      [.ofNat (n + 0xF0), .ofNat (i + 0x80), .ofNat (j + 0x80), .ofNat (k + 0x80)] := by
  rw [String.utf8EncodeChar, val_ofNat (by omega), if_neg (by omega), if_neg (by omega), if_neg (by omega)]
  congr 5 <;> omega

end Characters

/-- What is open behind the first bytes of a character. -/
private inductive Opens : List UInt8 → Open → Prop
  | two {n : Nat} (hl : 2 ≤ n) (hh : n < 32) :
    Opens [.ofNat (n + 0xC0)] ⟨1, .ofNat 0x80, .ofNat 0xBF, n⟩
  | three {n : Nat} (hn : n < 16) : Opens [.ofNat (n + 0xE0)]
    ⟨2, .ofNat (if n = 0 then 0xA0 else 0x80), .ofNat (if n = 13 then 0x9F else 0xBF), n⟩
  | threeMore {n j : Nat} (hn : n < 16) (hj : j < 64) (hshort : n = 0 → 32 ≤ j)
    (hsurrogate : n = 13 → j < 32) : Opens [.ofNat (n + 0xE0), .ofNat (j + 0x80)]
    ⟨1, .ofNat 0x80, .ofNat 0xBF, n * 64 + j⟩
  | four {n : Nat} (hn : n < 5) : Opens [.ofNat (n + 0xF0)]
    ⟨3, .ofNat (if n = 0 then 0x90 else 0x80), .ofNat (if n = 4 then 0x8F else 0xBF), n⟩
  | fourMore {n i : Nat} (hn : n < 5) (hi : i < 64) (hshort : n = 0 → 16 ≤ i)
    (hlarge : n = 4 → i < 16) : Opens [.ofNat (n + 0xF0), .ofNat (i + 0x80)]
    ⟨2, .ofNat 0x80, .ofNat 0xBF, n * 64 + i⟩
  | fourLast {n i j : Nat} (hn : n < 5) (hi : i < 64) (hj : j < 64) (hshort : n = 0 → 16 ≤ i)
    (hlarge : n = 4 → i < 16) :
    Opens [.ofNat (n + 0xF0), .ofNat (i + 0x80), .ofNat (j + 0x80)]
    ⟨1, .ofNat 0x80, .ofNat 0xBF, (n * 64 + i) * 64 + j⟩

section Steps
variable {part : List UInt8} {o : Open}

/-- A first byte is a character, or is replaced, or opens one. -/
private theorem start_cases (b : UInt8) :
    (∃ c, String.utf8EncodeChar c = [b] ∧ start b = ([c], none)) ∨
      start b = ([replacement], none) ∨ ∃ o, Opens [b] o ∧ start b = ([], some o) := by
  obtain ⟨n, hn, rfl⟩ : ∃ n < 256, b = .ofNat n := ⟨b.toNat, b.toNat_lt, UInt8.ofNat_toNat.symm⟩
  have hbyte := toNat_ofNat hn
  obtain hone | hlow | htwo | hthree | hfour | hhigh : n < 0x80 ∨ (0x80 ≤ n ∧ n < 0xC2) ∨
      (0xC2 ≤ n ∧ n < 0xE0) ∨ (0xE0 ≤ n ∧ n < 0xF0) ∨ (0xF0 ≤ n ∧ n < 0xF5) ∨ 0xF5 ≤ n := by
    omega
  · refine .inl ⟨Char.ofNat n, ?_, ?_⟩
    · rw [String.utf8EncodeChar, val_ofNat (by omega), if_pos (by omega)]
    · rw [start, hbyte, if_pos hone]
  · refine .inr (.inl ?_)
    rw [start, hbyte, if_neg (by omega), if_pos hlow.2]
  · obtain ⟨k, rfl⟩ : ∃ k, n = k + 0xC0 := ⟨n - 0xC0, by omega⟩
    exact .inr (.inr ⟨_, .two (by omega) (by omega), start_two (by omega) (by omega)⟩)
  · obtain ⟨k, rfl⟩ : ∃ k, n = k + 0xE0 := ⟨n - 0xE0, by omega⟩
    exact .inr (.inr ⟨_, .three (by omega), start_three k (by omega)⟩)
  · obtain ⟨k, rfl⟩ : ∃ k, n = k + 0xF0 := ⟨n - 0xF0, by omega⟩
    exact .inr (.inr ⟨_, .four (by omega), start_four k (by omega)⟩)
  · refine .inr (.inl ?_)
    rw [start, hbyte, if_neg (by omega), if_neg (by omega), if_neg (by omega), if_neg (by omega),
      if_neg (by omega), if_neg (by omega), if_neg (by omega), if_neg (by omega), if_neg (by omega)]

/-- A byte between bounds that leave six bits. -/
private theorem exists_bits {low high : Nat} {b : UInt8} (hlow : 0x80 ≤ low) (hhigh : high ≤ 0xBF)
    (h : low < 256) (hin : UInt8.ofNat low ≤ b ∧ b ≤ UInt8.ofNat high) :
    ∃ k < 64, b = .ofNat (k + 0x80) ∧ low ≤ k + 0x80 ∧ k + 0x80 ≤ high := by
  obtain ⟨n, hn, rfl⟩ : ∃ n < 256, b = .ofNat n := ⟨b.toNat, b.toNat_lt, UInt8.ofNat_toNat.symm⟩
  have hbounds := (admits_iff h (by omega) hn).mp hin
  obtain ⟨k, rfl⟩ : ∃ k, n = k + 0x80 := ⟨n - 0x80, by omega⟩
  exact ⟨k, by omega, rfl, hbounds⟩

/-- A further byte completes the character, or leaves it open, or does not belong to it. -/
private theorem step_cases (h : Opens part o) (b : UInt8) :
    (∃ c, String.utf8EncodeChar c = part ++ [b] ∧ step (some o) b = ([c], none)) ∨
      (∃ next, Opens (part ++ [b]) next ∧ step (some o) b = ([], some next)) ∨
      step (some o) b = (replacement :: (start b).1, (start b).2) := by
  by_cases hin : o.low ≤ b ∧ b ≤ o.high
  case neg => exact .inr (.inr (if_neg hin))
  cases h with
  | two hl hh =>
    obtain ⟨k, hk, rfl, hlow, hhigh⟩ := exists_bits (by omega) (by omega) (by omega) hin
    exact .inl ⟨_, encodeChar_two hl hh hk, step_last _ hk hlow hhigh (by omega)⟩
  | @three n hn =>
    obtain ⟨k, hk, rfl, hlow, hhigh⟩ :=
      exists_bits (by split <;> omega) (by split <;> omega) (by split <;> omega) hin
    refine .inr (.inl ⟨_, .threeMore hn hk ?_ ?_, step_more 0 _ hk hlow hhigh ?_⟩)
    · rintro rfl
      rw [if_pos rfl] at hlow
      omega
    · rintro rfl
      rw [if_pos rfl] at hhigh
      omega
    · split <;> omega
  | threeMore hn hj hshort hsurrogate =>
    obtain ⟨k, hk, rfl, hlow, hhigh⟩ := exists_bits (by omega) (by omega) (by omega) hin
    exact .inl ⟨_, encodeChar_three hn hj hk hshort hsurrogate,
      step_last _ hk hlow hhigh (by omega)⟩
  | @four n hn =>
    obtain ⟨k, hk, rfl, hlow, hhigh⟩ :=
      exists_bits (by split <;> omega) (by split <;> omega) (by split <;> omega) hin
    refine .inr (.inl ⟨_, .fourMore hn hk ?_ ?_, step_more 1 _ hk hlow hhigh ?_⟩)
    · rintro rfl
      rw [if_pos rfl] at hlow
      omega
    · rintro rfl
      rw [if_pos rfl] at hhigh
      omega
    · split <;> omega
  | fourMore hn hi hshort hlarge =>
    obtain ⟨k, hk, rfl, hlow, hhigh⟩ := exists_bits (by omega) (by omega) (by omega) hin
    exact .inr (.inl ⟨_, .fourLast hn hi hk hshort hlarge,
      step_more 0 _ hk hlow hhigh (by omega)⟩)
  | fourLast hn hi hj hshort hlarge =>
    obtain ⟨k, hk, rfl, hlow, hhigh⟩ := exists_bits (by omega) (by omega) (by omega) hin
    exact .inl ⟨_, encodeChar_four hn hi hj hk hshort hlarge,
      step_last _ hk hlow hhigh (by omega)⟩

/-- A character can be made of what is open, and not without more bytes. -/
private theorem Opens.exists_char (h : Opens part o) :
    ∃ c more, more ≠ [] ∧ String.utf8EncodeChar c = part ++ more := by
  have hnone : (0 : Nat) < 64 := by decide
  cases h with
  | two hl hh => exact ⟨_, _, List.cons_ne_nil _ _, encodeChar_two hl hh hnone⟩
  | @three n hn =>
    by_cases h0 : n = 0
    · exact ⟨_, _, List.cons_ne_nil _ _, encodeChar_three (j := 32) hn (by decide) hnone
        (fun _ => Nat.le_refl _) (by omega)⟩
    · exact ⟨_, _, List.cons_ne_nil _ _, encodeChar_three (j := 0) hn (by decide) hnone
        (by omega) (by omega)⟩
  | threeMore hn hj hshort hsurrogate =>
    exact ⟨_, _, List.cons_ne_nil _ _, encodeChar_three hn hj hnone hshort hsurrogate⟩
  | @four n hn =>
    by_cases h0 : n = 0
    · exact ⟨_, _, List.cons_ne_nil _ _, encodeChar_four (i := 16) hn (by decide) hnone hnone
        (fun _ => Nat.le_refl _) (by omega)⟩
    · exact ⟨_, _, List.cons_ne_nil _ _, encodeChar_four (i := 0) hn (by decide) hnone hnone
        (by omega) (by omega)⟩
  | fourMore hn hi hshort hlarge =>
    exact ⟨_, _, List.cons_ne_nil _ _, encodeChar_four hn hi hnone hnone hshort hlarge⟩
  | fourLast hn hi hj hshort hlarge =>
    exact ⟨_, _, List.cons_ne_nil _ _, encodeChar_four hn hi hj hnone hshort hlarge⟩

private theorem Opens.begins (h : Opens part o) : Begins part := by
  obtain ⟨c, more, -, hc⟩ := h.exists_char
  exact ⟨c, more, hc.symm⟩

end Steps

section Nonempty

private theorem decodeFrom_cons (o : Option Open) (b : UInt8) (bytes : List UInt8) :
    decodeFrom o (b :: bytes) = (step o b).1 ++ decodeFrom (step o b).2 bytes := by
  cases o <;> rfl

/-- A byte of which nothing is read leaves a character open. -/
private theorem exists_open {o : Option Open} {b : UInt8} (h : (step o b).1 = []) :
    ∃ next, (step o b).2 = some next := by
  cases o with
  | none =>
    rcases start_cases b with ⟨c, -, hstart⟩ | hstart | ⟨next, -, hstart⟩
    · rw [step, hstart] at h
      cases h
    · rw [step, hstart] at h
      cases h
    · exact ⟨next, by rw [step, hstart]⟩
  | some o =>
    rw [step] at h ⊢
    split_ifs at h ⊢
    exact ⟨_, rfl⟩

private theorem decodeFrom_ne_nil (o : Option Open) (b : UInt8) (bytes : List UInt8) :
    decodeFrom o (b :: bytes) ≠ [] := by
  induction bytes generalizing o b with
  | nil =>
    intro h
    rw [decodeFrom_cons, List.append_eq_nil_iff] at h
    obtain ⟨next, hnext⟩ := exists_open h.1
    rw [hnext] at h
    cases h.2
  | cons b' bytes ih =>
    intro h
    rw [decodeFrom_cons, List.append_eq_nil_iff] at h
    exact ih _ _ h.2

/-- Nothing is read only from nothing. -/
theorem decode_eq_nil_iff {bytes : List UInt8} : decode bytes = [] ↔ bytes = [] := by
  cases bytes with
  | nil => exact iff_of_true rfl rfl
  | cons b bytes => exact iff_of_false (decodeFrom_ne_nil none b bytes) (List.cons_ne_nil b bytes)

theorem decode_encodeChar_append (c : Char) (bytes : List UInt8) :
    decode (String.utf8EncodeChar c ++ bytes) = c :: decode bytes :=
  decodeFrom_encodeChar c bytes

/-- No character goes on behind another one. -/
theorem eq_nil_of_encodeChar_append {c d : Char} {more : List UInt8}
    (h : String.utf8EncodeChar c = String.utf8EncodeChar d ++ more) : more = [] := by
  have hc := decode_encodeChar_append c []
  rw [List.append_nil, h, decode_encodeChar_append] at hc
  exact decode_eq_nil_iff.mp (List.cons.inj hc).2

/-- No character begins with bytes that are read as a replacement character and more. -/
private theorem not_begins_of_decode {bytes : List UInt8}
    (h : ∀ tail, ∃ rest, rest ≠ [] ∧ decode (bytes ++ tail) = replacement :: rest) :
    ¬ Begins bytes := by
  rintro ⟨c, tail, htail⟩
  obtain ⟨rest, hne, hrest⟩ := h tail
  have hc := decode_encodeChar_append c []
  rw [List.append_nil, ← htail, hrest] at hc
  exact hne (List.cons.inj hc).2

end Nonempty

section Inside
variable {part : List UInt8} {o : Open} {b : UInt8}

/-- The bytes are the first ones of a character, and what follows is read as its continuation. -/
private structure Inside (part : List UInt8) (o : Open) : Prop where
  opens : Opens part o
  continued : ∀ bytes, decode (part ++ bytes) = decodeFrom (some o) bytes

private theorem inside_start (h : Opens [b] o) (hstart : start b = ([], some o)) : Inside [b] o where
  opens := h
  continued bytes := decodeFrom_silent (o := none) hstart bytes

private theorem Inside.more (h : Inside part o) {next : Open} (hopens : Opens (part ++ [b]) next)
    (hstep : step (some o) b = ([], some next)) : Inside (part ++ [b]) next where
  opens := hopens
  continued bytes := by
    rw [List.append_assoc, List.singleton_append, h.continued, decodeFrom_silent hstep]

/-- A byte that does not belong to an open character replaces it and is read anew. -/
private theorem Inside.decode_of_replaced (h : Inside part o)
    (hstep : step (some o) b = (replacement :: (start b).1, (start b).2)) (bytes : List UInt8) :
    decode (part ++ b :: bytes) = replacement :: decode (b :: bytes) := by
  rw [h.continued, decodeFrom, hstep]
  rfl

private theorem Inside.not_begins (h : Inside part o)
    (hstep : step (some o) b = (replacement :: (start b).1, (start b).2)) :
    ¬ Begins (part ++ [b]) := by
  apply not_begins_of_decode
  intro tail
  refine ⟨decode (b :: tail), decodeFrom_ne_nil none b tail, ?_⟩
  rw [List.append_assoc, List.singleton_append, h.decode_of_replaced hstep]

/-- What is open and is not continued is broken. -/
private theorem Inside.broken (h : Inside part o) {rest : List UInt8}
    (hstuck : ∀ b ∈ rest.head?, ¬ Begins (part ++ [b])) : Broken part rest := by
  obtain ⟨c, more, hmore, hc⟩ := h.opens.exists_char
  refine ⟨?_, ?_, .inl h.opens.begins, hstuck⟩
  · cases h.opens <;> exact List.cons_ne_nil _ _
  · rintro d rfl
    exact hmore (eq_nil_of_encodeChar_append hc)

/-- No character begins with a byte that is replaced at once. -/
private theorem not_begins_of_start (h : start b = ([replacement], none)) : ¬ Begins [b] := by
  rintro ⟨c, tail, htail⟩
  have hc := decode_encodeChar_append c []
  rw [List.append_nil, ← htail, List.singleton_append, decode, decodeFrom_complete (o := none) h] at hc
  obtain ⟨rfl, hrest⟩ := List.cons.inj hc
  obtain rfl := decode_eq_nil_iff.mp hrest
  cases htail

private theorem broken_of_start (h : start b = ([replacement], none)) (rest : List UInt8) :
    Broken [b] rest where
  nonempty := List.cons_ne_nil b []
  incomplete c hc := not_begins_of_start h (hc ▸ begins_encodeChar c)
  begun := .inr rfl
  stuck _ _ hbegins := not_begins_of_start h hbegins.left

end Inside

/-- Bytes are read as the characters that they are and as replacement characters for broken parts. -/
theorem reads_decode (bytes : List UInt8) : Reads bytes (decode bytes) := by
  -- What is read behind an open character is told together with it.
  suffices h : Reads bytes (decode bytes) ∧ ∀ part o, Inside part o →
      Reads (part ++ bytes) (decodeFrom (some o) bytes) from h.1
  induction bytes with
  | nil => exact ⟨.nil, fun part o h => .broken (h.broken nofun) .nil⟩
  | cons b bytes ih =>
    obtain ⟨ihread, ihopen⟩ := ih
    have hread : Reads (b :: bytes) (decode (b :: bytes)) := by
      rcases start_cases b with ⟨c, hc, hstart⟩ | hstart | ⟨o, ho, hstart⟩
      · have h := ihread.char c
        rw [hc] at h
        rwa [decode, decodeFrom_complete (o := none) hstart]
      · rw [decode, decodeFrom_complete (o := none) hstart]
        exact .broken (broken_of_start hstart bytes) ihread
      · rw [decode, decodeFrom_silent (o := none) hstart]
        exact ihopen [b] o (inside_start ho hstart)
    refine ⟨hread, fun part o h => ?_⟩
    rcases step_cases h.opens b with ⟨c, hc, hstep⟩ | ⟨next, hnext, hstep⟩ | hstep
    · rw [decodeFrom_complete hstep, List.append_cons, ← hc]
      exact ihread.char c
    · rw [decodeFrom_silent hstep, List.append_cons]
      exact ihopen _ next (h.more hnext hstep)
    · rw [← h.continued, h.decode_of_replaced hstep]
      refine .broken (h.broken ?_) hread
      rintro _ ⟨⟩
      exact h.not_begins hstep

/-- The beginning of a character leaves it open. -/
private theorem exists_inside {part : List UInt8} (hne : part ≠ []) (hbegins : Begins part)
    (hincomplete : ∀ c, String.utf8EncodeChar c ≠ part) : ∃ o, Inside part o := by
  induction part using List.reverseRecOn with
  | nil => exact absurd rfl hne
  | append_singleton init b ih =>
    rcases eq_or_ne init [] with rfl | hinit
    · rcases start_cases b with ⟨c, hc, -⟩ | hstart | ⟨o, ho, hstart⟩
      · exact absurd hc (hincomplete c)
      · exact absurd hbegins (not_begins_of_start hstart)
      · exact ⟨o, inside_start ho hstart⟩
    · have hshorter : ∀ c, String.utf8EncodeChar c ≠ init := by
        rintro d rfl
        obtain ⟨c, tail, htail⟩ := hbegins
        rw [List.append_assoc] at htail
        cases eq_nil_of_encodeChar_append htail.symm
      obtain ⟨o, ho⟩ := ih hinit hbegins.left hshorter
      rcases step_cases ho.opens b with ⟨d, hd, -⟩ | ⟨next, hnext, hstep⟩ | hstep
      · exact absurd hd (hincomplete d)
      · exact ⟨next, ho.more hnext hstep⟩
      · exact absurd hbegins (ho.not_begins hstep)

/-- A broken part is read as one replacement character. -/
private theorem decode_broken {part rest : List UInt8} (h : Broken part rest) :
    decode (part ++ rest) = replacement :: decode rest := by
  by_cases hbegins : Begins part
  · obtain ⟨o, ho⟩ := exists_inside h.nonempty hbegins h.incomplete
    cases rest with
    | nil => exact ho.continued []
    | cons b rest =>
      have hstuck := h.stuck b rfl
      rcases step_cases ho.opens b with ⟨c, hc, -⟩ | ⟨next, hnext, -⟩ | hstep
      · exact absurd (hc ▸ begins_encodeChar c) hstuck
      · exact absurd hnext.begins hstuck
      · exact ho.decode_of_replaced hstep rest
  · obtain ⟨b, rfl⟩ := List.length_eq_one_iff.mp (h.begun.resolve_left hbegins)
    rcases start_cases b with ⟨c, hc, -⟩ | hstart | ⟨o, ho, -⟩
    · exact absurd hc (h.incomplete c)
    · exact decodeFrom_complete (o := none) hstart rest
    · exact absurd ho.begins hbegins

/-- Every stream of bytes is read as exactly one text. -/
theorem reads_iff {bytes : List UInt8} {s : List Char} : Reads bytes s ↔ s = decode bytes := by
  constructor
  · intro h
    induction h with
    | nil => rfl
    | char c h ih => rw [decode_encodeChar_append, ih]
    | broken hpart h ih =>
      rw [decode_broken hpart, ih]
      rfl
  · rintro rfl
    exact reads_decode bytes

end SqlRecovery.Text.Utf8
