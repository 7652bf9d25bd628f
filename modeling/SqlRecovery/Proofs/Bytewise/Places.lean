import SqlRecovery.Proofs.Bytewise.Nesting
import SqlRecovery.Proofs.Sql.Earliest

/-! A phrase is made of ASCII characters. So the bytes of a text spell it where the text does, and
nowhere within a character, and a search over the bytes finds the places that a search over the
characters finds. -/
namespace SqlRecovery.Bytewise
open Text Sql

/-- A place with its phrase, as a byte position. -/
def placed (s : List Char) (x : Nat × String) : Nat × String := (offset s x.1, x.2)

/-- Whether a name may go on behind the text, or a qualifier ends with it; `g` tells it of the place
before the text. -/
def joins (g : Bool) (s : List Char) : Bool := s.foldl (fun _ c => isNameChar c || c == '.') g

section Spelling
variable {p s : List Char} {k c : Char}

theorem isNameChar_of_not_ascii (h : 0x80 ≤ c.toNat) : isNameChar c = true := by
  simp [isNameChar, h]

theorem sameLetter_not_ascii (hk : k.toNat < 0x80) (hc : 0x80 ≤ c.toNat) :
    sameLetter k c = false := by
  rw [sameLetter, beq_eq_false_iff_ne]
  intro h
  have hnat := congrArg Char.toNat h
  rw [toNat_toLower, toNat_toLower] at hnat
  split at hnat <;> split at hnat <;> omega

theorem exists_bytes (c : Char) : ∃ b bs, bytes [c] = b :: bs :=
  List.exists_cons_of_ne_nil (List.length_pos_iff.mp (size_pos c))

theorem startsName_bytes (s : List Char) : startsName (bytes s) = startsName s := by
  cases s with
  | nil => rfl
  | cons c s =>
    rw [bytes_cons]
    rcases Nat.lt_or_ge c.toNat 0x80 with hc | hc
    · rw [bytes_ascii hc]
      rfl
    · obtain ⟨b, bs, hb⟩ := exists_bytes c
      have hbyte : 0x80 ≤ b.toNat := bytes_not_ascii hc b (by simp [hb])
      rw [hb]
      exact (isNameChar_of_not_ascii hbyte).trans (isNameChar_of_not_ascii hc).symm

/-- The bytes of a text spell what its characters spell. -/
theorem spelled_bytes (hp : ∀ k ∈ p, k.toNat < 0x80) (s : List Char) :
    spelled p (bytes s) = spelled p s := by
  induction p generalizing s with
  | nil =>
    rw [spelled, spelled, startsName_bytes]
  | cons k p ih =>
    rw [List.forall_mem_cons] at hp
    cases s with
    | nil => rfl
    | cons c s =>
      rw [bytes_cons]
      rcases Nat.lt_or_ge c.toNat 0x80 with hc | hc
      · rw [bytes_ascii hc, List.singleton_append, spelled, ih hp.2, spelled]
      · obtain ⟨b, bs, hb⟩ := exists_bytes c
        have hbyte : 0x80 ≤ b.toNat := bytes_not_ascii hc b (by simp [hb])
        rw [hb, List.cons_append, spelled, spelled, sameLetter_not_ascii hp.1 hbyte,
          sameLetter_not_ascii hp.1 hc, Bool.false_and, Bool.false_and]

theorem joins_append (g : Bool) (s t : List Char) : joins g (s ++ t) = joins (joins g s) t :=
  List.foldl_append

theorem joins_of_not_ascii {bs : List Char} (h : ∀ b ∈ bs, 0x80 ≤ b.toNat) (hne : bs ≠ [])
    (g : Bool) : joins g bs = true := by
  induction bs generalizing g with
  | nil => exact absurd rfl hne
  | cons b bs ih =>
    rw [List.forall_mem_cons] at h
    change joins (isNameChar b || b == '.') bs = true
    rw [isNameChar_of_not_ascii h.1]
    cases bs with
    | nil => rfl
    | cons b' bs => exact ih h.2 (List.cons_ne_nil b' bs) _

theorem joins_bytes (g : Bool) (s : List Char) : joins g (bytes s) = joins g s := by
  induction s generalizing g with
  | nil => rfl
  | cons c s ih =>
    rw [bytes_cons, joins_append, ih]
    change joins (joins g (bytes [c])) s = joins (isNameChar c || c == '.') s
    rcases Nat.lt_or_ge c.toNat 0x80 with hc | hc
    · rw [bytes_ascii hc]
      rfl
    · rw [joins_of_not_ascii (bytes_not_ascii hc) (List.length_pos_iff.mp (size_pos c)),
        isNameChar_of_not_ascii hc, Bool.true_or]

end Spelling

section Hit
variable {s : List Char} {p : String} {i n : Nat}

theorem ascii_of_worded (hp : Worded p) : ∀ k ∈ p.toList, k.toNat < 0x80 := by
  have hphrase : ∀ {g : Bool} {q : List Char}, isPhrase g q = true →
      ∀ k ∈ q, k.toNat < 0x80 := by
    intro g q hq
    induction q generalizing g with
    | nil => exact List.forall_mem_nil _
    | cons k q ih =>
      rw [isPhrase] at hq
      split at hq
      case isTrue hk =>
        obtain rfl := beq_iff_eq.mp hk
        exact List.forall_mem_cons.mpr ⟨by decide, ih (Bool.and_eq_true_iff.mp hq).2⟩
      case isFalse =>
        obtain ⟨halpha, hrest⟩ := Bool.and_eq_true_iff.mp hq
        have hletter := (isAlpha_iff k).mp halpha
        exact List.forall_mem_cons.mpr ⟨by omega, ih hrest⟩
  exact hphrase hp

private theorem drop_spots (m : Nesting) (g : Bool) (s : List Char) (i : Nat) :
    (Scan.spots m g s).drop i =
      Scan.spots (m.after (s.take i)) (joins g (s.take i)) (s.drop i) := by
  induction s generalizing m g i with
  | nil => simp [Scan.spots]
  | cons c s ih =>
    cases i with
    | zero => rfl
    | succ i =>
      rw [Scan.spots, List.drop_succ_cons, ih]
      rfl

private theorem beginsWith_spots (p : List Char) (m : Nesting) (g : Bool) (s : List Char) :
    Scan.beginsWith p (Scan.spots m g s) = (m.isTop && !g && !p.isEmpty && spelled p s) := by
  rw [← spells_spots p m g s]
  cases s with
  | nil => cases p <;> simp [Scan.beginsWith, Scan.spots, Scan.spells]
  | cons c s => rfl

/-- A phrase is found at the beginning if it is spelled there. -/
theorem hit_zero_iff (hp : Worded p) : Hit s p 0 ↔ spelled p.toList s = true := by
  obtain ⟨k, q, hpk, -⟩ := exists_of_isPhrase hp
  rw [Hit, Scan.ofText, List.drop_zero, beginsWith_spots, hpk]
  exact Iff.rfl

theorem take_bytes (s : List Char) (i : Nat) : (bytes s).take (offset s i) = bytes (s.take i) := by
  conv => lhs; rw [← List.take_append_drop i s, bytes_append]
  rw [List.take_append_drop]
  exact List.take_left' rfl

theorem drop_bytes (s : List Char) (i : Nat) : (bytes s).drop (offset s i) = bytes (s.drop i) := by
  conv => lhs; rw [← List.take_append_drop i s, bytes_append]
  rw [List.take_append_drop]
  exact List.drop_left' rfl

/-- A phrase is found between the same characters. -/
theorem hit_offset (hp : Worded p) : Hit (bytes s) p (offset s i) ↔ Hit s p i := by
  rw [Hit, Hit, Scan.ofText, Scan.ofText, drop_spots, drop_spots, beginsWith_spots,
    beginsWith_spots, take_bytes, drop_bytes, after_bytes, joins_bytes,
    spelled_bytes (ascii_of_worded hp)]

/-- No phrase is found within a character. -/
theorem exists_of_hit (hp : Worded p) (h : Hit (bytes s) p n) :
    ∃ i < s.length, n = offset s i ∧ Hit s p i := by
  have hwhole := hit_iff_wholeWords.mp h
  have hn : n < size s := by
    have hend : n + p.length ≤ (bytes s).length := hwhole.end_le
    exact Nat.lt_of_lt_of_le (Nat.lt_add_of_pos_right hp.length_pos) hend
  rcases edge_or hn with ⟨i, hi, rfl⟩ | ⟨b, hb, hbyte⟩
  · exact ⟨i, hi, rfl, (hit_offset hp).mp h⟩
  · obtain ⟨k, q, hpk, -⟩ := exists_of_isPhrase hp
    have hletters := hwhole.letters
    obtain ⟨hlt, rfl⟩ := List.getElem?_eq_some_iff.mp hb
    have hk := ascii_of_worded hp k (by simp [hpk])
    rw [hpk, List.length_cons, List.drop_eq_getElem_cons hlt, List.take_succ_cons,
      sameLetters_cons, sameLetter_not_ascii hk hbyte] at hletters
    cases hletters

/-- A phrase that is found is as long in bytes as in characters. -/
theorem offset_hit (hp : Worded p) (h : Hit s p i) :
    offset s (i + p.length) = offset s i + p.length := by
  have hsize : ∀ {q x : List Char}, (∀ k ∈ q, k.toNat < 0x80) → sameLetters q x = true →
      size x = q.length := by
    intro q x hq hx
    induction q generalizing x with
    | nil =>
      obtain rfl := List.length_eq_zero_iff.mp (length_of_sameLetters hx)
      rfl
    | cons k q ih =>
      rw [List.forall_mem_cons] at hq
      cases x with
      | nil => cases hx
      | cons c x =>
        rw [sameLetters_cons, Bool.and_eq_true] at hx
        have hc : c.toNat < 0x80 := by
          refine Nat.lt_of_not_le fun hc => ?_
          rw [sameLetter_not_ascii hq.1 hc] at hx
          cases hx.1
        rw [size_cons, size_ascii hc, ih hq.2 hx.2, List.length_cons, Nat.add_comm]
  have hletters := hsize (ascii_of_worded hp) (hit_iff_wholeWords.mp h).letters
  rw [offset_add, ← String.length_toList, hletters]

theorem end_le_of_hit (h : Hit s p i) : i + p.length ≤ s.length :=
  (hit_iff_wholeWords.mp h).end_le

end Hit

section Find
variable {s : List Char} {p : String} {phrases : List String} {a b i k : Nat}

theorem find_le (h : (Scan.ofText s).find p a b = some i) :
    a ≤ i ∧ i + p.length ≤ b ∧ i + p.length ≤ s.length ∧ Hit s p i := by
  obtain ⟨hwithin, -⟩ := find_within h
  exact ⟨hwithin.start, hwithin.stop, hwithin.stands.end_le, hit_iff_wholeWords.mpr hwithin.stands⟩

/-- A search over the bytes finds what a search over the characters finds. -/
theorem find_offset (hp : Worded p) (ha : a ≤ s.length) (hb : b ≤ s.length) :
    (Scan.ofText (bytes s)).find p (offset s a) (offset s b) =
      ((Scan.ofText s).find p a b).map (offset s) := by
  have hstop : offset s b ≤ (bytes s).length := offset_le_size s b
  cases h : (Scan.ofText s).find p a b with
  | none =>
    refine find_of_no_hit hstop fun n han hnb hbytes => ?_
    obtain ⟨i, -, rfl, hit⟩ := exists_of_hit hp hbytes
    rw [← offset_hit hp hit, offset_le_iff (end_le_of_hit hit)] at hnb
    exact find_eq_none hb h ((offset_le_iff ha).mp han) hnb hit
  | some i =>
    obtain ⟨hai, hib, hit, hleast⟩ := find_eq_some hb h
    refine find_of_hit hstop (offset_le hai) ?_ ((hit_offset hp).mpr hit) fun n han hni hbytes => ?_
    · rw [← offset_hit hp hit]
      exact offset_le hib
    · obtain ⟨j, -, rfl, hit'⟩ := exists_of_hit hp hbytes
      have hij := hleast j ((offset_le_iff ha).mp han) hit'
      exact Nat.not_lt.mpr (offset_le hij) hni

private theorem leftmost_placed {xs : List (Nat × String)} (h : ∀ x ∈ xs, x.1 ≤ s.length) :
    Scan.leftmost (xs.map (placed s)) = (Scan.leftmost xs).map (placed s) ∧
      ∀ x ∈ Scan.leftmost xs, x.1 ≤ s.length := by
  induction xs with
  | nil => exact ⟨rfl, fun x hx => by cases hx⟩
  | cons x xs ih =>
    rw [List.forall_mem_cons] at h
    obtain ⟨hmap, hle⟩ := ih h.2
    rw [List.map_cons, Scan.leftmost, Scan.leftmost, hmap]
    cases hy : Scan.leftmost xs with
    | none => exact ⟨rfl, fun z hz => by cases hz; exact h.1⟩
    | some y =>
      rw [hy] at hle
      have hlt : (placed s y).1 < (placed s x).1 ↔ y.1 < x.1 := offset_lt_iff h.1
      simp only [Option.map_some, hlt]
      split
      · exact ⟨rfl, hle⟩
      · exact ⟨rfl, fun z hz => by cases hz; exact h.1⟩

theorem first_offset (hp : ∀ p ∈ phrases, Worded p) (ha : a ≤ s.length) (hb : b ≤ s.length) :
    (Scan.ofText (bytes s)).first phrases (offset s a) (offset s b) =
      ((Scan.ofText s).first phrases a b).map (placed s) := by
  have hmap : (phrases.filterMap fun p =>
      ((Scan.ofText (bytes s)).find p (offset s a) (offset s b)).map (·, p)) =
      (phrases.filterMap fun p => ((Scan.ofText s).find p a b).map (·, p)).map (placed s) := by
    rw [List.map_filterMap]
    refine List.filterMap_congr fun p hmem => ?_
    rw [find_offset (hp p hmem) ha hb, Option.map_map, Option.map_map]
    rfl
  rw [Scan.first, hmap, Scan.first]
  refine (leftmost_placed fun x hx => ?_).1
  obtain ⟨p, -, hx⟩ := List.mem_filterMap.mp hx
  obtain ⟨i, hi, rfl⟩ := Option.map_eq_some_iff.mp hx
  have hend := (find_le hi).2.2.1
  dsimp only
  omega

theorem first_le (h : (Scan.ofText s).first phrases a b = some (i, p)) :
    p ∈ phrases ∧ a ≤ i ∧ i + p.length ≤ b ∧ i + p.length ≤ s.length ∧ Hit s p i := by
  have hearliest := earliest_first s phrases a b
  rw [h] at hearliest
  cases hearliest with
  | some listed stands =>
    exact ⟨by simp [listed], stands.start, stands.stop, stands.stands.end_le,
      hit_iff_wholeWords.mpr stands.stands⟩

/-- A forward search over the bytes finds, one after the other, what one over the characters
finds. -/
theorem hits_offset (hp : ∀ p ∈ phrases, Worded p) (hk : k ≤ s.length) (hb : b ≤ s.length) :
    (Cursor.fresh (Scan.ofText (bytes s)) phrases (offset s b)).hits (offset s k) =
      ((Cursor.fresh (Scan.ofText s) phrases b).hits k).map (placed s) := by
  have hbytes : offset s b ≤ (bytes s).length := offset_le_size s b
  induction hroom : s.length - k using Nat.strongRecOn generalizing k with
  | ind room ih =>
    subst hroom
    have hfirst := first_offset hp hk hb
    cases h : (Scan.ofText s).first phrases k b with
    | none =>
      rw [h] at hfirst
      rw [hits_eq_nil h, hits_eq_nil hfirst, List.map_nil]
    | some x =>
      obtain ⟨i, p⟩ := x
      obtain ⟨hmem, hki, -, hend, hit⟩ := first_le h
      have hpos := (hp p hmem).length_pos
      rw [h] at hfirst
      rw [hits_eq_cons hb hp h, hits_eq_cons hbytes hp hfirst, List.map_cons,
        ← ih _ (by omega) hend rfl, offset_hit (hp p hmem) hit]
      rfl

end Find

end SqlRecovery.Bytewise
