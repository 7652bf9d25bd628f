import SqlRecovery.Proofs.Text.Ascii
import SqlRecovery.Text.CaseFolding
import SqlRecovery.Text.WordChar

/-! Case folding keeps blanks apart from other characters, and hardly any character outside ASCII
folds to one of ASCII. -/
namespace SqlRecovery.Text

/-- The same text, up to simple case folding. -/
def SameFolded (s t : List Char) : Prop := s.map foldCase = t.map foldCase

instance (s t : List Char) : Decidable (SameFolded s t) :=
  inferInstanceAs (Decidable (s.map foldCase = t.map foldCase))

theorem SameFolded.length_eq {s t : List Char} (h : SameFolded s t) : t.length = s.length := by
  have hlength := congrArg List.length h
  rwa [List.length_map, List.length_map, eq_comm] at hlength

theorem SameFolded.ne_nil {s t : List Char} (h : SameFolded s t) (hs : s ≠ []) : t ≠ [] := by
  rintro rfl
  exact hs (List.map_eq_nil_iff.mp h)

/-- What follows a part is behind a word that spells the part in some letter case. -/
theorem dropFolded?_eq_some_iff {part s rest : List Char} :
    dropFolded? part s = some rest ↔ ∃ word, SameFolded part word ∧ s = word ++ rest := by
  induction part generalizing s with
  | nil =>
    constructor
    · intro h
      exact ⟨[], rfl, Option.some.inj h⟩
    · rintro ⟨word, hword, rfl⟩
      obtain rfl := List.map_eq_nil_iff.mp hword.symm
      rfl
  | cons k part ih =>
    constructor
    · intro h
      cases s with
      | nil => cases h
      | cons c s =>
        rw [dropFolded?] at h
        split at h
        case isFalse => cases h
        case isTrue hk =>
          obtain ⟨word, hword, rfl⟩ := ih.mp h
          rw [sameFolded, beq_iff_eq] at hk
          exact ⟨c :: word, List.cons_eq_cons.mpr ⟨hk, hword⟩, rfl⟩
    · rintro ⟨word, hword, rfl⟩
      cases word with
      | nil => cases hword
      | cons c word =>
        obtain ⟨hk, hword⟩ := List.cons.inj hword
        rw [List.cons_append, dropFolded?, sameFolded, if_pos (beq_iff_eq.mpr hk)]
        exact ih.mpr ⟨word, hword, rfl⟩

theorem dropFolded?_append_self (part s : List Char) : dropFolded? part (part ++ s) = some s :=
  dropFolded?_eq_some_iff.mpr ⟨part, rfl, rfl⟩

private theorem toNat_ofNat (n : Nat) : (Char.ofNat n).toNat = n ∨ (Char.ofNat n).toNat = 0 := by
  by_cases hn : n.isValidChar
  · left
    rw [Char.ofNat, dif_pos hn]
    rfl
  · right
    rw [Char.ofNat, dif_neg hn]
    rfl

/-- A character outside ASCII folds to itself, or a run takes it to another place. -/
private theorem toNat_foldCase {c : Char} (hc : 0x80 ≤ c.toNat) :
    foldCase c = c ∨ ∃ r ∈ foldRuns, r.first ≤ c.toNat ∧ c.toNat ≤ r.last ∧
      ((foldCase c).toNat = (c.toNat + r.shift).toNat ∨ (foldCase c).toNat = 0) := by
  rw [foldCase, if_neg (by omega)]
  cases hr : foldRuns.find? (·.covers c.toNat) with
  | none => exact .inl rfl
  | some r =>
    have hcovers := List.find?_some hr
    simp only [FoldRun.covers, Bool.and_eq_true, decide_eq_true_eq] at hcovers
    exact .inr ⟨r, List.mem_of_find?_eq_some hr, hcovers.1.1, hcovers.1.2, toNat_ofNat _⟩

/-- The closed ranges of code points of blanks. -/
private def blankRanges : List (Nat × Nat) := [
    (0x09, 0x0D), (0x20, 0x20), (0x85, 0x85), (0xA0, 0xA0), (0x1680, 0x1680), (0x2000, 0x200A),
    (0x2028, 0x2029), (0x202F, 0x202F), (0x205F, 0x205F), (0x3000, 0x3000)]

private theorem isBlank_iff {c : Char} :
    isBlank c = true ↔ ∃ b ∈ blankRanges, b.1 ≤ c.toNat ∧ c.toNat ≤ b.2 := by
  simp only [isBlank, blankRanges, Bool.or_eq_true, Bool.and_eq_true, decide_eq_true_eq,
    beq_iff_eq, List.mem_cons, List.not_mem_nil, or_false, exists_eq_or_imp, exists_eq_left]
  omega

/-- No run of characters covers a blank, and none leads to one. -/
private theorem foldRuns_avoid_blanks : (foldRuns.all fun r => blankRanges.all fun b =>
    decide ((r.last < b.1 ∨ b.2 < r.first) ∧
      (r.last + r.shift < b.1 ∨ b.2 < r.first + r.shift))) = true := by
  decide +kernel

/-- Folding keeps a blank apart from what is no blank. -/
theorem isBlank_foldCase (c : Char) : isBlank (foldCase c) = isBlank c := by
  rw [Bool.eq_iff_iff, isBlank_iff, isBlank_iff]
  refine exists_congr fun b => and_congr_right fun hb => ?_
  have hletters : 0 < b.1 ∧ (b.2 < 65 ∨ 122 < b.1) :=
    (by decide : ∀ b ∈ blankRanges, 0 < b.1 ∧ (b.2 < 65 ∨ 122 < b.1)) b hb
  by_cases hc : c.toNat < 0x80
  · rw [foldCase, if_pos hc, toNat_toLower]
    split <;> omega
  · rcases toNat_foldCase (Nat.le_of_not_lt hc) with h | ⟨r, hr, hfirst, hlast, h⟩
    · rw [h]
    · have havoid := of_decide_eq_true
        (List.all_eq_true.mp (List.all_eq_true.mp foldRuns_avoid_blanks r hr) b hb)
      omega

/-- Texts of the same letters have their blanks at the same places. -/
theorem isBlank_head?_of_sameFolded {s t : List Char} (h : SameFolded s t) :
    t.head?.map isBlank = s.head?.map isBlank := by
  have hhead := congrArg (fun u => u.head?.map isBlank) h
  simpa [Function.comp_def, isBlank_foldCase] using hhead.symm

/-- Every run of characters outside ASCII leads outside ASCII, but for the long s and the sign for
Kelvin. -/
private theorem foldRuns_leave_ascii : (foldRuns.all fun r =>
    decide (r.last < 0x80 ∨ 0x80 ≤ r.first + r.shift ∨
      (r.first = 0x17F ∧ r.last = 0x17F) ∨ (r.first = 0x212A ∧ r.last = 0x212A))) = true := by
  decide +kernel

private theorem foldCase_of_not_ascii {c : Char} (hc : 0x80 ≤ c.toNat) :
    0x80 ≤ (foldCase c).toNat ∨ (foldCase c).toNat = 0 ∨ c = '\u017f' ∨ c = '\u212a' := by
  rcases toNat_foldCase hc with h | ⟨r, hr, hfirst, hlast, h⟩
  · exact .inl (by rwa [h])
  · have hleave := of_decide_eq_true (List.all_eq_true.mp foldRuns_leave_ascii r hr)
    rw [← Char.toNat_inj, ← Char.toNat_inj]
    change _ ∨ _ ∨ c.toNat = 0x17F ∨ c.toNat = 0x212A
    omega

private theorem isWordChar_of_isAlpha {c : Char} (h : c.isAlpha = true) : isWordChar c = true := by
  have hascii : c.toNat < 0x80 := by
    rcases (isAlpha_iff c).mp h with h | h <;> omega
  rw [isWordChar, if_pos hascii, Char.isAlphanum, h]
  rfl

/-- What folds like a letter of ASCII is a word character. -/
theorem isWordChar_of_sameFolded {a b : Char} (ha : a.isAlpha = true)
    (h : foldCase a = foldCase b) : isWordChar b = true := by
  have hletter := (isAlpha_iff a).mp ha
  rw [foldCase, if_pos (by omega)] at h
  by_cases hb : b.toNat < 0x80
  · rw [foldCase, if_pos hb] at h
    apply isWordChar_of_isAlpha
    rw [isAlpha_of_sameLetter (beq_iff_eq.mpr h), ha]
  · have hnat := congrArg Char.toNat h
    rw [toNat_toLower] at hnat
    rcases foldCase_of_not_ascii (Nat.le_of_not_lt hb) with hout | hout | rfl | rfl
    · split at hnat <;> omega
    · split at hnat <;> omega
    · decide +kernel
    · decide +kernel

/-- An ASCII character that folding does not confuse with a character outside ASCII. -/
def foldsInAscii (c : Char) : Bool :=
  c.toNat < 0x80 && c.toLower.toNat < 0x80 && !([0, 0x73, 0x6B].contains c.toLower.toNat)

theorem sameLetter_of_sameFolded {a b : Char} (ha : foldsInAscii a = true)
    (h : foldCase a = foldCase b) : sameLetter a b = true := by
  simp only [foldsInAscii, Bool.and_eq_true, decide_eq_true_eq, Bool.not_eq_true',
    List.contains_eq_mem, decide_eq_false_iff_not] at ha
  obtain ⟨⟨hascii, hlower⟩, hother⟩ := ha
  rw [foldCase, if_pos hascii] at h
  rw [sameLetter, beq_iff_eq, h]
  by_cases hb : b.toNat < 0x80
  · rw [foldCase, if_pos hb]
  · rw [h] at hlower hother
    rcases foldCase_of_not_ascii (Nat.le_of_not_lt hb) with hout | hout | rfl | rfl
    · omega
    · exact absurd (by rw [hout]; decide) hother
    · exact absurd (by decide) hother
    · exact absurd (by decide) hother

theorem sameLetters_of_sameFolded {s t : List Char} (hs : s.all foldsInAscii = true)
    (h : SameFolded s t) : sameLetters s t = true := by
  rw [sameLetters, beq_iff_eq]
  induction s generalizing t with
  | nil => rw [List.map_eq_nil_iff.mp h.symm]
  | cons a s ih =>
    cases t with
    | nil => cases h
    | cons b t =>
      obtain ⟨hhead, hrest⟩ := List.cons.inj h
      rw [List.all_cons, Bool.and_eq_true] at hs
      exact List.cons_eq_cons.mpr ⟨beq_iff_eq.mp (sameLetter_of_sameFolded hs.1 hhead), ih hs.2 hrest⟩

end SqlRecovery.Text
