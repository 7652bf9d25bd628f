import SqlRecovery.Marker.Pattern
import SqlRecovery.Proofs.Text.Blank
import SqlRecovery.Proofs.Text.Folding

/-! What the attempts of a pattern find: the leftmost place, the text behind all blanks, and the text
up to the first place where it may end. -/
namespace SqlRecovery.Marker
open Text

/-- `t` is the longest end of `s` with the property. It begins at the leftmost place that has it. -/
structure LongestEnd (P : List Char → Prop) (s t : List Char) : Prop where
  isSuffix : t <:+ s
  holds : P t
  longest : ∀ u, u <:+ s → P u → u.length ≤ t.length

section LongestEnd

variable {P Q : List Char → Prop} {c : Char} {s t : List Char}

theorem longestEnd_self (h : P s) : LongestEnd P s s :=
  ⟨List.suffix_rfl, h, fun _ hu _ => hu.length_le⟩

theorem LongestEnd.eq_self (h : LongestEnd P s t) (hs : P s) : t = s :=
  h.isSuffix.eq_of_length_le (h.longest s List.suffix_rfl hs)

/-- Where the whole text lacks the property, its first character does not matter. -/
theorem longestEnd_cons_iff (hc : ¬ P (c :: s)) :
    LongestEnd P (c :: s) t ↔ LongestEnd P s t := by
  constructor
  · intro h
    rcases List.suffix_cons_iff.mp h.isSuffix with rfl | ht
    · exact absurd h.holds hc
    · exact ⟨ht, h.holds, fun u hu => h.longest u (hu.trans (List.suffix_cons c s))⟩
  · intro h
    refine ⟨h.isSuffix.trans (List.suffix_cons c s), h.holds, ?_⟩
    intro u hu hP
    rcases List.suffix_cons_iff.mp hu with rfl | hu
    · exact absurd hP hc
    · exact h.longest u hu hP

theorem longestEnd_congr (h : ∀ u, u <:+ s → (P u ↔ Q u)) :
    LongestEnd P s t ↔ LongestEnd Q s t := by
  constructor
  · rintro ⟨ht, hP, hlongest⟩
    exact ⟨ht, (h t ht).mp hP, fun u hu hQ => hlongest u hu ((h u hu).mpr hQ)⟩
  · rintro ⟨ht, hQ, hlongest⟩
    exact ⟨ht, (h t ht).mpr hQ, fun u hu hP => hlongest u hu ((h u hu).mp hP)⟩

end LongestEnd

section Attempts

variable {α : Type} {attempt : List Char → Option α} {s : List Char} {a : α}

theorem leftmost_isSome_iff :
    (leftmost attempt s).isSome = true ↔ ∃ t, t <:+ s ∧ (attempt t).isSome = true := by
  induction s with
  | nil => simp [leftmost]
  | cons c s ih =>
    rw [leftmost, Option.isSome_or, Bool.or_eq_true, ih]
    constructor
    · rintro (h | ⟨t, ht, h⟩)
      · exact ⟨c :: s, List.suffix_rfl, h⟩
      · exact ⟨t, ht.trans (List.suffix_cons c s), h⟩
    · rintro ⟨t, ht, h⟩
      rcases List.suffix_cons_iff.mp ht with rfl | ht
      · exact .inl h
      · exact .inr ⟨t, ht, h⟩

/-- An attempt counts at the leftmost place where it succeeds. -/
theorem leftmost_eq_some_iff : leftmost attempt s = some a ↔
    ∃ t, LongestEnd (fun u => (attempt u).isSome) s t ∧ attempt t = some a := by
  induction s with
  | nil =>
    constructor
    · intro h
      exact ⟨[], longestEnd_self (Option.isSome_of_eq_some h), h⟩
    · rintro ⟨t, ht, h⟩
      obtain rfl := List.suffix_nil.mp ht.isSuffix
      exact h
  | cons c s ih =>
    rw [leftmost]
    cases hc : attempt (c :: s) with
    | none =>
      have hnot : ¬ (attempt (c :: s)).isSome := by simp [hc]
      rw [Option.none_or, ih]
      exact exists_congr fun t => and_congr_left' (longestEnd_cons_iff hnot).symm
    | some b =>
      have hhere : (attempt (c :: s)).isSome := Option.isSome_of_eq_some hc
      rw [Option.some_or, ← hc]
      constructor
      · intro h
        exact ⟨c :: s, longestEnd_self hhere, h⟩
      · rintro ⟨t, ht, h⟩
        rwa [ht.eq_self hhere] at h

theorem leftmost_of_eq_some (h : attempt s = some a) : leftmost attempt s = some a :=
  leftmost_eq_some_iff.mpr ⟨s, longestEnd_self (Option.isSome_of_eq_some h), h⟩

/-- It is enough to try behind all blanks, if an attempt behind fewer of them fails whenever that
one does. -/
theorem behindBlanks_eq (h : ∀ t, t <:+ s → attempt (trimStart t) = none → attempt t = none) :
    behindBlanks attempt s = attempt (trimStart s) := by
  induction s with
  | nil => rfl
  | cons c s ih =>
    rw [behindBlanks]
    split
    case isTrue hc =>
      have hs := h (c :: s) List.suffix_rfl
      rw [trimStart_cons_of_blank hc] at hs ⊢
      rw [ih fun t ht => h t (ht.trans (List.suffix_cons c s))]
      cases hstart : attempt (trimStart s) with
      | none => rw [Option.none_or, hs hstart]
      | some b => rw [Option.some_or]
    case isFalse hc => rw [trimStart_cons_of_not_blank (Bool.eq_false_iff.mpr hc)]

theorem behindPart_eq_some_iff {part : List Char} : behindPart part attempt s = some a ↔
    ∃ word t, SameFolded part word ∧ s = word ++ t ∧ attempt t = some a := by
  rw [behindPart, Option.bind_eq_some_iff]
  constructor
  · rintro ⟨t, hdrop, h⟩
    obtain ⟨word, hword, hsplit⟩ := dropFolded?_eq_some_iff.mp hdrop
    exact ⟨word, t, hword, hsplit, h⟩
  · rintro ⟨word, t, hword, hsplit, h⟩
    exact ⟨t, dropFolded?_eq_some_iff.mpr ⟨word, hword, hsplit⟩, h⟩

end Attempts

/-- A word of ASCII letters. -/
structure Alphabetic (w : List Char) : Prop where
  nonempty : w ≠ []
  letters : ∀ c ∈ w, c.isAlpha = true

instance (w : List Char) : Decidable (Alphabetic w) :=
  have : Decidable (∀ c ∈ w, c.isAlpha = true) := List.decidableBAll _ w
  decidable_of_iff (w ≠ [] ∧ ∀ c ∈ w, c.isAlpha = true)
    ⟨fun h => ⟨h.1, h.2⟩, fun h => ⟨h.1, h.2⟩⟩

section Severity

variable {severity word : List Char}

theorem isWordChar_of_mem_of_sameFolded (hs : Alphabetic severity) (h : SameFolded severity word) :
    ∀ c ∈ word, isWordChar c = true := by
  intro c hc
  have hfold : foldCase c ∈ severity.map foldCase := by
    rw [h]
    exact List.mem_map_of_mem hc
  obtain ⟨k, hk, hkc⟩ := List.mem_map.mp hfold
  exact isWordChar_of_sameFolded (hs.letters k hk) hkc

/-- A severity stands where its letters do, unless the word goes on behind them. -/
theorem severityHere_iff (hs : Alphabetic severity) {s : List Char} :
    severityHere severity s = true ↔ ∃ word behind, SameFolded severity word ∧
      s = word ++ behind ∧ startsWord behind = false := by
  have hend : ∀ word behind, SameFolded severity word → s = word ++ behind →
      (severityHere severity s = true ↔ startsWord behind = false) := by
    rintro word behind hword rfl
    have hne := hword.ne_nil hs.nonempty
    rw [severityHere, dropFolded?_eq_some_iff.mpr ⟨word, hword, rfl⟩, ← hword.length_eq]
    dsimp only
    rw [List.take_left, List.getLast?_eq_some_getLast hne, Option.map_some, Option.getD_some,
      isWordChar_of_mem_of_sameFolded hs hword _ (List.getLast_mem hne)]
    cases startsWord behind <;> decide
  constructor
  · intro h
    cases hdrop : dropFolded? severity s with
    | none => simp [severityHere, hdrop] at h
    | some behind =>
      obtain ⟨word, hword, hsplit⟩ := dropFolded?_eq_some_iff.mp hdrop
      exact ⟨word, behind, hword, hsplit, (hend word behind hword hsplit).mp h⟩
  · rintro ⟨word, behind, hword, hsplit, hbehind⟩
    exact (hend word behind hword hsplit).mpr hbehind

end Severity

end SqlRecovery.Marker
