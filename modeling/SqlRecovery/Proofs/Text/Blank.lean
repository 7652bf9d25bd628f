import SqlRecovery.Text.Blank

/-! Trimming: what blanks at the end and at the beginning of a text amount to. -/
namespace SqlRecovery.Text

@[simp] theorem trimStart_nil : trimStart [] = [] := rfl

@[simp] theorem trimEnd_nil : trimEnd [] = [] := rfl

theorem trimStart_cons_of_blank {c : Char} (h : isBlank c = true) (s : List Char) :
    trimStart (c :: s) = trimStart s := by
  simp [trimStart, h]

theorem trimStart_cons_of_not_blank {c : Char} (h : isBlank c = false) (s : List Char) :
    trimStart (c :: s) = c :: s := by
  simp [trimStart, h]

theorem trimEnd_append_blank {e : Char} (h : isBlank e = true) (s : List Char) :
    trimEnd (s ++ [e]) = trimEnd s := by
  simp [trimEnd, h]

theorem trimEnd_cons (c : Char) (s : List Char) :
    trimEnd (c :: s) = if isBlank c && (trimEnd s).isEmpty then [] else c :: trimEnd s := by
  rw [trimEnd, List.reverse_cons, List.dropWhile_append, trimEnd]
  cases hs : s.reverse.dropWhile isBlank with
  | nil => cases hc : isBlank c <;> simp [hc]
  | cons d t => simp

theorem trimStart_append_blank {e : Char} (h : isBlank e = true) (s : List Char) :
    trimStart (s ++ [e]) = if (trimStart s).isEmpty then [] else trimStart s ++ [e] := by
  simp [trimStart, List.dropWhile_append, h]

theorem trim_append_blank {e : Char} (h : isBlank e = true) (s : List Char) :
    trim (s ++ [e]) = trim s := by
  rw [trim, trimStart_append_blank h]
  split
  case isTrue hs => rw [trim, List.isEmpty_iff.mp hs]
  case isFalse => rw [trimEnd_append_blank h, trim]

theorem trimStart_of_allBlank {s : List Char} (h : allBlank s = true) : trimStart s = [] := by
  induction s with
  | nil => rfl
  | cons c s ih =>
    rw [allBlank, List.all_cons, Bool.and_eq_true] at h
    rw [trimStart_cons_of_blank h.1, ih h.2]

theorem trimStart_eq_nil_iff {s : List Char} : trimStart s = [] ↔ allBlank s = true := by
  refine ⟨fun h => ?_, trimStart_of_allBlank⟩
  induction s with
  | nil => rfl
  | cons c s ih =>
    cases hc : isBlank c with
    | true =>
      rw [trimStart_cons_of_blank hc] at h
      rw [allBlank, List.all_cons, hc]
      exact ih h
    | false =>
      rw [trimStart_cons_of_not_blank hc] at h
      cases h

/-- Blanks in front of a text that has other characters are all that is skipped, whatever follows. -/
theorem trimStart_append {s : List Char} (h : ¬ allBlank s = true) (t : List Char) :
    trimStart (s ++ t) = trimStart s ++ t := by
  have hempty : (s.dropWhile isBlank).isEmpty = false :=
    List.isEmpty_eq_false_iff.mpr fun hnil => h (trimStart_eq_nil_iff.mp hnil)
  rw [trimStart, List.dropWhile_append, hempty, if_neg Bool.false_ne_true, trimStart]

theorem trim_of_allBlank {s : List Char} (h : allBlank s = true) : trim s = [] := by
  rw [trim, trimStart_of_allBlank h, trimEnd_nil]

theorem trim_append_of_allBlank {w : List Char} (h : allBlank w = true) (s : List Char) :
    trim (s ++ w) = trim s := by
  induction w generalizing s with
  | nil => rw [List.append_nil]
  | cons c w ih =>
    rw [allBlank, List.all_cons, Bool.and_eq_true] at h
    rw [List.append_cons, ih h.2, trim_append_blank h.1]

theorem trimStart_of_allBlank_append {w : List Char} (h : allBlank w = true) (s : List Char) :
    trimStart (w ++ s) = trimStart s :=
  List.dropWhile_append_of_pos (List.all_eq_true.mp h)

theorem trim_of_allBlank_append {w : List Char} (h : allBlank w = true) (s : List Char) :
    trim (w ++ s) = trim s := by
  rw [trim, trimStart_of_allBlank_append h, trim]

/-- Blanks stand in front of a trimmed text and behind it. -/
theorem takeWhile_append_trim (s : List Char) :
    ∃ w, s = s.takeWhile isBlank ++ (trim s ++ w) ∧ allBlank w = true := by
  refine ⟨((trimStart s).reverse.takeWhile isBlank).reverse, ?_, ?_⟩
  · rw [trim, trimEnd, ← List.reverse_append, List.takeWhile_append_dropWhile, List.reverse_reverse,
      trimStart, List.takeWhile_append_dropWhile]
  · rw [allBlank, List.all_reverse]
    exact List.all_takeWhile

/-- Blanks stand around a trimmed text. -/
theorem exists_trim (s : List Char) :
    ∃ w w', s = w ++ (trim s ++ w') ∧ allBlank w = true ∧ allBlank w' = true := by
  obtain ⟨w, hs, hw⟩ := takeWhile_append_trim s
  exact ⟨_, w, hs, List.all_takeWhile, hw⟩

theorem trim_trim (s : List Char) : trim (trim s) = trim s := by
  obtain ⟨w, w', hs, hw, hw'⟩ := exists_trim s
  have h := congrArg trim hs
  rw [trim_of_allBlank_append hw, trim_append_of_allBlank hw'] at h
  exact h.symm

theorem trimStart_eq_self {s : List Char} (hhead : ∀ c ∈ s.head?, isBlank c = false) :
    trimStart s = s := by
  cases s with
  | nil => rfl
  | cons c s => exact trimStart_cons_of_not_blank (hhead c rfl) s

/-- A text with no blanks at its ends is trimmed. -/
theorem trim_eq_self {s : List Char} (hhead : ∀ c ∈ s.head?, isBlank c = false)
    (hlast : ∀ c ∈ s.getLast?, isBlank c = false) : trim s = s := by
  rw [trim, trimStart_eq_self hhead, trimEnd]
  rw [← List.head?_reverse] at hlast
  have hend : s.reverse.dropWhile isBlank = s.reverse := by
    cases hr : s.reverse with
    | nil => rfl
    | cons c r =>
      rw [hr] at hlast
      exact List.dropWhile_cons_of_neg (by simp [hlast c rfl])
  rw [hend, List.reverse_reverse]

end SqlRecovery.Text
