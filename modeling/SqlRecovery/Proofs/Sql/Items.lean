import Mathlib.Data.List.Forall2
import SqlRecovery.Proofs.Text.Parting
import SqlRecovery.Sql.Nesting

/-! Nesting and comma lists. Blanks open and close nothing, and those around a list make no difference
to its items. -/
namespace SqlRecovery.Sql
open Text

theorem beq_of_blank {c d : Char} (hc : isBlank c = true) (hd : isBlank d = false) :
    (c == d) = false := by
  rw [beq_eq_false_iff_ne]
  rintro rfl
  rw [hc] at hd
  cases hd

theorem step_of_blank {c : Char} (h : isBlank c = true) (n : Nesting) : n.step c = n := by
  have hquote : (c == quoteMark) = false := beq_of_blank h rfl
  have hopen : (c == '(') = false := beq_of_blank h rfl
  have hclose : (c == ')') = false := beq_of_blank h rfl
  rcases n with ⟨depth, quoted⟩
  cases quoted <;> simp [Nesting.step, hquote, hopen, hclose, bne]

theorem eq_outside_of_isTop {n : Nesting} (h : n.isTop = true) : n = .outside := by
  obtain ⟨depth, quoted⟩ := n
  simp only [Nesting.isTop, Bool.and_eq_true, Bool.not_eq_true', beq_iff_eq] at h
  rw [h.1, h.2, Nesting.outside]

theorem after_cons (n : Nesting) (c : Char) (s : List Char) : n.after (c :: s) = (n.step c).after s :=
  rfl

/-- Blanks open and close nothing. -/
theorem after_ink (n : Nesting) (s : List Char) : n.after (ink s) = n.after s := by
  induction s generalizing n with
  | nil => rfl
  | cons c s ih =>
    have hcons : n.after (c :: s) = (n.step c).after s := rfl
    cases hc : isBlank c with
    | true => rw [ink_cons_of_blank hc, hcons, step_of_blank hc, ih]
    | false =>
      rw [ink_cons_of_not_blank hc, hcons, ← ih]
      rfl

/-- A statement's list is parted at the top level. -/
def levelParting : Parting Nesting where
  start := .outside
  step := Nesting.step
  parts := Nesting.isTop
  step_comma n h := by
    rw [eq_outside_of_isTop h]
    rfl
  step_blank n _ h := step_of_blank h n

theorem pieces_eq_levelParting (n : Nesting) (s : List Char) :
    n.pieces s = levelParting.pieces n s := by
  induction s generalizing n with
  | nil => rfl
  | cons c s ih =>
    rw [Nesting.pieces, Parting.pieces, ih]
    rfl

theorem pieces_ne_nil (n : Nesting) (s : List Char) : n.pieces s ≠ [] := by
  obtain ⟨p, ps, hp⟩ := levelParting.exists_pieces n s
  rw [pieces_eq_levelParting, hp]
  exact List.cons_ne_nil p ps

/-- The first piece of a list, and behind its comma the other pieces. -/
theorem pieces_cases {n : Nesting} {x p : List Char} {ps : List (List Char)}
    (h : n.pieces x = p :: ps) :
    (ps = [] ∧ x = p) ∨
      ∃ y, x = p ++ ',' :: y ∧ n.after p = .outside ∧ Nesting.outside.pieces y = ps := by
  rw [pieces_eq_levelParting] at h
  rcases Parting.pieces_cases h with hone | ⟨y, hx, htop, hy⟩
  · exact .inl hone
  · exact .inr ⟨y, hx, eq_outside_of_isTop htop, by rwa [pieces_eq_levelParting]⟩

/-- The pieces with commas between them make up the text. -/
theorem joinWith_pieces (n : Nesting) (s : List Char) :
    joinWith [','] (n.pieces s) = s := by
  rw [pieces_eq_levelParting, Parting.joinWith_pieces]

theorem map_ink_pieces (n : Nesting) (s : List Char) :
    (n.pieces s).map ink = n.pieces (ink s) := by
  rw [pieces_eq_levelParting, pieces_eq_levelParting, Parting.map_ink_pieces]

theorem forall₂_pieces {x x' : List Char} (n : Nesting) (h : ink x' = ink x) :
    List.Forall₂ (fun p p' => ink p' = ink p) (n.pieces x) (n.pieces x') := by
  have hmap : (n.pieces x').map ink = (n.pieces x).map ink := by
    rw [map_ink_pieces, map_ink_pieces, h]
  have hsame : List.Forall₂ (fun i i' => i' = i) ((n.pieces x).map ink)
      ((n.pieces x').map ink) := by
    rw [hmap]
    exact List.forall₂_same.mpr fun _ _ => rfl
  rwa [List.forall₂_map_left_iff, List.forall₂_map_right_iff] at hsame

theorem tight_of_mem_pieces {s p : List Char} {n : Nesting} (hs : Tight s) (hp : p ∈ n.pieces s) :
    Tight p :=
  tight_of_mem_joinWith (by rwa [joinWith_pieces]) hp

private theorem pieces_of_allBlank {w : List Char} (h : allBlank w = true) (n : Nesting) :
    n.pieces w = [w] := by
  induction w generalizing n with
  | nil => rfl
  | cons c w ih =>
    rw [allBlank, List.all_cons, Bool.and_eq_true] at h
    have hcomma : (c == ',') = false := beq_of_blank h.1 rfl
    rw [Nesting.pieces, hcomma, Bool.false_and, if_neg Bool.false_ne_true, ih h.2]
    rfl

/-- Blanks in front go to the first piece. -/
private theorem pieces_of_allBlank_append {w : List Char} (h : allBlank w = true) (n : Nesting)
    (s : List Char) : n.pieces (w ++ s) = (n.pieces s).modifyHead (w ++ ·) := by
  obtain ⟨p, ps, hp⟩ := List.exists_cons_of_ne_nil (pieces_ne_nil n s)
  induction w with
  | nil =>
    rw [hp]
    exact hp
  | cons c w ih =>
    rw [allBlank, List.all_cons, Bool.and_eq_true] at h
    have hcomma : (c == ',') = false := beq_of_blank h.1 rfl
    rw [List.cons_append, Nesting.pieces, hcomma, Bool.false_and, if_neg Bool.false_ne_true,
      step_of_blank h.1, ih h.2, hp]
    rfl

/-- Blanks behind go to the last piece. -/
private theorem pieces_append_of_allBlank {w : List Char} (h : allBlank w = true) (n : Nesting)
    (s : List Char) : ∃ ps p, n.pieces s = ps ++ [p] ∧ n.pieces (s ++ w) = ps ++ [p ++ w] := by
  induction s generalizing n with
  | nil => exact ⟨[], [], rfl, pieces_of_allBlank h n⟩
  | cons c s ih =>
    obtain ⟨ps, p, hs, hw⟩ := ih (n.step c)
    rw [List.cons_append, Nesting.pieces, Nesting.pieces, hs, hw]
    split
    · exact ⟨[] :: ps, p, rfl, rfl⟩
    · cases ps with
      | nil => exact ⟨[], c :: p, rfl, rfl⟩
      | cons q ps => exact ⟨(c :: q) :: ps, p, rfl, rfl⟩

private theorem allBlank_of_append (s t : List Char) :
    allBlank (s ++ t) = (allBlank s && allBlank t) := List.all_append

theorem items_of_allBlank_append {w : List Char} (h : allBlank w = true) (s : List Char) :
    items (w ++ s) = items s := by
  obtain ⟨p, ps, hp⟩ := List.exists_cons_of_ne_nil (pieces_ne_nil .outside s)
  rw [items, items, allBlank_of_append, h, Bool.true_and, pieces_of_allBlank_append h, hp,
    List.modifyHead_cons, List.map_cons, List.map_cons, trim_of_allBlank_append h]

theorem items_append_of_allBlank {w : List Char} (h : allBlank w = true) (s : List Char) :
    items (s ++ w) = items s := by
  obtain ⟨ps, p, hs, hw⟩ := pieces_append_of_allBlank h .outside s
  rw [items, items, allBlank_of_append, h, Bool.and_true, hs, hw, List.map_append, List.map_append,
    List.map_singleton, List.map_singleton, trim_append_of_allBlank h]

theorem items_trim (s : List Char) : items (trim s) = items s := by
  obtain ⟨w, w', hs, hw, hw'⟩ := exists_trim s
  conv => rhs; rw [hs]
  rw [items_of_allBlank_append hw, items_append_of_allBlank hw']

theorem items_trimStart (s : List Char) : items (trimStart s) = items s := by
  have hs : s.takeWhile isBlank ++ trimStart s = s := List.takeWhile_append_dropWhile
  conv => rhs; rw [← hs]
  rw [items_of_allBlank_append List.all_takeWhile]

end SqlRecovery.Sql
