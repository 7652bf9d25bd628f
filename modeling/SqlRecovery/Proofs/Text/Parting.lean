import SqlRecovery.Proofs.Text.Collapse

/-! Texts that are parted by commas. A state that runs along the text tells which commas part it. The
pieces make up the text again, they fall apart at these commas and at no others, and a piece that is
read by itself is one piece. -/
namespace SqlRecovery.Text

/-- A state that runs along a text, and the states in which a comma parts the text. Behind such a
comma the text is read as from its beginning, and blanks leave the state alone. -/
structure Parting (σ : Type) where
  start : σ
  step : σ → Char → σ
  parts : σ → Bool
  step_comma : ∀ n, parts n = true → step n ',' = start
  step_blank : ∀ n c, isBlank c = true → step n c = n

/-- Some of the pieces make up the text in front of a comma, and the others the text behind it. -/
def FallsApart (pieces : List (List Char)) (front behind : List Char) : Prop :=
  ∃ first second, first ≠ [] ∧ second ≠ [] ∧ pieces = first ++ second ∧
    joinWith [','] first = front ∧ joinWith [','] second = behind

namespace Parting
variable {σ : Type} (p : Parting σ)

/-- The state behind a text. -/
def after (n : σ) (s : List Char) : σ := s.foldl p.step n

/-- The pieces between the commas that part the text. -/
def pieces : σ → List Char → List (List Char)
  | _, [] => [[]]
  | n, c :: s =>
    if c == ',' && p.parts n then [] :: pieces (p.step n c) s
    else (pieces (p.step n c) s).modifyHead (c :: ·)

variable {p} {n : σ} {c : Char} {s : List Char}

theorem pieces_comma (h : p.parts n = true) (s : List Char) :
    p.pieces n (',' :: s) = [] :: p.pieces p.start s := by
  rw [pieces, h, p.step_comma n h]
  rfl

theorem pieces_cons (h : (c == ',' && p.parts n) = false) (s : List Char) :
    p.pieces n (c :: s) = (p.pieces (p.step n c) s).modifyHead (c :: ·) := by
  rw [pieces, h, if_neg Bool.false_ne_true]

/-- A character is a comma that parts the text, or it goes to the piece that follows. -/
theorem parts_or (p : Parting σ) (n : σ) (c : Char) :
    (c = ',' ∧ p.parts n = true) ∨ (c == ',' && p.parts n) = false := by
  cases h : c == ',' && p.parts n with
  | true =>
    rw [Bool.and_eq_true, beq_iff_eq] at h
    exact .inl h
  | false => exact .inr rfl

theorem exists_pieces (p : Parting σ) (n : σ) (s : List Char) : ∃ q qs, p.pieces n s = q :: qs := by
  induction s generalizing n with
  | nil => exact ⟨[], [], rfl⟩
  | cons c s ih =>
    rcases p.parts_or n c with ⟨rfl, h⟩ | h
    · exact ⟨[], _, pieces_comma h s⟩
    · obtain ⟨q, qs, hq⟩ := ih (p.step n c)
      exact ⟨c :: q, qs, by rw [pieces_cons h, hq, List.modifyHead_cons]⟩

/-- The first piece, and behind its comma the pieces of a text that is read from the beginning. -/
theorem pieces_cases {q : List Char} {qs : List (List Char)} (h : p.pieces n s = q :: qs) :
    (qs = [] ∧ s = q) ∨
      ∃ t, s = q ++ ',' :: t ∧ p.parts (p.after n q) = true ∧ p.pieces p.start t = qs := by
  induction s generalizing n q with
  | nil =>
    rw [pieces, List.cons.injEq] at h
    exact .inl ⟨h.2.symm, h.1⟩
  | cons c s ih =>
    rcases p.parts_or n c with ⟨rfl, hparts⟩ | hparts
    · rw [pieces_comma hparts, List.cons.injEq] at h
      obtain ⟨rfl, rfl⟩ := h
      exact .inr ⟨s, rfl, hparts, rfl⟩
    · obtain ⟨r, rs, hr⟩ := p.exists_pieces (p.step n c) s
      rw [pieces_cons hparts, hr, List.modifyHead_cons, List.cons.injEq] at h
      obtain ⟨rfl, rfl⟩ := h
      rcases ih hr with ⟨hrs, hs⟩ | ⟨t, hs, hafter, ht⟩
      · exact .inl ⟨hrs, congrArg (c :: ·) hs⟩
      · exact .inr ⟨t, congrArg (c :: ·) hs, hafter, ht⟩

private theorem joinWith_comma {ps : List (List Char)} (h : ps ≠ []) :
    joinWith [','] ([] :: ps) = ',' :: joinWith [','] ps := by
  obtain ⟨q, qs, rfl⟩ := List.exists_cons_of_ne_nil h
  rw [joinWith_cons, joinWith_cons]
  rfl

private theorem joinWith_more (c : Char) (q : List Char) (qs : List (List Char)) :
    joinWith [','] ((c :: q) :: qs) = c :: joinWith [','] (q :: qs) := by
  rw [joinWith_cons, joinWith_cons, List.cons_append]

/-- The pieces with commas between them make up the text. -/
theorem joinWith_pieces (p : Parting σ) (n : σ) (s : List Char) :
    joinWith [','] (p.pieces n s) = s := by
  induction s generalizing n with
  | nil => rfl
  | cons c s ih =>
    obtain ⟨q, qs, hq⟩ := p.exists_pieces (p.step n c) s
    have hs := ih (p.step n c)
    rcases p.parts_or n c with ⟨rfl, h⟩ | h
    · rw [p.step_comma n h] at hq hs
      rw [pieces_comma h, joinWith_comma (by rw [hq]; exact List.cons_ne_nil q qs), hs]
    · rw [hq] at hs
      rw [pieces_cons h, hq, List.modifyHead_cons, joinWith_more, hs]

/-- A comma that parts the text stands between the pieces of what is in front and of what is
behind. -/
private theorem pieces_append_comma {front : List Char} (h : p.parts (p.after n front) = true)
    (behind : List Char) :
    p.pieces n (front ++ ',' :: behind) = p.pieces n front ++ p.pieces p.start behind := by
  induction front generalizing n with
  | nil => exact pieces_comma h behind
  | cons c front ih =>
    obtain ⟨q, qs, hq⟩ := p.exists_pieces (p.step n c) front
    have hrest := ih (n := p.step n c) h
    rw [List.cons_append]
    rcases p.parts_or n c with ⟨rfl, hparts⟩ | hparts
    · rw [p.step_comma n hparts] at hrest
      rw [pieces_comma hparts, pieces_comma hparts, hrest, List.cons_append]
    · rw [pieces_cons hparts, pieces_cons hparts, hrest, hq, List.cons_append,
        List.modifyHead_cons, List.modifyHead_cons, List.cons_append]

/-- The text falls apart at a comma if and only if the state in front of it says so. -/
theorem fallsApart_iff {front behind : List Char} :
    FallsApart (p.pieces n (front ++ ',' :: behind)) front behind ↔
      p.parts (p.after n front) = true := by
  constructor
  · rintro ⟨first, second, hfirst, hsecond, hpieces, hfront, -⟩
    induction front generalizing n first with
    | nil =>
      rcases p.parts_or n ',' with ⟨-, h⟩ | h
      · exact h
      · obtain ⟨q, qs, hq⟩ := p.exists_pieces (p.step n ',') behind
        obtain ⟨r, rs, rfl⟩ := List.exists_cons_of_ne_nil hfirst
        rw [List.nil_append, pieces_cons h, hq, List.modifyHead_cons, List.cons_append,
          List.cons.injEq] at hpieces
        rw [← hpieces.1, joinWith_more] at hfront
        cases hfront
    | cons c front ih =>
      obtain ⟨q, qs, hq⟩ := p.exists_pieces (p.step n c) (front ++ ',' :: behind)
      obtain ⟨r, rs, rfl⟩ := List.exists_cons_of_ne_nil hfirst
      rcases p.parts_or n c with ⟨rfl, h⟩ | h
      · rw [List.cons_append, pieces_comma h, List.cons_append, List.cons.injEq] at hpieces
        obtain ⟨rfl, hpieces⟩ := hpieces
        have hrs : rs ≠ [] := by
          rintro rfl
          cases hfront
        rw [joinWith_comma hrs, List.cons.injEq] at hfront
        rw [← p.step_comma n h] at hpieces
        exact ih rs hrs hpieces hfront.2
      · rw [List.cons_append, pieces_cons h, hq, List.modifyHead_cons, List.cons_append,
          List.cons.injEq] at hpieces
        obtain ⟨rfl, rfl⟩ := hpieces
        rw [joinWith_more, List.cons.injEq] at hfront
        exact ih (q :: rs) (List.cons_ne_nil q rs) hq hfront.2
  · intro h
    obtain ⟨q, qs, hq⟩ := p.exists_pieces n front
    obtain ⟨r, rs, hr⟩ := p.exists_pieces p.start behind
    refine ⟨p.pieces n front, p.pieces p.start behind, ?_, ?_, pieces_append_comma h behind,
      p.joinWith_pieces n front, p.joinWith_pieces p.start behind⟩
    · rw [hq]
      exact List.cons_ne_nil q qs
    · rw [hr]
      exact List.cons_ne_nil r rs

private theorem pieces_alone {q : List Char} {qs : List (List Char)} (h : p.pieces n s = q :: qs) :
    p.pieces n q = [q] ∧ ∀ r ∈ qs, p.pieces p.start r = [r] := by
  induction s generalizing n q qs with
  | nil =>
    rw [pieces, List.cons.injEq] at h
    obtain ⟨rfl, rfl⟩ := h
    exact ⟨rfl, fun r hr => absurd hr List.not_mem_nil⟩
  | cons c s ih =>
    obtain ⟨r, rs, hr⟩ := p.exists_pieces (p.step n c) s
    obtain ⟨hfirst, hothers⟩ := ih hr
    rcases p.parts_or n c with ⟨rfl, hparts⟩ | hparts
    · rw [p.step_comma n hparts] at hr hfirst
      rw [pieces_comma hparts, hr, List.cons.injEq] at h
      obtain ⟨rfl, rfl⟩ := h
      exact ⟨rfl, List.forall_mem_cons.mpr ⟨hfirst, hothers⟩⟩
    · rw [pieces_cons hparts, hr, List.modifyHead_cons, List.cons.injEq] at h
      obtain ⟨rfl, rfl⟩ := h
      exact ⟨by rw [pieces_cons hparts, hfirst, List.modifyHead_cons], hothers⟩

/-- A piece by itself is one piece. -/
theorem pieces_of_mem {q : List Char} (h : q ∈ p.pieces p.start s) : p.pieces p.start q = [q] := by
  obtain ⟨r, rs, hr⟩ := p.exists_pieces p.start s
  obtain ⟨hfirst, hothers⟩ := pieces_alone hr
  rw [hr] at h
  rcases List.mem_cons.mp h with rfl | h
  · exact hfirst
  · exact hothers q h

/-- Blanks make no difference to where the text is parted. -/
theorem map_ink_pieces (p : Parting σ) (n : σ) (s : List Char) :
    (p.pieces n s).map ink = p.pieces n (ink s) := by
  induction s generalizing n with
  | nil => rfl
  | cons c s ih =>
    obtain ⟨q, qs, hq⟩ := p.exists_pieces (p.step n c) s
    have hs := ih (p.step n c)
    rcases p.parts_or n c with ⟨rfl, hparts⟩ | hparts
    · rw [p.step_comma n hparts] at hs
      rw [ink_cons_of_not_blank rfl, pieces_comma hparts, pieces_comma hparts, ← hs,
        List.map_cons, ink_nil]
    · cases hc : isBlank c with
      | true =>
        rw [p.step_blank n c hc] at hs hq
        rw [ink_cons_of_blank hc, pieces_cons hparts, p.step_blank n c hc, ← hs, hq,
          List.modifyHead_cons, List.map_cons, List.map_cons, ink_cons_of_blank hc]
      | false =>
        rw [ink_cons_of_not_blank hc, pieces_cons hparts, pieces_cons hparts, ← hs, hq,
          List.modifyHead_cons, List.map_cons, List.map_cons, List.modifyHead_cons,
          ink_cons_of_not_blank hc]

/-- A text of one piece is one piece without the blanks around it. -/
theorem pieces_trim (h : p.pieces n s = [s]) : p.pieces n (trim s) = [trim s] := by
  have hlength : (p.pieces n (trim s)).length = 1 := by
    rw [← List.length_map ink, map_ink_pieces, ink_trim, ← map_ink_pieces, h]
    rfl
  obtain ⟨q, hq⟩ := List.length_eq_one_iff.mp hlength
  have hjoin := p.joinWith_pieces n (trim s)
  rw [hq, joinWith_cons, List.flatMap_nil, List.append_nil] at hjoin
  rw [hq, hjoin]

end Parting

/-- The pieces of a text on one line are on one line. -/
theorem tight_of_mem_joinWith {ps : List (List Char)} (h : Tight (joinWith [','] ps)) {q : List Char}
    (hq : q ∈ ps) : Tight q := by
  induction ps with
  | nil => exact absurd hq List.not_mem_nil
  | cons r ps ih =>
    cases ps with
    | nil =>
      rw [joinWith_cons, List.flatMap_nil, List.append_nil] at h
      rw [List.mem_singleton.mp hq]
      exact h
    | cons s ps =>
      have hcons : joinWith [','] (r :: s :: ps) = r ++ ([','] ++ joinWith [','] (s :: ps)) := by
        rw [joinWith_cons, joinWith_cons, List.flatMap_cons, List.append_assoc]
      rw [hcons] at h
      rcases List.mem_cons.mp hq with rfl | hq
      · exact h.of_append.1
      · exact ih h.of_append.2.of_append.2 hq

end SqlRecovery.Text
