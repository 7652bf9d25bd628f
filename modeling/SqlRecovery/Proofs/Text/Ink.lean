import SqlRecovery.Proofs.Text.Blank

/-! A text as the characters that are not blank, each with the mark whether blanks stand before it.
Trimming and collapsing change nothing but marks and the number of blanks behind them. -/
namespace SqlRecovery.Text

/-- The characters that are not blank. -/
def ink (s : List Char) : List Char := s.filter fun c => !isBlank c

@[simp] theorem ink_nil : ink [] = [] := rfl

@[simp] theorem ink_append (s t : List Char) : ink (s ++ t) = ink s ++ ink t :=
  List.filter_append _ _

theorem ink_cons_of_blank {c : Char} (h : isBlank c = true) (s : List Char) :
    ink (c :: s) = ink s := by
  simp [ink, h]

theorem ink_cons_of_not_blank {c : Char} (h : isBlank c = false) (s : List Char) :
    ink (c :: s) = c :: ink s := by
  simp [ink, h]

theorem not_blank_of_mem_ink {s : List Char} {c : Char} (h : c ∈ ink s) : isBlank c = false := by
  simpa [ink] using (List.mem_filter.mp h).2

theorem ink_eq_nil_iff {s : List Char} : ink s = [] ↔ allBlank s = true := by
  simp [ink, allBlank]

theorem allBlank_eq_of_ink_eq {s t : List Char} (h : ink t = ink s) : allBlank t = allBlank s := by
  rw [Bool.eq_iff_iff, ← ink_eq_nil_iff, ← ink_eq_nil_iff, h]

private theorem ink_trimStart (s : List Char) : ink (trimStart s) = ink s := by
  induction s with
  | nil => rfl
  | cons c s ih =>
    cases hc : isBlank c with
    | true => rw [trimStart_cons_of_blank hc, ink_cons_of_blank hc, ih]
    | false => rw [trimStart_cons_of_not_blank hc]

private theorem ink_trimEnd (s : List Char) : ink (trimEnd s) = ink s := by
  induction s with
  | nil => rfl
  | cons c s ih =>
    rw [trimEnd_cons]
    split
    case isTrue h =>
      rw [Bool.and_eq_true, List.isEmpty_iff] at h
      rw [ink_cons_of_blank h.1, ← ih, h.2]
    case isFalse =>
      cases hc : isBlank c with
      | true => rw [ink_cons_of_blank hc, ink_cons_of_blank hc, ih]
      | false => rw [ink_cons_of_not_blank hc, ink_cons_of_not_blank hc, ih]

theorem ink_trim (s : List Char) : ink (trim s) = ink s := by
  rw [trim, ink_trimEnd, ink_trimStart]

/-- A text without blanks is trimmed. -/
theorem trim_of_ink {s : List Char} (h : ink s = s) : trim s = s := by
  have hall : ∀ c ∈ s, isBlank c = false := by simpa [ink] using h
  exact trim_eq_self (fun c hc => hall c (List.mem_of_head? hc))
    (fun c hc => hall c (List.mem_of_getLast? hc))

theorem trim_eq_nil_iff {s : List Char} : trim s = [] ↔ allBlank s = true := by
  constructor
  · intro h
    rw [← ink_eq_nil_iff, ← ink_trim, h, ink_nil]
  · exact trim_of_allBlank

/-- The characters that are not blank, and whether blanks stand before them; `apart` tells it of
the start of the text. -/
def glyphs (apart : Bool) : List Char → List (Char × Bool)
  | [] => []
  | c :: s => if isBlank c then glyphs true s else (c, apart) :: glyphs false s

variable {c : Char}

theorem glyphs_cons_of_blank (h : isBlank c = true) (apart : Bool) (s : List Char) :
    glyphs apart (c :: s) = glyphs true s := by
  rw [glyphs, if_pos h]

theorem glyphs_cons_of_not_blank (h : isBlank c = false) (apart : Bool) (s : List Char) :
    glyphs apart (c :: s) = (c, apart) :: glyphs false s := by
  rw [glyphs, h, if_neg Bool.false_ne_true]

theorem map_fst_glyphs (apart : Bool) (s : List Char) : (glyphs apart s).map (·.1) = ink s := by
  induction s generalizing apart with
  | nil => rfl
  | cons c s ih =>
    cases hc : isBlank c with
    | true => rw [glyphs_cons_of_blank hc, ih, ink_cons_of_blank hc]
    | false => rw [glyphs_cons_of_not_blank hc, List.map_cons, ih, ink_cons_of_not_blank hc]

theorem length_glyphs (apart : Bool) (s : List Char) :
    (glyphs apart s).length = (ink s).length := by
  rw [← map_fst_glyphs apart s, List.length_map]

theorem not_blank_of_mem_glyphs {apart : Bool} {s : List Char} {x : Char × Bool}
    (h : x ∈ glyphs apart s) : isBlank x.1 = false := by
  refine not_blank_of_mem_ink (s := s) ?_
  rw [← map_fst_glyphs apart s]
  exact List.mem_map_of_mem h

theorem glyphs_append (apart : Bool) (s t : List Char) :
    glyphs apart (s ++ t) =
      glyphs apart s ++ glyphs (s.foldl (fun _ c => isBlank c) apart) t := by
  induction s generalizing apart with
  | nil => rfl
  | cons c s ih =>
    rw [List.cons_append, List.foldl_cons]
    cases hc : isBlank c with
    | true => rw [glyphs_cons_of_blank hc, glyphs_cons_of_blank hc, ih]
    | false => rw [glyphs_cons_of_not_blank hc, glyphs_cons_of_not_blank hc, ih, List.cons_append]

/-- Without the mark of the first character, which depends on what stands before the text. -/
def unmark : List (Char × Bool) → List (Char × Bool)
  | [] => []
  | x :: g => (x.1, false) :: g

theorem length_unmark (g : List (Char × Bool)) : (unmark g).length = g.length := by
  cases g <;> rfl

theorem unmark_glyphs (a b : Bool) (s : List Char) : unmark (glyphs a s) = unmark (glyphs b s) := by
  induction s generalizing a b with
  | nil => rfl
  | cons c s ih =>
    cases hc : isBlank c with
    | true => rw [glyphs_cons_of_blank hc, glyphs_cons_of_blank hc]
    | false => rw [glyphs_cons_of_not_blank hc, glyphs_cons_of_not_blank hc, unmark, unmark]

/-- Equal texts of marked characters fall into equal parts, up to the first mark of each part. -/
theorem unmark_append_inj {g₁ g₂ h₁ h₂ : List (Char × Bool)} (hlength : g₁.length = h₁.length)
    (h : unmark (g₁ ++ g₂) = unmark (h₁ ++ h₂)) :
    unmark g₁ = unmark h₁ ∧ unmark g₂ = unmark h₂ := by
  match g₁, h₁, hlength with
  | [], [], _ => exact ⟨rfl, h⟩
  | x :: g, y :: k, hlength =>
    simp only [List.cons_append, unmark, List.cons.injEq] at h
    obtain ⟨hg, hrest⟩ := List.append_inj h.2 (Nat.succ.inj hlength)
    exact ⟨by rw [unmark, unmark, h.1, hg], by rw [hrest]⟩

/-- Each character, behind a space if it is marked. -/
def write (g : List (Char × Bool)) : List Char :=
  g.flatMap fun x => if x.2 then [' ', x.1] else [x.1]

theorem glyphs_write {g : List (Char × Bool)} (h : ∀ x ∈ g, isBlank x.1 = false) :
    glyphs false (write g) = g := by
  induction g with
  | nil => rfl
  | cons x g ih =>
    obtain ⟨c, apart⟩ := x
    have hc := h _ List.mem_cons_self
    have hrest := ih fun y hy => h y (List.mem_cons_of_mem _ hy)
    cases apart with
    | false =>
      change glyphs false (c :: write g) = _
      rw [glyphs_cons_of_not_blank hc, hrest]
    | true =>
      change glyphs true (c :: write g) = _
      rw [glyphs_cons_of_not_blank hc, hrest]

end SqlRecovery.Text
