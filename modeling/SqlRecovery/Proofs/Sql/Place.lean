import SqlRecovery.Proofs.Sql.Items
import SqlRecovery.Proofs.Sql.Spelling

/-! Places of two texts that look alike to a search. They correspond if as many characters that are
not blank stand before them, and a phrase stands at both of two such places or at neither. -/
namespace SqlRecovery.Sql
open Text

/-- How many characters that are not blank stand before the place. -/
def rank (s : List Char) (i : Nat) : Nat := (ink (s.take i)).length

/-- Whether a name may go on at the place. -/
def glueAt (s : List Char) (i : Nat) : Bool := glue false (s.take i)

/-- No blank stands at the place. -/
def InkAt (s : List Char) (i : Nat) : Prop := ∃ c, s[i]? = some c ∧ isBlank c = false

section
variable {s : List Char} {i j : Nat}

theorem rank_length (s : List Char) : rank s s.length = (ink s).length := by
  rw [rank, List.take_length]

theorem rank_mono (h : i ≤ j) : rank s i ≤ rank s j := by
  obtain ⟨k, rfl⟩ := Nat.exists_eq_add_of_le h
  rw [rank, rank, List.take_add, ink_append, List.length_append]
  exact Nat.le_add_right _ _

theorem rank_succ (h : InkAt s i) : rank s (i + 1) = rank s i + 1 := by
  obtain ⟨c, hc, hblank⟩ := h
  rw [rank, rank, List.take_add_one, hc, ink_append, List.length_append]
  exact congrArg (_ + ·) (congrArg List.length (ink_cons_of_not_blank hblank []))

theorem lt_iff_rank_lt (h : InkAt s i) : i < j ↔ rank s i < rank s j := by
  constructor
  · intro hij
    have hle : rank s (i + 1) ≤ rank s j := rank_mono hij
    rw [rank_succ h] at hle
    exact hle
  · intro hrank
    rcases Nat.lt_or_ge i j with hij | hij
    · exact hij
    · exact absurd (rank_mono hij) (Nat.not_le.mpr hrank)

theorem le_iff_rank_le (h : InkAt s i) : j ≤ i ↔ rank s j ≤ rank s i := by
  rw [← Nat.not_lt, ← Nat.not_lt, lt_iff_rank_lt h]

theorem rank_lt (h : InkAt s i) : rank s i < (ink s).length := by
  obtain ⟨c, hc, -⟩ := id h
  have hi : i < s.length := (List.getElem?_eq_some_iff.mp hc).1
  rw [← rank_length]
  exact (lt_iff_rank_lt h).mp hi

/-- Every rank is that of a character. -/
theorem exists_inkAt {r : Nat} (h : r < (ink s).length) : ∃ i, InkAt s i ∧ rank s i = r := by
  induction s generalizing r with
  | nil => cases h
  | cons c s ih =>
    cases hc : isBlank c with
    | true =>
      rw [ink_cons_of_blank hc] at h
      obtain ⟨i, ⟨d, hd, hblank⟩, hi⟩ := ih h
      refine ⟨i + 1, ⟨d, hd, hblank⟩, ?_⟩
      rw [rank, List.take_succ_cons, ink_cons_of_blank hc]
      exact hi
    | false =>
      rw [ink_cons_of_not_blank hc] at h
      cases r with
      | zero => exact ⟨0, ⟨c, rfl, hc⟩, rfl⟩
      | succ r =>
        obtain ⟨i, ⟨d, hd, hblank⟩, hi⟩ := ih (Nat.lt_of_succ_lt_succ h)
        refine ⟨i + 1, ⟨d, hd, hblank⟩, ?_⟩
        rw [rank, List.take_succ_cons, ink_cons_of_not_blank hc]
        exact congrArg (· + 1) hi

end

/-- The rest of a text on one line, as it is marked for the search. -/
private theorem drop_spots {s : List Char} (hs : Tight s) (n : Nesting) (g : Bool) (i : Nat) :
    (Scan.spots n g s).drop i =
      Scan.spots (n.after (s.take i)) (glue g (s.take i)) (s.drop i) := by
  induction s generalizing n g i with
  | nil => rw [List.take_nil, List.drop_nil, Scan.spots, List.drop_nil]; rfl
  | cons c s ih =>
    have hbinds : (isNameChar c || c == '.') = binds c := by
      cases hc : isBlank c with
      | false => rw [binds, hc, Bool.not_false, Bool.true_and]
      | true =>
        obtain ⟨rfl, -⟩ := hs.1 hc
        rfl
    cases i with
    | zero => rfl
    | succ i =>
      rw [Scan.spots, List.drop_succ_cons, ih hs.2, hbinds]
      rfl

theorem drop_ofText {s : List Char} (hs : Tight s) (i : Nat) :
    (Scan.ofText s).drop i =
      Scan.spots (Nesting.outside.after (s.take i)) (glueAt s i) (s.drop i) :=
  drop_spots hs .outside false i

@[simp] theorem length_ofText (s : List Char) : (Scan.ofText s).length = s.length := by
  have h := congrArg List.length (Scan.map_char_spots .outside false s)
  rwa [List.length_map] at h

end SqlRecovery.Sql
