import SqlRecovery.Proofs.Sql.Recall

/-! What a search for several phrases finds: the earliest place at which one of them stands as whole
words at the top level, and of several phrases at that place the one listed first. A search that
moves forward and remembers finds the same from every place that it comes to. -/
namespace SqlRecovery.Sql
open Text

/-- The phrase stands at the place in any letter case, outside parentheses and literals. It does not
go on with a name or a qualifier, and no name goes on behind it. -/
structure WholeWords (s p : List Char) (i : Nat) : Prop where
  nonempty : p ≠ []
  letters : sameLetters p ((s.drop i).take p.length) = true
  top : (Nesting.outside.flags s)[i]? = some true
  before : ∀ c, 0 < i → s[i - 1]? = some c → isNameChar c = false ∧ c ≠ '.'
  behind : ∀ c, s[i + p.length]? = some c → isNameChar c = false

/-- The phrase stands between the two positions. -/
structure Within (s : List Char) (a b : Nat) (p : String) (i : Nat) : Prop where
  start : a ≤ i
  stop : i + p.length ≤ b
  stands : WholeWords s p.toList i

/-- What a search between two positions is to give: nothing if no phrase stands there, else the
leftmost place of any, with the first of the phrases that stand at it. -/
inductive Earliest (s : List Char) (phrases : List String) (a b : Nat) :
    Option (Nat × String) → Prop
  | none (absent : ∀ p ∈ phrases, ∀ i, ¬ Within s a b p i) : Earliest s phrases a b none
  | some {i : Nat} {p : String} {earlier later : List String}
    (listed : phrases = earlier ++ p :: later) (stands : Within s a b p i)
    (leftmost : ∀ q ∈ phrases, ∀ j, Within s a b q j → i ≤ j)
    (preferred : ∀ q ∈ earlier, ¬ Within s a b q i) : Earliest s phrases a b (some (i, p))

variable {s : List Char} {p : String} {phrases : List String} {a b i k : Nat}

section Spots

private theorem spells_iff (p : List Char) (t : Scan) : Scan.spells p t = true ↔
    sameLetters p ((t.map (·.char)).take p.length) = true ∧
      ∀ c, (t.map (·.char))[p.length]? = some c → isNameChar c = false := by
  induction p generalizing t with
  | nil => cases t <;> simp [Scan.spells, sameLetters]
  | cons k p ih =>
    cases t with
    | nil => simp [Scan.spells, sameLetters]
    | cons x t => simp [Scan.spells, ih, sameLetters, sameLetter, and_assoc]

/-- Of every character the mark tells whether a name or a dot stands before it. -/
private theorem map_glued_spots (n : Nesting) (glued : Bool) (s : List Char) :
    (Scan.spots n glued s).map (·.glued) =
      (glued :: s.map fun c => isNameChar c || c == '.').dropLast := by
  induction s generalizing n glued with
  | nil => rfl
  | cons c s ih => rw [Scan.spots, List.map_cons, ih, List.map_cons, List.dropLast_cons_cons]

private theorem glued_iff {x : Spot} (hx : (Scan.ofText s)[i]? = some x) : x.glued = false ↔
    ∀ c, 0 < i → s[i - 1]? = some c → isNameChar c = false ∧ c ≠ '.' := by
  have hi : i < s.length := by
    rw [← length_ofText]
    exact (List.getElem?_eq_some_iff.mp hx).1
  have hglued : (false :: s.map fun c => isNameChar c || c == '.')[i]? = some x.glued := by
    have hmap : ((Scan.ofText s).map (·.glued))[i]? = _ :=
      congrArg (·[i]?) (map_glued_spots .outside false s)
    rw [List.getElem?_map, hx, List.getElem?_dropLast, List.length_cons, List.length_map,
      if_pos (by omega)] at hmap
    exact hmap.symm
  cases i with
  | zero =>
    exact iff_of_true (Option.some.inj hglued).symm fun c h => absurd h (Nat.lt_irrefl 0)
  | succ i =>
    rw [List.getElem?_cons_succ, List.getElem?_map] at hglued
    obtain ⟨c, hc, hmark⟩ := Option.map_eq_some_iff.mp hglued
    rw [← hmark, Nat.add_sub_cancel, hc]
    simp

/-- A phrase is found where it stands as whole words at the top level. -/
theorem hit_iff_wholeWords : Hit s p i ↔ WholeWords s p.toList i := by
  have hchars : ((Scan.ofText s).drop i).map (·.char) = s.drop i := by
    rw [List.map_drop, Scan.ofText, Scan.map_char_spots]
  have htop : ((Scan.ofText s)[i]?).map (·.top) = (Nesting.outside.flags s)[i]? := by
    rw [← List.getElem?_map, Scan.ofText, Scan.map_top_spots]
  cases hx : (Scan.ofText s)[i]? with
  | none =>
    rw [Hit, List.drop_eq_nil_of_le (List.getElem?_eq_none_iff.mp hx)]
    rw [hx] at htop
    refine iff_of_false Bool.false_ne_true fun h => ?_
    have hno := htop.trans h.top
    cases hno
  | some x =>
    obtain ⟨hi, rfl⟩ := List.getElem?_eq_some_iff.mp hx
    rw [Hit, List.drop_eq_getElem_cons hi, Scan.beginsWith, ← List.drop_eq_getElem_cons hi]
    simp only [Bool.and_eq_true, Bool.not_eq_true', spells_iff, hchars, glued_iff hx,
      List.getElem?_drop]
    rw [hx] at htop
    constructor
    · rintro ⟨⟨⟨ht, hbefore⟩, hne⟩, hletters, hbehind⟩
      exact ⟨List.isEmpty_eq_false_iff.mp hne, hletters, htop ▸ congrArg some ht, hbefore, hbehind⟩
    · rintro ⟨hne, hletters, ht, hbefore, hbehind⟩
      exact ⟨⟨⟨Option.some.inj (htop.trans ht), hbefore⟩, List.isEmpty_eq_false_iff.mpr hne⟩,
        hletters, hbehind⟩

theorem WholeWords.end_le (h : WholeWords s p.toList i) : i + p.length ≤ s.length := by
  have hi : i < s.length := by
    have hflag := (List.getElem?_eq_some_iff.mp h.top).1
    rwa [Nesting.length_flags] at hflag
  have hlength := length_of_sameLetters h.letters
  rw [List.length_take, List.length_drop, String.length_toList] at hlength
  omega

end Spots

section Find

theorem within_min_iff : Within s a (min b s.length) p i ↔ Within s a b p i := by
  constructor
  · exact fun h => ⟨h.start, Nat.le_trans h.stop (Nat.min_le_left b _), h.stands⟩
  · exact fun h => ⟨h.start, Nat.le_min.mpr ⟨h.stop, h.stands.end_le⟩, h.stands⟩

/-- What is found is the first place at which the phrase stands. -/
theorem find_within (h : (Scan.ofText s).find p a b = some i) :
    Within s a b p i ∧ ∀ j, Within s a b p j → i ≤ j := by
  rw [find_min] at h
  obtain ⟨hstart, hstop, hit, hleast⟩ := find_eq_some (Nat.min_le_right b s.length) h
  exact ⟨within_min_iff.mp ⟨hstart, hstop, hit_iff_wholeWords.mp hit⟩,
    fun j hj => hleast j hj.start (hit_iff_wholeWords.mpr hj.stands)⟩

theorem not_within_of_find (h : (Scan.ofText s).find p a b = none) (i : Nat) :
    ¬ Within s a b p i := by
  intro hi
  rw [find_min] at h
  have hmin := within_min_iff.mpr hi
  exact find_eq_none (Nat.min_le_right b s.length) h hmin.start hmin.stop
    (hit_iff_wholeWords.mpr hmin.stands)

/-- A search that looks over the text for every phrase finds the earliest place of any. -/
theorem earliest_first (s : List Char) (phrases : List String) (a b : Nat) :
    Earliest s phrases a b ((Scan.ofText s).first phrases a b) := by
  induction phrases with
  | nil => exact .none (List.forall_mem_nil _)
  | cons p phrases ih =>
    rw [Scan.first] at ih ⊢
    rw [List.filterMap_cons]
    cases hp : (Scan.ofText s).find p a b with
    | none =>
      have hno := not_within_of_find hp
      rw [Option.map_none]
      generalize Scan.leftmost _ = found at ih ⊢
      cases ih with
      | none absent => exact .none (List.forall_mem_cons.mpr ⟨hno, absent⟩)
      | @some i q earlier later listed stands leftmost preferred =>
        exact .some (congrArg (p :: ·) listed) stands
          (List.forall_mem_cons.mpr ⟨fun j hj => absurd hj (hno j), leftmost⟩)
          (List.forall_mem_cons.mpr ⟨hno i, preferred⟩)
    | some i =>
      obtain ⟨hi, hleast⟩ := find_within hp
      rw [Option.map_some, Scan.leftmost]
      generalize Scan.leftmost _ = found at ih ⊢
      cases ih with
      | none absent =>
        exact .some (List.nil_append _).symm hi
          (List.forall_mem_cons.mpr ⟨hleast, fun q hq j hj => absurd hj (absent q hq j)⟩)
          (List.forall_mem_nil _)
      | @some j q earlier later listed stands leftmost preferred =>
        dsimp only
        by_cases hji : j < i
        · rw [if_pos hji]
          refine .some (congrArg (p :: ·) listed) stands
            (List.forall_mem_cons.mpr ⟨fun k hk => ?_, leftmost⟩)
            (List.forall_mem_cons.mpr ⟨fun h => ?_, preferred⟩)
          · exact Nat.le_trans (Nat.le_of_lt hji) (hleast k hk)
          · exact Nat.not_le.mpr hji (hleast j h)
        · rw [if_neg hji]
          exact .some (List.nil_append _).symm hi
            (List.forall_mem_cons.mpr ⟨hleast, fun q hq k hk =>
              Nat.le_trans (Nat.le_of_not_lt hji) (leftmost q hq k hk)⟩)
            (List.forall_mem_nil _)

end Find

/-- What a forward search gives from one place after the other. -/
def Cursor.looks : Cursor → List Nat → List (Option (Nat × String))
  | _, [] => []
  | c, k :: starts => (c.next k).1 :: (c.next k).2.looks starts

/-- Whatever a search remembers from a place, from there on it gives what looks over the text do. -/
private theorem Recalls.looks {c : Cursor} {starts : List Nat} (h : Recalls s phrases b a c)
    (hstarts : (a :: starts).Pairwise (· ≤ ·)) :
    c.looks starts = starts.map fun k => (Scan.ofText s).first phrases k b := by
  induction starts generalizing a c with
  | nil => rfl
  | cons k starts ih =>
    obtain ⟨hak, hrest⟩ := List.pairwise_cons.mp hstarts
    rw [Cursor.looks, h.next (hak k List.mem_cons_self), ih .again hrest, List.map_cons]

/-- A forward search that remembers the next place of every phrase gives, from places that do not go
back, what a look over the text gives from each of them: the earliest place between there and the
stop at which any of the phrases stands as whole words at the top level, with the phrase that is
listed first of those at that place. -/
theorem looks_earliest (s : List Char) (phrases : List String) (stop : Nat) {starts : List Nat}
    (h : starts.Pairwise (· ≤ ·)) :
    (Cursor.fresh (Scan.ofText s) phrases stop).looks starts =
      starts.map (fun k => (Scan.ofText s).first phrases k stop) ∧
    List.Forall₂ (Earliest s phrases · stop) starts
      ((Cursor.fresh (Scan.ofText s) phrases stop).looks starts) := by
  have hlooks : (Cursor.fresh (Scan.ofText s) phrases stop).looks starts = _ :=
    Recalls.looks (a := 0) .fresh (List.pairwise_cons.mpr ⟨fun k _ => Nat.zero_le k, h⟩)
  refine ⟨hlooks, ?_⟩
  rw [hlooks, List.forall₂_map_right_iff, List.forall₂_same]
  exact fun k _ => earliest_first s phrases k stop

/-- Two joins, of which the first is found by either of two phrases. -/
def twoJoins : List Char := "a left join b join c".toList

theorem looks_earliest_twoJoins :
    [0, 3, 11, 16].Pairwise (· ≤ ·) ∧
    (Cursor.fresh (Scan.ofText twoJoins) ["LEFT JOIN", "JOIN"] 40).looks [0, 3, 11, 16] =
      [some (2, "LEFT JOIN"), some (7, "JOIN"), some (14, "JOIN"), none] ∧
    (Cursor.fresh (Scan.ofText twoJoins) ["LEFT JOIN", "JOIN"] 40).looks [0, 3, 11, 16] =
      [0, 3, 11, 16].map (fun k => (Scan.ofText twoJoins).first ["LEFT JOIN", "JOIN"] k 40) ∧
    List.Forall₂ (Earliest twoJoins ["LEFT JOIN", "JOIN"] · 40) [0, 3, 11, 16]
      ((Cursor.fresh (Scan.ofText twoJoins) ["LEFT JOIN", "JOIN"] 40).looks [0, 3, 11, 16]) := by
  have h : [0, 3, 11, 16].Pairwise (· ≤ ·) := by decide
  exact ⟨h, by decide, looks_earliest twoJoins ["LEFT JOIN", "JOIN"] 40 h⟩

end SqlRecovery.Sql
