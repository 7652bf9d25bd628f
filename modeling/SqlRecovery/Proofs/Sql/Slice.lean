import SqlRecovery.Proofs.Sql.Cursor
import SqlRecovery.Proofs.Sql.Shown

/-! Slices between corresponding places of two texts, and the lines that they are laid out in. -/
namespace SqlRecovery.Sql
open Text Layout

variable {s s' : List Char} {a a' b b' c c' : Nat}

theorem slice_ofText (s : List Char) (a b : Nat) :
    (Scan.ofText s).slice a b = (s.drop a).take (b - a) := by
  rw [Scan.slice, List.map_take, List.map_drop]
  exact congrArg (fun t => (t.drop a).take (b - a)) (Scan.map_char_spots .outside false s)

theorem slice_self (s : List Char) (a : Nat) : (Scan.ofText s).slice a a = [] := by
  rw [slice_ofText, Nat.sub_self, List.take_zero]

theorem take_append_slice (h : a ≤ b) : s.take a ++ (Scan.ofText s).slice a b = s.take b := by
  rw [slice_ofText, ← List.take_add, Nat.add_sub_cancel' h]

theorem slice_append (hab : a ≤ b) (hbc : b ≤ c) :
    (Scan.ofText s).slice a b ++ (Scan.ofText s).slice b c = (Scan.ofText s).slice a c := by
  have h : s.take a ++ ((Scan.ofText s).slice a b ++ (Scan.ofText s).slice b c) =
      s.take a ++ (Scan.ofText s).slice a c := by
    rw [← List.append_assoc, take_append_slice hab, take_append_slice hbc,
      take_append_slice (Nat.le_trans hab hbc)]
  exact List.append_cancel_left h

theorem slice_length (s : List Char) : (Scan.ofText s).slice 0 s.length = s := by
  rw [slice_ofText, List.drop_zero, Nat.sub_zero, List.take_length]

theorem glue_slice (h : a ≤ b) : glue (glueAt s a) ((Scan.ofText s).slice a b) = glueAt s b := by
  rw [glueAt, ← glue_append, take_append_slice h, glueAt]

theorem tight_slice (hs : Tight s) (a b : Nat) : Tight ((Scan.ofText s).slice a b) := by
  have hdrop : Tight (s.take a ++ s.drop a) := by rwa [List.take_append_drop]
  have htake : Tight ((s.drop a).take (b - a) ++ (s.drop a).drop (b - a)) := by
    rw [List.take_append_drop]
    exact hdrop.of_append.2
  rw [slice_ofText]
  exact htake.of_append.1

/-- A slice from a seam on does not go on with a name. -/
theorem Seam.slice (h : Seam s a) (b : Nat) (hglue : glueAt s a = true) :
    startsName ((Scan.ofText s).slice a b) = false := by
  refine startsName_of_append (y := (s.drop a).drop (b - a)) ?_
  rw [slice_ofText, List.take_append_drop]
  exact h hglue

private theorem keys_take (s : List Char) (i : Nat) :
    (keys false s).take (rank s i) = keys false (s.take i) := by
  conv => lhs; rw [← List.take_append_drop i s, keys_append]
  rw [List.take_append_drop]
  exact List.take_left' (length_keys _ _)

private theorem keys_slice (h : a ≤ b) :
    keys (glueAt s a) ((Scan.ofText s).slice a b) =
      ((keys false s).take (rank s b)).drop (rank s a) := by
  rw [keys_take, ← take_append_slice h, keys_append]
  exact (List.drop_left' (length_keys _ _)).symm

/-- Slices between corresponding places look alike. -/
theorem alike_slice (hs : Alike s s') (ha : Level s s' a a') (hb : Level s s' b b') (hab : a ≤ b)
    (hab' : a' ≤ b') :
    Alike ((Scan.ofText s).slice a b) ((Scan.ofText s').slice a' b') := by
  rw [Alike, keys_false (glueAt s a), keys_false (glueAt s' a'), keys_slice hab, keys_slice hab',
    ha.rank_eq, hb.rank_eq, hs]

theorem ink_slice_append (h : a ≤ b) :
    ink (s.take b) = ink (s.take a) ++ ink ((Scan.ofText s).slice a b) := by
  rw [← ink_append, take_append_slice h]

/-- No blank stands in a keyword. -/
private theorem Hit.ink_slice {p : String} {i : Nat} (h : Hit s p i) (hp : Worded p)
    (hword : ink p.toList = p.toList) (hs : Tight s) :
    ink ((Scan.ofText s).slice i (i + p.length)) = (Scan.ofText s).slice i (i + p.length) := by
  have hlength := congrArg List.length (ink_slice_append (s := s) (Nat.le_add_right i p.length))
  have hrank := h.rank_end hp hs
  rw [List.length_append] at hlength
  rw [rank, rank, hword, String.length_toList, hlength] at hrank
  apply List.filter_sublist.eq_of_length_le
  have hshort : ((Scan.ofText s).slice i (i + p.length)).length ≤ p.length := by
    rw [slice_ofText, Nat.add_sub_cancel_left]
    exact List.length_take_le _ _
  change _ ≤ (ink ((Scan.ofText s).slice i (i + p.length))).length
  omega

/-- No name goes on behind a phrase. -/
theorem Hit.startsName_slice {p : String} {i : Nat} (h : Hit s p i) (hp : Worded p) (hs : Tight s)
    (b : Nat) : startsName ((Scan.ofText s).slice (i + p.length) b) = false := by
  refine startsName_of_append (y := (s.drop (i + p.length)).drop (b - (i + p.length))) ?_
  rw [slice_ofText, List.take_append_drop]
  exact h.startsName_end hp hs

theorem twins_slice (hs : Twins s s') (ha : Level s s' a a') (hb : Level s s' b b') (hab : a ≤ b)
    (hab' : a' ≤ b') : Twins ((Scan.ofText s).slice a b) ((Scan.ofText s').slice a' b') :=
  ⟨tight_slice hs.tight a b, tight_slice hs.tight' a' b', alike_slice hs.alike ha hb hab hab'⟩

/-- A keyword and what stands behind it in two texts that look alike. No name goes on into either. -/
structure Headed (g g' : Bool) (k x x' : List Char) : Prop where
  keyword : ink k = k
  nonempty : k ≠ []
  seam : g = true → startsName k = false
  seam' : g' = true → startsName k = false
  twins : Twins x x'
  rest : startsName x = false
  rest' : startsName x' = false

/-- The same keyword stands at corresponding places, written in the same letters. -/
private theorem HitPair.headed {p : String} {i i' : Nat} (h : HitPair s s' p i i')
    (hs : Twins s s') (hp : Worded p) (hword : ink p.toList = p.toList)
    (hb : Onward s s' (i + p.length) (i' + p.length) b b') :
    (Scan.ofText s').slice i' (i' + p.length) = (Scan.ofText s).slice i (i + p.length) ∧
      Headed (glueAt s i) (glueAt s' i') ((Scan.ofText s).slice i (i + p.length))
        ((Scan.ofText s).slice (i + p.length) b) ((Scan.ofText s').slice (i' + p.length) b') := by
  have hmark := h.mark hs hp
  have hend := h.mark_end hs hp
  have hk := h.hit.ink_slice hp hword hs.tight
  have hsame : (Scan.ofText s').slice i' (i' + p.length) =
      (Scan.ofText s).slice i (i + p.length) := by
    have hink := (alike_slice hs.alike hmark.toLevel hend.toLevel (Nat.le_add_right _ _)
      (Nat.le_add_right _ _)).ink_eq
    rw [← h.hit'.ink_slice hp hword hs.tight', ← hink, hk]
  have hne : (Scan.ofText s).slice i (i + p.length) ≠ [] := by
    have hpos := hp.length_pos
    have hle := hend.le
    rw [slice_ofText, ← List.length_pos_iff, List.length_take, List.length_drop]
    omega
  refine ⟨hsame, hk, hne, hmark.seam.slice _, ?_, ?_, h.hit.startsName_slice hp hs.tight b,
    h.hit'.startsName_slice hp hs.tight' b'⟩
  · rw [← hsame]
    exact hmark.seam'.slice _
  · exact twins_slice hs hend.toLevel hb.toLevel hb.start hb.start'

/-- Slices of two texts are laid out alike in these lines. -/
structure LaidAt (s s' : List Char) (a a' b b' : Nat) (lines lines' : List Line) : Prop where
  le : a ≤ b
  le' : a' ≤ b'
  laid : Laid (glueAt s a) (glueAt s' a') ((Scan.ofText s).slice a b) ((Scan.ofText s').slice a' b')
    (shown lines) (shown lines')

theorem laidAt_nil (s s' : List Char) (a a' : Nat) : LaidAt s s' a a' a a' [] [] where
  le := Nat.le_refl a
  le' := Nat.le_refl a'
  laid := by
    rw [slice_ofText, slice_ofText, Nat.sub_self, Nat.sub_self, List.take_zero, List.take_zero]
    exact Laid.nil _ _

theorem LaidAt.append {ks ks' ls ls' : List Line} (h : LaidAt s s' a a' b b' ks ks')
    (h' : LaidAt s s' b b' c c' ls ls') : LaidAt s s' a a' c c' (ks ++ ls) (ks' ++ ls') where
  le := Nat.le_trans h.le h'.le
  le' := Nat.le_trans h.le' h'.le'
  laid := by
    have hrest := h'.laid
    rw [← glue_slice h.le, ← glue_slice h.le'] at hrest
    rw [← slice_append h.le h'.le, ← slice_append h.le' h'.le', shown_append, shown_append]
    exact h.laid.append hrest

/-- A keyword with what stands behind it, if that is laid out alike wherever it stands. -/
theorem laidAt_headed {p : String} {i i' : Nat} {lines : List Char → List Char → List Line}
    (hs : Twins s s') (h : HitPair s s' p i i') (hp : Worded p) (hword : ink p.toList = p.toList)
    (hb : Onward s s' (i + p.length) (i' + p.length) b b')
    (hlines : ∀ {g g' : Bool} {k x x' : List Char}, Headed g g' k x x' →
      Laid g g' (k ++ x) (k ++ x') (shown (lines k x)) (shown (lines k x'))) :
    LaidAt s s' i i' b b'
      (lines ((Scan.ofText s).slice i (i + p.length)) ((Scan.ofText s).slice (i + p.length) b))
      (lines ((Scan.ofText s').slice i' (i' + p.length))
        ((Scan.ofText s').slice (i' + p.length) b')) where
  le := Nat.le_trans (Nat.le_add_right _ _) hb.start
  le' := Nat.le_trans (Nat.le_add_right _ _) hb.start'
  laid := by
    obtain ⟨hsame, hheaded⟩ := h.headed hs hp hword hb
    rw [← slice_append (Nat.le_add_right i p.length) hb.start,
      ← slice_append (Nat.le_add_right i' p.length) hb.start', hsame]
    exact hlines hheaded

theorem laidAt_lineOf {indent : List Char} (hindent : allBlank indent = true) (hs : Twins s s')
    (ha : Mark s s' a a') (hb : Level s s' b b') (hab : a ≤ b) (hab' : a' ≤ b') :
    LaidAt s s' a a' b b' (lineOf indent ((Scan.ofText s).slice a b))
      (lineOf indent ((Scan.ofText s').slice a' b')) where
  le := hab
  le' := hab'
  laid := by
    have hblank : allBlank ('\n' :: indent) = true := hindent
    rw [shown_lineOf, shown_lineOf]
    exact .chunk false (List.cons_ne_nil _ _) hblank
      (alike_slice hs.alike ha.toLevel hb hab hab').ink_eq.symm (ha.seam.slice b)
      (ha.seam'.slice b')

/-- Corresponding places, in order and up to `b` and `b'`, at which two texts are broken. -/
inductive Breaks (s s' : List Char) (b b' : Nat) : Nat → Nat → List Nat → List Nat → Prop
  | nil {a a' : Nat} (stop : a ≤ b) (stop' : a' ≤ b') : Breaks s s' b b' a a' [] []
  | cons {a a' i i' : Nat} {is is' : List Nat} (start : a ≤ i) (start' : a' ≤ i')
    (mark : Mark s s' i i') (rest : Breaks s s' b b' i i' is is') :
    Breaks s s' b b' a a' (i :: is) (i' :: is')

private theorem laidAt_segments {is is' : List Nat} (h : Breaks s s' b b' a a' is is')
    (hs : Twins s s') (ha : Mark s s' a a') (hb : Level s s' b b') :
    LaidAt s s' a a' b b' ((segments (Scan.ofText s) a is b).flatMap (lineOf clauseIndent))
      ((segments (Scan.ofText s') a' is' b').flatMap (lineOf clauseIndent)) := by
  induction h with
  | nil stop stop' =>
    rw [segments, segments, List.flatMap_singleton, List.flatMap_singleton]
    exact laidAt_lineOf rfl hs ha hb stop stop'
  | cons start start' mark rest ih =>
    rw [segments, segments, List.flatMap_cons, List.flatMap_cons]
    exact (laidAt_lineOf rfl hs ha mark.toLevel start start').append (ih mark)

theorem broken_nil (t : Scan) (a b : Nat) : broken t a [] b = lineOf [] (t.slice a b) :=
  List.append_nil _

theorem broken_cons (t : Scan) (a i : Nat) (is : List Nat) (b : Nat) :
    broken t a (i :: is) b =
      lineOf [] (t.slice a i) ++ (segments t i is b).flatMap (lineOf clauseIndent) := rfl

/-- Texts that are broken at corresponding places. -/
theorem laidAt_broken {is is' : List Nat} (h : Breaks s s' b b' a a' is is') (hs : Twins s s')
    (ha : Mark s s' a a') (hb : Level s s' b b') :
    LaidAt s s' a a' b b' (broken (Scan.ofText s) a is b) (broken (Scan.ofText s') a' is' b') := by
  cases h with
  | nil stop stop' =>
    rw [broken_nil, broken_nil]
    exact laidAt_lineOf rfl hs ha hb stop stop'
  | cons start start' mark rest =>
    rw [broken_cons, broken_cons]
    exact (laidAt_lineOf rfl hs ha mark.toLevel start start').append
      (laidAt_segments rest hs mark hb)

end SqlRecovery.Sql
