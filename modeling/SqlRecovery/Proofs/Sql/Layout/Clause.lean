import SqlRecovery.Proofs.Sql.Slice

/-! The clauses of two texts that look alike are laid out alike. -/
namespace SqlRecovery.Sql.Layout
open Text

variable {s s' : List Char} {a a' b b' k k' : Nat}

theorem breaks_conditionBreaks (hs : Twins s s') {xs xs' : List (Nat × String)}
    (h : HitChain s s' b b' k k' xs xs') (between : Bool) (hak : a ≤ k) (hak' : a' ≤ k') :
    Breaks s s' b b' a a' (conditionBreaks between xs) (conditionBreaks between xs') := by
  induction h generalizing a a' between with
  | nil stop stop' => exact .nil (Nat.le_trans hak stop) (Nat.le_trans hak' stop')
  | @cons k k' x x' xs xs' hx rest ih =>
    obtain ⟨i, p⟩ := x
    obtain ⟨i', p'⟩ := x'
    have hend := hx.le_end
    obtain rfl : p' = p := hx.phrase
    rw [conditionBreaks, conditionBreaks]
    split
    · exact ih true (Nat.le_trans hak hend.1) (Nat.le_trans hak' hend.2)
    · split
      · exact ih false (Nat.le_trans hak hend.1) (Nat.le_trans hak' hend.2)
      · exact .cons (Nat.le_trans hak hx.hit.start) (Nat.le_trans hak' hx.hit.start')
          (hx.hit.toHitPair.mark hs hx.worded)
          (ih between (Nat.le_add_right _ _) (Nat.le_add_right _ _))

theorem breaks_of_hitChain (hs : Twins s s') {xs xs' : List (Nat × String)}
    (h : HitChain s s' b b' k k' xs xs') (hak : a ≤ k) (hak' : a' ≤ k') :
    Breaks s s' b b' a a' (xs.map (·.1)) (xs'.map (·.1)) := by
  induction h generalizing a a' with
  | nil stop stop' => exact .nil (Nat.le_trans hak stop) (Nat.le_trans hak' stop')
  | @cons k k' x x' xs xs' hx rest ih =>
    exact .cons (Nat.le_trans hak hx.hit.start) (Nat.le_trans hak' hx.hit.start')
      (hx.hit.toHitPair.mark hs hx.worded) (ih (Nat.le_add_right _ _) (hx.phrase ▸ Nat.le_add_right _ _))

theorem worded_condition : ∀ p ∈ conditionPhrases, Worded p := by decide

theorem worded_clause : ∀ p ∈ clausePhrases, Worded p := by decide

private theorem laidAt_whereLines (hs : Twins s s') {i i' : Nat} (hi : HitPair s s' "WHERE" i i')
    (hb : Level s s' b b') (hstop : i + "WHERE".length ≤ b) (hstop' : i' + "WHERE".length ≤ b') :
    LaidAt s s' i i' b b' (whereLines (Scan.ofText s) i b) (whereLines (Scan.ofText s') i' b') := by
  have hwhere : Worded "WHERE" := by decide
  have hhits := hitChain_hits hs worded_condition (hi.mark_end hs hwhere).toLevel hb hstop hstop'
  exact laidAt_broken (breaks_conditionBreaks hs hhits false (Nat.le_add_right _ _)
    (Nat.le_add_right _ _)) hs (hi.mark hs hwhere) hb

theorem hitChain_clauseStarts (hs : Twins s s') {phrases : List String}
    (hp : ∀ p ∈ phrases, Worded p) (ha : Mark s s' a a') :
    HitChain s s' s.length s'.length a a' (clauseStarts (Scan.ofText s) a phrases)
      (clauseStarts (Scan.ofText s') a' phrases) := by
  induction phrases generalizing a a' with
  | nil => exact .nil ha.le ha.le'
  | cons p phrases ih =>
    have hrest := fun {k k' : Nat} (hk : Mark s s' k k') =>
      ih (fun q hq => hp q (List.mem_cons_of_mem p hq)) hk
    have hworded := hp p List.mem_cons_self
    have hfind := rel_find hs hworded ha.toLevel (mark_length hs).toLevel
    rw [clauseStarts, clauseStarts, length_ofText, length_ofText]
    generalize (Scan.ofText s).find p a s.length = o at hfind ⊢
    generalize (Scan.ofText s').find p a' s'.length = o' at hfind ⊢
    cases hfind with
    | none => exact hrest ha
    | some hit =>
      exact .cons ⟨rfl, hworded, hit⟩ (hrest (hit.toHitPair.mark_end hs hworded))

/-- Where the first clause begins. -/
def firstStart (s : List Char) (xs : List (Nat × String)) : Nat :=
  (xs.head?.map (·.1)).getD s.length

theorem onward_firstStart (hs : Twins s s') {xs xs' : List (Nat × String)}
    (h : HitChain s s' s.length s'.length a a' xs xs') :
    Onward s s' a a' (firstStart s xs) (firstStart s' xs') := by
  cases h with
  | nil stop stop' => exact ⟨mark_length hs, stop, stop'⟩
  | cons hx rest => exact ⟨hx.hit.toHitPair.mark hs hx.worded, hx.hit.start, hx.hit.start'⟩

private theorem laidAt_clauseBodies (hs : Twins s s') {xs xs' : List (Nat × String)}
    (h : HitChain s s' s.length s'.length a a' xs xs') :
    LaidAt s s' (firstStart s xs) (firstStart s' xs') s.length s'.length
      (clauseBodies (Scan.ofText s) xs) (clauseBodies (Scan.ofText s') xs') := by
  induction h with
  | nil stop stop' => exact laidAt_nil s s' _ _
  | @cons a a' x x' xs xs' hx rest ih =>
    obtain ⟨i, p⟩ := x
    obtain ⟨i', p'⟩ := x'
    obtain rfl : p' = p := hx.phrase
    have hstop := onward_firstStart hs rest
    have hmark := hx.hit.toHitPair.mark hs hx.worded
    rw [clauseBodies, clauseBodies, length_ofText, length_ofText]
    change LaidAt s s' i i' _ _ _ _
    have hle := Nat.le_trans (Nat.le_add_right i p'.length) hstop.start
    have hle' := Nat.le_trans (Nat.le_add_right i' p'.length) hstop.start'
    refine LaidAt.append ?_ ih
    split
    case isTrue hp =>
      obtain rfl := beq_iff_eq.mp hp
      exact laidAt_whereLines hs hx.hit.toHitPair hstop.toLevel hstop.start hstop.start'
    case isFalse => exact laidAt_lineOf rfl hs hmark hstop.toLevel hle hle'

theorem laidAt_clauseLines (hs : Twins s s') (ha : Mark s s' a a') :
    LaidAt s s' a a' s.length s'.length (clauseLines (Scan.ofText s) a)
      (clauseLines (Scan.ofText s') a') := by
  have hchain := hitChain_clauseStarts hs worded_clause ha
  have hstop := onward_firstStart hs hchain
  rw [clauseLines, clauseLines, length_ofText, length_ofText]
  exact (laidAt_lineOf rfl hs ha hstop.toLevel hstop.start hstop.start').append
    (laidAt_clauseBodies hs hchain)

theorem onward_clausesFrom (hs : Twins s s') (ha : Mark s s' a a') :
    Onward s s' a a' (clausesFrom (Scan.ofText s) a) (clausesFrom (Scan.ofText s') a') := by
  have hfirst := rel_first hs worded_clause ha.toLevel (mark_length hs).toLevel
  rw [clausesFrom, clausesFrom, length_ofText, length_ofText]
  generalize (Scan.ofText s).first clausePhrases a s.length = o at hfirst ⊢
  generalize (Scan.ofText s').first clausePhrases a' s'.length = o' at hfirst ⊢
  cases hfirst with
  | none => exact ⟨mark_length hs, ha.le, ha.le'⟩
  | some hx => exact ⟨hx.hit.toHitPair.mark hs hx.worded, hx.hit.start, hx.hit.start'⟩

end SqlRecovery.Sql.Layout
