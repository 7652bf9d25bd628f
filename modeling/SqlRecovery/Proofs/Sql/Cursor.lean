import SqlRecovery.Proofs.Sql.Search

/-! A search for several phrases that remembers where it saw them finds corresponding places in texts
that look alike. -/
namespace SqlRecovery.Sql
open Text

variable {s s' : List Char}

/-- What two searches know of a phrase. -/
inductive SightPair (s s' : List Char) (a a' b b' : Nat) (p : String) : Sighting → Sighting → Prop
  | unknown : SightPair s s' a a' b b' p .unknown .unknown
  | ahead {i i' : Nat} (hit : HitIn s s' a a' b b' p i i') :
    SightPair s s' a a' b b' p (.ahead i) (.ahead i')
  | gone : SightPair s s' a a' b b' p .gone .gone

/-- What two searches know of a phrase that they look for. -/
structure SeenPair (s s' : List Char) (a a' b b' : Nat) (x x' : String × Sighting) : Prop where
  phrase : x'.1 = x.1
  worded : Worded x.1
  sight : SightPair s s' a a' b b' x.1 x.2 x'.2

/-- Two searches that have come to corresponding places. -/
structure CursorPair (s s' : List Char) (a a' : Nat) (c c' : Cursor) : Prop where
  scan : c.scan = Scan.ofText s
  scan' : c'.scan = Scan.ofText s'
  stop : Level s s' c.stop c'.stop
  seen : List.Forall₂ (SeenPair s s' a a' c.stop c'.stop) c.seen c'.seen

private theorem cursorPair_fresh {phrases : List String} (hp : ∀ p ∈ phrases, Worded p) (a a' : Nat)
    {b b' : Nat} (hb : Level s s' b b') :
    CursorPair s s' a a' (.fresh (Scan.ofText s) phrases b) (.fresh (Scan.ofText s') phrases b') where
  scan := rfl
  scan' := rfl
  stop := hb
  seen := by
    induction phrases with
    | nil => exact .nil
    | cons p phrases ih =>
      exact .cons ⟨rfl, hp p List.mem_cons_self, .unknown⟩
        (ih fun q hq => hp q (List.mem_cons_of_mem p hq))

section
variable {a a' k k' : Nat} {c c' : Cursor}

private theorem look_pair (hs : Twins s s') (hc : CursorPair s s' a a' c c')
    (hk : Level s s' k k') {p : String} (hp : Worded p) {σ σ' : Sighting}
    (h : SightPair s s' a a' c.stop c'.stop p σ σ') :
    SightPair s s' k k' c.stop c'.stop p (c.look k p σ) (c'.look k' p σ') := by
  have hsearch : SightPair s s' k k' c.stop c'.stop p (c.search k p) (c'.search k' p) := by
    have hfind := rel_find hs hp hk hc.stop
    rw [← hc.scan, ← hc.scan'] at hfind
    rw [Cursor.search, Cursor.search]
    generalize c.scan.find p k c.stop = o at hfind ⊢
    generalize c'.scan.find p k' c'.stop = o' at hfind ⊢
    cases hfind with
    | none => exact .gone
    | some hit => exact .ahead hit
  cases h with
  | unknown => exact hsearch
  | gone => exact .gone
  | @ahead i i' hit =>
    have hle := hit.toHitPair.le_iff hs hp hk
    rw [Cursor.look, Cursor.look]
    by_cases hi : k ≤ i
    · rw [if_pos hi, if_pos (hle.mp hi)]
      exact .ahead ⟨hit.toHitPair, hi, hle.mp hi, hit.stop, hit.stop'⟩
    · rw [if_neg hi, if_neg fun h => hi (hle.mpr h)]
      exact hsearch

private theorem advance_pair (hs : Twins s s') (hc : CursorPair s s' a a' c c')
    (hk : Level s s' k k') : CursorPair s s' k k' (c.advance k) (c'.advance k') where
  scan := hc.scan
  scan' := hc.scan'
  stop := hc.stop
  seen := by
    change List.Forall₂ (SeenPair s s' k k' c.stop c'.stop) (c.seen.map _) (c'.seen.map _)
    rw [List.forall₂_map_left_iff, List.forall₂_map_right_iff]
    apply hc.seen.imp
    rintro ⟨p, σ⟩ ⟨p', σ'⟩ ⟨hphrase, hworded, hsight⟩
    obtain rfl : p' = p := hphrase
    exact ⟨rfl, hworded, look_pair hs hc hk hworded hsight⟩

private theorem places_pair (hc : CursorPair s s' a a' c c') :
    List.Forall₂ (HitAt s s' a a' c.stop c'.stop) c.places c'.places := by
  rw [Cursor.places, Cursor.places]
  have hseen := hc.seen
  generalize c.seen = xs at hseen ⊢
  generalize c'.seen = xs' at hseen ⊢
  induction hseen with
  | nil => exact .nil
  | @cons x x' xs xs' hx h ih =>
    obtain ⟨p, σ⟩ := x
    obtain ⟨p', σ'⟩ := x'
    obtain ⟨hphrase, hworded, hsight⟩ := hx
    obtain rfl : p' = p := hphrase
    cases hsight with
    | unknown => exact ih
    | gone => exact ih
    | ahead hit => exact .cons ⟨rfl, hworded, hit⟩ ih

private theorem next_pair (hs : Twins s s') (hc : CursorPair s s' a a' c c')
    (hk : Level s s' k k') :
    Option.Rel (HitAt s s' k k' c.stop c'.stop) (c.next k).1 (c'.next k').1 ∧
      CursorPair s s' k k' (c.next k).2 (c'.next k').2 :=
  ⟨rel_leftmost hs (places_pair (advance_pair hs hc hk)), advance_pair hs hc hk⟩

end

/-- Hits that follow each other at corresponding places, all of them up to `b` and `b'`. -/
inductive HitChain (s s' : List Char) (b b' : Nat) :
    Nat → Nat → List (Nat × String) → List (Nat × String) → Prop
  | nil {a a' : Nat} (stop : a ≤ b) (stop' : a' ≤ b') : HitChain s s' b b' a a' [] []
  | cons {a a' : Nat} {x x' : Nat × String} {xs xs' : List (Nat × String)}
    (hit : HitAt s s' a a' b b' x x')
    (rest : HitChain s s' b b' (x.1 + x.2.length) (x'.1 + x'.2.length) xs xs') :
    HitChain s s' b b' a a' (x :: xs) (x' :: xs')

theorem hits_of_none {c : Cursor} {k : Nat} (h : (c.next k).1 = none) : c.hits k = [] := by
  rw [Cursor.hits, h]

/-- A phrase that is found is not empty and ends within bounds, so the search goes on behind it. -/
theorem hits_of_some {c : Cursor} {k i : Nat} {p : String} (h : (c.next k).1 = some (i, p))
    (hp : Worded p) (hk : k ≤ i) (hstop : i + p.length ≤ c.stop) :
    c.hits k = (i, p) :: (c.next k).2.hits (i + p.length) := by
  have hpos := hp.length_pos
  rw [Cursor.hits, h]
  dsimp only
  rw [if_pos (by omega)]

private theorem hits_pair (hs : Twins s s') (c : Cursor) (k : Nat) {c' : Cursor} {a a' k' : Nat}
    (hc : CursorPair s s' a a' c c') (hk : Level s s' k k') (hstop : k ≤ c.stop)
    (hstop' : k' ≤ c'.stop) :
    HitChain s s' c.stop c'.stop k k' (c.hits k) (c'.hits k') := by
  obtain ⟨hfirst, hnext⟩ := next_pair hs hc hk
  induction c, k using Cursor.hits.induct generalizing c' a a' k' with
  | case1 c k hnone =>
    rw [hnone] at hfirst
    generalize ho : (c'.next k').1 = o' at hfirst
    cases hfirst
    rw [hits_of_none hnone, hits_of_none ho]
    exact .nil hstop hstop'
  | case2 c k i p hsome hguard ih =>
    rw [hsome] at hfirst
    generalize ho : (c'.next k').1 = o' at hfirst
    cases hfirst with
    | @some _ x' hx =>
      obtain ⟨i', p'⟩ := x'
      obtain rfl : p' = p := hx.phrase
      have hhit := hx.hit
      have hend := (hhit.toHitPair.mark_end hs hx.worded).toLevel
      rw [hits_of_some hsome hx.worded hhit.start hhit.stop,
        hits_of_some ho hx.worded hhit.start' hhit.stop']
      refine .cons hx ?_
      obtain ⟨hfirst', hnext'⟩ := next_pair hs hnext hend
      exact ih hnext hend hhit.stop hhit.stop' hfirst' hnext'
  | case3 c k i p hsome hguard =>
    rw [hsome] at hfirst
    generalize ho : (c'.next k').1 = o' at hfirst
    cases hfirst with
    | @some _ x' hx =>
      have hstart := hx.hit.start
      have hend := hx.hit.stop
      have hpos := hx.worded.length_pos
      dsimp only at hstart hend hpos
      exact absurd ⟨by omega, by omega⟩ hguard

/-- All places of the phrases between two corresponding places correspond. -/
theorem hitChain_hits (hs : Twins s s') {phrases : List String} (hp : ∀ p ∈ phrases, Worded p)
    {a a' b b' : Nat} (ha : Level s s' a a') (hb : Level s s' b b') (hab : a ≤ b) (hab' : a' ≤ b') :
    HitChain s s' b b' a a' ((Cursor.fresh (Scan.ofText s) phrases b).hits a)
      ((Cursor.fresh (Scan.ofText s') phrases b').hits a') :=
  hits_pair hs _ a (cursorPair_fresh hp a a' hb) ha hab hab'

end SqlRecovery.Sql
