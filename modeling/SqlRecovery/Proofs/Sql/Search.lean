import Mathlib.Data.List.Forall2
import SqlRecovery.Proofs.Sql.Hit
import SqlRecovery.Sql.Cursor

/-! Searches in two texts that look alike find corresponding places. -/
namespace SqlRecovery.Sql
open Text

/-- Two texts on one line that look alike to a search. -/
structure Twins (s s' : List Char) : Prop where
  tight : Tight s
  tight' : Tight s'
  alike : Alike s s'

/-- Corresponding places of two texts. -/
structure Level (s s' : List Char) (i i' : Nat) : Prop where
  le : i ≤ s.length
  le' : i' ≤ s'.length
  rank_eq : rank s i = rank s' i'

/-- No name goes on at the place. -/
def Seam (s : List Char) (i : Nat) : Prop := glueAt s i = true → startsName (s.drop i) = false

/-- Corresponding places between which and what stands before them blanks make no difference. -/
structure Mark (s s' : List Char) (i i' : Nat) : Prop extends Level s s' i i' where
  seam : Seam s i
  seam' : Seam s' i'

/-- Corresponding places at which a phrase is found. -/
structure HitPair (s s' : List Char) (p : String) (i i' : Nat) : Prop where
  hit : Hit s p i
  hit' : Hit s' p i'
  rank_eq : rank s i = rank s' i'

/-- Corresponding places of which the second lies behind the first. -/
structure Onward (s s' : List Char) (a a' b b' : Nat) : Prop extends Mark s s' b b' where
  start : a ≤ b
  start' : a' ≤ b'

theorem rel_bind {α α' β β' : Type} {R : α → α' → Prop} {S : β → β' → Prop} {o : Option α}
    {o' : Option α'} {f : α → Option β} {f' : α' → Option β'} (h : Option.Rel R o o')
    (hf : ∀ {a a'}, R a a' → Option.Rel S (f a) (f' a')) :
    Option.Rel S (o >>= f) (o' >>= f') := by
  cases h with
  | none => exact .none
  | some h => exact hf h

section
variable {s s' : List Char} {p : String} {i i' : Nat}

theorem mark_zero (s s' : List Char) : Mark s s' 0 0 where
  le := Nat.zero_le _
  le' := Nat.zero_le _
  rank_eq := rfl
  seam := fun h => by cases h
  seam' := fun h => by cases h

theorem mark_length (h : Twins s s') : Mark s s' s.length s'.length where
  le := Nat.le_refl _
  le' := Nat.le_refl _
  rank_eq := by rw [rank_length, rank_length, h.alike.ink_eq]
  seam := fun _ => by rw [List.drop_length]; rfl
  seam' := fun _ => by rw [List.drop_length]; rfl

namespace HitPair

theorem mark (h : HitPair s s' p i i') (hs : Twins s s') (hp : Worded p) : Mark s s' i i' where
  le := Nat.le_trans (Nat.le_add_right _ _) (h.hit.end_le hp hs.tight)
  le' := Nat.le_trans (Nat.le_add_right _ _) (h.hit'.end_le hp hs.tight')
  rank_eq := h.rank_eq
  seam := fun hglue => by rw [h.hit.glueAt_eq hp hs.tight] at hglue; cases hglue
  seam' := fun hglue => by rw [h.hit'.glueAt_eq hp hs.tight'] at hglue; cases hglue

theorem mark_end (h : HitPair s s' p i i') (hs : Twins s s') (hp : Worded p) :
    Mark s s' (i + p.length) (i' + p.length) where
  le := h.hit.end_le hp hs.tight
  le' := h.hit'.end_le hp hs.tight'
  rank_eq := by rw [h.hit.rank_end hp hs.tight, h.hit'.rank_end hp hs.tight', h.rank_eq]
  seam := fun _ => h.hit.startsName_end hp hs.tight
  seam' := fun _ => h.hit'.startsName_end hp hs.tight'

theorem le_iff (h : HitPair s s' p i i') (hs : Twins s s') (hp : Worded p) {a a' : Nat}
    (ha : Level s s' a a') : a ≤ i ↔ a' ≤ i' := by
  rw [le_iff_rank_le (h.hit.inkAt hp hs.tight), le_iff_rank_le (h.hit'.inkAt hp hs.tight'),
    ha.rank_eq, h.rank_eq]

theorem end_le_iff (h : HitPair s s' p i i') (hs : Twins s s') (hp : Worded p) {b b' : Nat}
    (hb : Level s s' b b') : i + p.length ≤ b ↔ i' + p.length ≤ b' := by
  rw [h.hit.end_le_iff hp hs.tight, h.hit'.end_le_iff hp hs.tight', hb.rank_eq,
    (h.mark_end hs hp).rank_eq]

/-- Hits follow each other in the same order. -/
theorem lt_iff {q : String} {j j' : Nat} (h : HitPair s s' p i i') (h' : HitPair s s' q j j')
    (hs : Twins s s') (hp : Worded p) : i < j ↔ i' < j' := by
  rw [lt_iff_rank_lt (h.hit.inkAt hp hs.tight), lt_iff_rank_lt (h.hit'.inkAt hp hs.tight'),
    h.rank_eq, h'.rank_eq]

end HitPair

private theorem findFrom_eq_some {phrase : List Char} {stop start i : Nat} {t : Scan}
    (h : Scan.findFrom phrase stop start t = some i) :
    start ≤ i ∧ i + phrase.length ≤ stop ∧ Scan.beginsWith phrase (t.drop (i - start)) = true ∧
      ∀ j, start ≤ j → j < i → Scan.beginsWith phrase (t.drop (j - start)) = false := by
  induction t generalizing start with
  | nil => cases h
  | cons x t ih =>
    rw [Scan.findFrom] at h
    split at h
    case isTrue => cases h
    case isFalse hstop =>
      split at h
      case isTrue hbegins =>
        obtain rfl := Option.some.inj h
        refine ⟨Nat.le_refl _, Nat.le_of_not_lt hstop, ?_, ?_⟩
        · rw [Nat.sub_self]
          exact hbegins
        · intro j hj hlt
          omega
      case isFalse hbegins =>
        obtain ⟨hle, hend, hhit, hfirst⟩ := ih h
        have hsub : ∀ j, start + 1 ≤ j → j - start = (j - (start + 1)) + 1 := by
          intro j hj
          omega
        refine ⟨Nat.le_of_succ_le hle, hend, ?_, ?_⟩
        · rw [hsub i hle, List.drop_succ_cons]
          exact hhit
        · intro j hj hlt
          rcases Nat.eq_or_lt_of_le hj with rfl | hj
          · rw [Nat.sub_self]
            exact Bool.not_eq_true _ |>.mp hbegins
          · rw [hsub j hj, List.drop_succ_cons]
            exact hfirst j hj hlt

private theorem findFrom_eq_none {phrase : List Char} {stop start j : Nat} {t : Scan}
    (h : Scan.findFrom phrase stop start t = none) (hj : start ≤ j)
    (hstop : j + phrase.length ≤ stop) :
    Scan.beginsWith phrase (t.drop (j - start)) = false := by
  induction t generalizing start with
  | nil =>
    rw [List.drop_nil]
    rfl
  | cons x t ih =>
    rw [Scan.findFrom, if_neg (by omega)] at h
    split at h
    case isTrue => cases h
    case isFalse hbegins =>
      rcases Nat.eq_or_lt_of_le hj with rfl | hj
      · rw [Nat.sub_self]
        exact Bool.not_eq_true _ |>.mp hbegins
      · have hsub : j - start = (j - (start + 1)) + 1 := by omega
        rw [hsub, List.drop_succ_cons]
        exact ih h hj

/-- The place that is found is the first at which the phrase is found. -/
theorem find_eq_some {a b : Nat} (hb : b ≤ s.length)
    (h : (Scan.ofText s).find p a b = some i) :
    a ≤ i ∧ i + p.length ≤ b ∧ Hit s p i ∧ ∀ j, a ≤ j → Hit s p j → i ≤ j := by
  rw [Scan.find, length_ofText, Nat.min_eq_left hb] at h
  obtain ⟨hle, hend, hhit, hfirst⟩ := findFrom_eq_some h
  rw [String.length_toList] at hend
  have hdrop : ∀ j, a ≤ j → ((Scan.ofText s).drop a).drop (j - a) = (Scan.ofText s).drop j := by
    intro j hj
    rw [List.drop_drop, Nat.add_sub_cancel' hj]
  rw [hdrop i hle] at hhit
  refine ⟨hle, hend, hhit, ?_⟩
  intro j hj hit
  refine Nat.le_of_not_lt fun hlt => ?_
  have hno := hfirst j hj hlt
  rw [hdrop j hj, hit] at hno
  cases hno

theorem find_eq_none {a b j : Nat} (hb : b ≤ s.length)
    (h : (Scan.ofText s).find p a b = none) (hj : a ≤ j) (hend : j + p.length ≤ b) :
    ¬ Hit s p j := by
  rw [Scan.find, length_ofText, Nat.min_eq_left hb] at h
  have hno := findFrom_eq_none h hj (by rwa [String.length_toList])
  rw [List.drop_drop, Nat.add_sub_cancel' hj] at hno
  rw [Hit, hno]
  exact Bool.false_ne_true

/-- Corresponding places at which a phrase is found between two corresponding places. -/
structure HitIn (s s' : List Char) (a a' b b' : Nat) (p : String) (i i' : Nat) : Prop
    extends HitPair s s' p i i' where
  start : a ≤ i
  start' : a' ≤ i'
  stop : i + p.length ≤ b
  stop' : i' + p.length ≤ b'

theorem rel_find (hs : Twins s s') (hp : Worded p) {a a' b b' : Nat} (ha : Level s s' a a')
    (hb : Level s s' b b') :
    Option.Rel (HitIn s s' a a' b b' p) ((Scan.ofText s).find p a b)
      ((Scan.ofText s').find p a' b') := by
  cases h : (Scan.ofText s).find p a b with
  | none =>
    cases h' : (Scan.ofText s').find p a' b' with
    | none => exact .none
    | some i' =>
      obtain ⟨hstart, hstop, hit, -⟩ := find_eq_some hb.le' h'
      obtain ⟨i, hit', hrank⟩ := hit.transfer hp hs.tight' hs.tight hs.alike.symm
      have hpair : HitPair s s' p i i' := ⟨hit', hit, hrank⟩
      exact absurd hit' (find_eq_none hb.le h ((hpair.le_iff hs hp ha).mpr hstart)
        ((hpair.end_le_iff hs hp hb).mpr hstop))
  | some i =>
    obtain ⟨hstart, hstop, hit, hfirst⟩ := find_eq_some hb.le h
    obtain ⟨i', hit', hrank⟩ := hit.transfer hp hs.tight hs.tight' hs.alike
    have hpair : HitPair s s' p i i' := ⟨hit, hit', hrank.symm⟩
    have hstart' := (hpair.le_iff hs hp ha).mp hstart
    have hstop' := (hpair.end_le_iff hs hp hb).mp hstop
    cases h' : (Scan.ofText s').find p a' b' with
    | none => exact absurd hit' (find_eq_none hb.le' h' hstart' hstop')
    | some k' =>
      obtain ⟨hkstart, -, hkhit, hkfirst⟩ := find_eq_some hb.le' h'
      obtain ⟨k, hk, hkrank⟩ := hkhit.transfer hp hs.tight' hs.tight hs.alike.symm
      have hkpair : HitPair s s' p k k' := ⟨hk, hkhit, hkrank⟩
      have hle : k' ≤ i' := hkfirst i' hstart' hit'
      have hge : i' ≤ k' := by
        have hik := hfirst k ((hkpair.le_iff hs hp ha).mpr hkstart) hk
        refine Nat.le_of_not_lt fun hlt => ?_
        exact absurd hik (Nat.not_le.mpr ((hkpair.lt_iff hpair hs hp).mpr hlt))
      obtain rfl := Nat.le_antisymm hle hge
      exact .some ⟨hpair, hstart, hstart', hstop, hstop'⟩

/-- Corresponding places with the phrases that are found there. -/
structure HitAt (s s' : List Char) (a a' b b' : Nat) (x x' : Nat × String) : Prop where
  phrase : x'.2 = x.2
  worded : Worded x.2
  hit : HitIn s s' a a' b b' x.2 x.1 x'.1

theorem HitAt.le_end {a a' b b' : Nat} {x x' : Nat × String} (h : HitAt s s' a a' b b' x x') :
    a ≤ x.1 + x.2.length ∧ a' ≤ x'.1 + x'.2.length :=
  ⟨Nat.le_trans h.hit.start (Nat.le_add_right _ _),
    Nat.le_trans h.hit.start' (Nat.le_add_right _ _)⟩

theorem rel_leftmost (hs : Twins s s') {a a' b b' : Nat} {xs xs' : List (Nat × String)}
    (h : List.Forall₂ (HitAt s s' a a' b b') xs xs') :
    Option.Rel (HitAt s s' a a' b b') (Scan.leftmost xs) (Scan.leftmost xs') := by
  induction h with
  | nil => exact .none
  | @cons x x' xs xs' hx h ih =>
    rw [Scan.leftmost, Scan.leftmost]
    cases hl : Scan.leftmost xs with
    | none =>
      cases hl' : Scan.leftmost xs' with
      | none => exact .some hx
      | some y' => rw [hl, hl'] at ih; cases ih
    | some y =>
      cases hl' : Scan.leftmost xs' with
      | none => rw [hl, hl'] at ih; cases ih
      | some y' =>
        rw [hl, hl'] at ih
        cases ih with
        | some hy =>
          have hxpair := hx.hit.toHitPair
          have hlt : y.1 < x.1 ↔ y'.1 < x'.1 :=
            hy.hit.toHitPair.lt_iff hxpair hs hy.worded
          dsimp only
          by_cases hyx : y.1 < x.1
          · rw [if_pos hyx, if_pos (hlt.mp hyx)]
            exact .some hy
          · rw [if_neg hyx, if_neg fun h => hyx (hlt.mpr h)]
            exact .some hx

/-- The first of several phrases is the same at corresponding places. -/
theorem rel_first (hs : Twins s s') {phrases : List String} (hp : ∀ p ∈ phrases, Worded p)
    {a a' b b' : Nat} (ha : Level s s' a a') (hb : Level s s' b b') :
    Option.Rel (HitAt s s' a a' b b') ((Scan.ofText s).first phrases a b)
      ((Scan.ofText s').first phrases a' b') := by
  apply rel_leftmost hs
  induction phrases with
  | nil => exact .nil
  | cons p phrases ih =>
    have hrest := ih fun q hq => hp q (List.mem_cons_of_mem p hq)
    have hworded := hp p List.mem_cons_self
    rw [List.filterMap_cons, List.filterMap_cons]
    have hfind := rel_find hs hworded ha hb
    generalize (Scan.ofText s).find p a b = o at hfind ⊢
    generalize (Scan.ofText s').find p a' b' = o' at hfind ⊢
    cases hfind with
    | none => exact hrest
    | some hit => exact .cons ⟨rfl, hworded, hit⟩ hrest

end

end SqlRecovery.Sql
