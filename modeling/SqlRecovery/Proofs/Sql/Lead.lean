import SqlRecovery.Proofs.Sql.Clauses
import SqlRecovery.Sql.Layout.Clause

/-! A statement that stands behind a lead is searched and laid out from its beginning on as it is by
itself. Every place lies further on by the length of the lead. -/
namespace SqlRecovery.Sql
open Text

/-- A place with its phrase, that much further on. -/
def moved (k : Nat) (x : Nat × String) : Nat × String := (k + x.1, x.2)

namespace Scan

theorem findFrom_add (k : Nat) (phrase : List Char) (stop start : Nat) (t : Scan) :
    findFrom phrase (k + stop) (k + start) t = (findFrom phrase stop start t).map (k + ·) := by
  induction t generalizing start with
  | nil => rfl
  | cons x t ih =>
    rw [findFrom, findFrom, Nat.add_assoc, Nat.add_assoc, ih]
    simp only [Nat.add_lt_add_iff_left]
    split
    · rfl
    · split <;> rfl

theorem find_append (u t : Scan) (p : String) (a b : Nat) :
    Scan.find (u ++ t) p (u.length + a) (u.length + b) = (t.find p a b).map (u.length + ·) := by
  have hstop : min (u.length + b) (u ++ t).length = u.length + min b t.length := by
    rw [List.length_append, Nat.add_min_add_left]
  rw [find, hstop, List.drop_length_add_append, findFrom_add, find]

theorem slice_append (u t : Scan) (a b : Nat) :
    Scan.slice (u ++ t) (u.length + a) (u.length + b) = t.slice a b := by
  rw [slice, List.drop_length_add_append, Nat.add_sub_add_left, slice]

theorem leftmost_moved (k : Nat) (xs : List (Nat × String)) :
    leftmost (xs.map (moved k)) = (leftmost xs).map (moved k) := by
  induction xs with
  | nil => rfl
  | cons x xs ih =>
    rw [List.map_cons, leftmost, leftmost, ih]
    cases leftmost xs with
    | none => rfl
    | some y =>
      simp only [Option.map_some, moved, Nat.add_lt_add_iff_left]
      split <;> rfl

theorem first_append (u t : Scan) (ps : List String) (a b : Nat) :
    Scan.first (u ++ t) ps (u.length + a) (u.length + b) =
      (t.first ps a b).map (moved u.length) := by
  rw [first, first, ← leftmost_moved, List.map_filterMap]
  congr 1
  refine List.filterMap_congr fun p _ => ?_
  rw [find_append, Option.map_map, Option.map_map]
  rfl

end Scan

namespace Sighting

/-- What is known of a phrase, with its place that much further on. -/
def moved (k : Nat) : Sighting → Sighting
  | .ahead i => .ahead (k + i)
  | .unknown => .unknown
  | .gone => .gone

end Sighting

namespace Cursor

/-- The search behind other spots. -/
def behind (u : Scan) (c : Cursor) : Cursor :=
  ⟨u ++ c.scan, u.length + c.stop, c.seen.map fun x => (x.1, x.2.moved u.length)⟩

variable (u : Scan) (c : Cursor) (k : Nat)

theorem fresh_behind (t : Scan) (ps : List String) (b : Nat) :
    (fresh t ps b).behind u = fresh (u ++ t) ps (u.length + b) := by
  rw [behind, fresh, fresh, List.map_map]
  rfl

theorem search_behind (p : String) :
    (c.behind u).search (u.length + k) p = (c.search k p).moved u.length := by
  have hfind : (c.behind u).scan.find p (u.length + k) (c.behind u).stop =
      (c.scan.find p k c.stop).map (u.length + ·) := Scan.find_append ..
  rw [search, search, hfind]
  cases c.scan.find p k c.stop <;> rfl

theorem look_behind (p : String) (σ : Sighting) :
    (c.behind u).look (u.length + k) p (σ.moved u.length) = (c.look k p σ).moved u.length := by
  cases σ with
  | unknown => exact search_behind u c k p
  | gone => rfl
  | ahead i =>
    rw [Sighting.moved, look, look, search_behind]
    simp only [Nat.add_le_add_iff_left]
    split <;> rfl

theorem advance_behind : (c.behind u).advance (u.length + k) = (c.advance k).behind u := by
  rw [advance, advance, behind, behind, List.map_map]
  congr 1
  rw [List.map_map]
  refine List.map_congr_left fun x _ => ?_
  exact congrArg (x.1, ·) (look_behind u c k x.1 x.2)

theorem places_behind : (c.behind u).places = c.places.map (moved u.length) := by
  rw [places, places, behind, List.filterMap_map, List.map_filterMap]
  refine List.filterMap_congr fun x _ => ?_
  obtain ⟨p, σ⟩ := x
  cases σ <;> rfl

theorem next_behind : (c.behind u).next (u.length + k) =
    ((c.next k).1.map (moved u.length), (c.next k).2.behind u) := by
  rw [next, next, advance_behind, places_behind, Scan.leftmost_moved]

/-- What stands before a search makes no difference to its hits. -/
theorem hits_behind : (c.behind u).hits (u.length + k) = (c.hits k).map (moved u.length) := by
  induction c, k using hits.induct with
  | case1 c k hnone =>
    rw [hits, hits, next_behind, hnone]
    rfl
  | case2 c k i p hsome hguard ih =>
    rw [hits, hits, next_behind, hsome]
    simp only [Option.map_some, moved]
    rw [if_pos hguard, if_pos (by simp only [behind]; omega), Nat.add_assoc, ih, List.map_cons,
      moved]
  | case3 c k i p hsome hguard =>
    rw [hits, hits, next_behind, hsome]
    simp only [Option.map_some, moved]
    rw [if_neg hguard, if_neg (by simp only [behind]; omega), List.map_nil]

end Cursor

namespace Layout
variable (u t : Scan)

theorem segments_append (a : Nat) (cuts : List Nat) (b : Nat) :
    segments (u ++ t) (u.length + a) (cuts.map (u.length + ·)) (u.length + b) =
      segments t a cuts b := by
  induction cuts generalizing a with
  | nil => rw [List.map_nil, segments, segments, Scan.slice_append]
  | cons cut cuts ih => rw [List.map_cons, segments, segments, Scan.slice_append, ih]

theorem broken_append (a : Nat) (cuts : List Nat) (b : Nat) :
    broken (u ++ t) (u.length + a) (cuts.map (u.length + ·)) (u.length + b) = broken t a cuts b := by
  rw [broken, segments_append, broken]

theorem conditionBreaks_moved (k : Nat) (between : Bool) (xs : List (Nat × String)) :
    conditionBreaks between (xs.map (moved k)) = (conditionBreaks between xs).map (k + ·) := by
  induction xs generalizing between with
  | nil => rfl
  | cons x xs ih =>
    obtain ⟨i, p⟩ := x
    rw [List.map_cons, moved, conditionBreaks, conditionBreaks]
    split
    · exact ih true
    · split
      · exact ih false
      · rw [ih, List.map_cons]

theorem whereLines_append (a b : Nat) :
    whereLines (u ++ t) (u.length + a) (u.length + b) = whereLines t a b := by
  rw [whereLines, whereLines, ← Cursor.fresh_behind, Nat.add_assoc, Cursor.hits_behind,
    conditionBreaks_moved, broken_append]

theorem clauseStarts_append (a : Nat) (ps : List String) :
    clauseStarts (u ++ t) (u.length + a) ps = (clauseStarts t a ps).map (moved u.length) := by
  induction ps generalizing a with
  | nil => rfl
  | cons p ps ih =>
    rw [clauseStarts, clauseStarts, List.length_append, Scan.find_append]
    cases t.find p a t.length with
    | none => exact ih a
    | some i =>
      simp only [Option.map_some, List.map_cons, moved]
      rw [Nat.add_assoc, ih]

theorem stop_moved (xs : List (Nat × String)) :
    (((xs.map (moved u.length)).head?.map (·.1)).getD (u ++ t).length) =
      u.length + (xs.head?.map (·.1)).getD t.length := by
  cases xs with
  | nil => exact List.length_append
  | cons x xs => rfl

theorem clauseBodies_append (xs : List (Nat × String)) :
    clauseBodies (u ++ t) (xs.map (moved u.length)) = clauseBodies t xs := by
  induction xs with
  | nil => rfl
  | cons x xs ih =>
    obtain ⟨i, p⟩ := x
    rw [List.map_cons, moved, clauseBodies, clauseBodies, stop_moved, ih, whereLines_append,
      Scan.slice_append]

theorem clauseLines_append (a : Nat) : clauseLines (u ++ t) (u.length + a) = clauseLines t a := by
  rw [clauseLines, clauseLines, clauseStarts_append, stop_moved, Scan.slice_append,
    clauseBodies_append]

theorem clausesFrom_append (a : Nat) :
    clausesFrom (u ++ t) (u.length + a) = u.length + clausesFrom t a := by
  rw [clausesFrom, clausesFrom, List.length_append, Scan.first_append]
  cases t.first clausePhrases a t.length <;> rfl

end Layout

section Lead
open Layout
variable {v : Vocabulary} {lead w : List Char}

private theorem spots_append_space (n : Nesting) (g : Bool) (s t : List Char) :
    Scan.spots n g (s ++ ' ' :: t) =
      Scan.spots n g (s ++ [' ']) ++ Scan.spots (n.after (s ++ [' '])) false t := by
  induction s generalizing n g with
  | nil => rfl
  | cons c s ih =>
    rw [List.cons_append, Scan.spots, ih]
    rfl

/-- Behind what closes all that it opens, and a space, a statement is marked as it is by itself. -/
theorem ofText_lead (h : Nesting.outside.after lead = .outside) (w : List Char) :
    Scan.ofText (lead ++ ' ' :: w) = Scan.ofText (lead ++ [' ']) ++ Scan.ofText w := by
  have hafter : Nesting.outside.after (lead ++ [' ']) = .outside := by
    rw [Nesting.after_append, h]
    rfl
  rw [Scan.ofText, spots_append_space, hafter]
  rfl

/-- No phrase is found in a lead. -/
theorem find_lead (hlead : Inert v lead) (hw : Neat w) {p : String} (hp : p ∈ v.phrases) :
    (Scan.ofText (lead ++ ' ' :: w)).find p 0 (lead ++ ' ' :: w).length =
      ((Scan.ofText w).find p 0 w.length).map ((Scan.ofText (lead ++ [' '])).length + ·) := by
  have hno : ∀ j, 0 ≤ j → j < (lead ++ [' ']).length → ¬ Hit (lead ++ ' ' :: w) p j := by
    intro j _ hj hit
    rw [hit_iff_standsAt (v.worded p hp) (hlead.neat.space hw).tight] at hit
    obtain ⟨k, hk, hword, hstands⟩ := hit.first_word (v.worded p hp)
    rcases hstands.parted hword parting_space hlead.closed with h | ⟨i, rfl, -⟩
    · exact hlead.silent p hp k hk (h.mentions hword.1)
    · omega
  have hlength : (lead ++ ' ' :: w).length = (Scan.ofText (lead ++ [' '])).length + w.length := by
    rw [length_ofText, List.append_cons, List.length_append]
  rw [find_onward (Nat.le_refl _) (Nat.zero_le _) hno, ofText_lead hlead.closed, hlength,
    ← length_ofText (lead ++ [' '])]
  exact Scan.find_append _ _ p 0 w.length

/-- The clauses are found behind the lead. -/
theorem clauseStarts_lead (hlead : Inert v lead) (hw : Neat w) {ps : List String}
    (hps : ∀ p ∈ ps, p ∈ v.phrases) :
    clauseStarts (Scan.ofText (lead ++ ' ' :: w)) 0 ps =
      (clauseStarts (Scan.ofText w) 0 ps).map (moved (Scan.ofText (lead ++ [' '])).length) := by
  induction ps with
  | nil => rfl
  | cons p ps ih =>
    rw [List.forall_mem_cons] at hps
    rw [clauseStarts, clauseStarts, length_ofText (lead ++ ' ' :: w), length_ofText w,
      find_lead hlead hw hps.1]
    cases (Scan.ofText w).find p 0 w.length with
    | none => exact ih hps.2
    | some i =>
      simp only [Option.map_some, List.map_cons, moved]
      rw [Nat.add_assoc, ofText_lead hlead.closed w, clauseStarts_append]

theorem slice_lead (lead w : List Char) :
    (Scan.ofText (lead ++ ' ' :: w)).slice 0 (Scan.ofText (lead ++ [' '])).length =
      lead ++ [' '] := by
  rw [length_ofText, slice_ofText, List.drop_zero, Nat.sub_zero, List.append_cons lead ' ' w,
    List.take_left]

theorem trim_slice_lead (hlead : Neat lead) (w : List Char) :
    trim ((Scan.ofText (lead ++ ' ' :: w)).slice 0 (Scan.ofText (lead ++ [' '])).length) = lead := by
  have hspace : allBlank [' '] = true := rfl
  rw [slice_lead, trim_append_of_allBlank hspace, hlead.trimmed]

end Lead

end SqlRecovery.Sql
