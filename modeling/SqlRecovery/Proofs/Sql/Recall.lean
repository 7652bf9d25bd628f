import SqlRecovery.Proofs.Sql.Cursor

/-! A search that remembers where it saw its phrases finds what it would find if it looked again. So
its hits can be told from the places of the phrases alone. -/
namespace SqlRecovery.Sql
open Text

variable {s : List Char} {p : String} {a b i k : Nat}

section Find

theorem find_of_hit (hb : b ≤ s.length) (ha : a ≤ i) (hstop : i + p.length ≤ b) (hit : Hit s p i)
    (hfirst : ∀ j, a ≤ j → j < i → ¬ Hit s p j) : (Scan.ofText s).find p a b = some i := by
  cases h : (Scan.ofText s).find p a b with
  | none => exact absurd hit (find_eq_none hb h ha hstop)
  | some j =>
    obtain ⟨haj, -, hj, hleast⟩ := find_eq_some hb h
    have hij : i ≤ j := Nat.le_of_not_lt fun hlt => hfirst j haj hlt hj
    rw [Nat.le_antisymm (hleast i ha hit) hij]

theorem find_of_no_hit (hb : b ≤ s.length)
    (h : ∀ j, a ≤ j → j + p.length ≤ b → ¬ Hit s p j) : (Scan.ofText s).find p a b = none := by
  cases hfind : (Scan.ofText s).find p a b with
  | none => rfl
  | some j =>
    obtain ⟨haj, hstop, hj, -⟩ := find_eq_some hb hfind
    exact absurd hj (h j haj hstop)

/-- A search may begin behind a stretch in which nothing is found. -/
theorem find_onward (hb : b ≤ s.length) (hak : a ≤ k)
    (hno : ∀ j, a ≤ j → j < k → ¬ Hit s p j) :
    (Scan.ofText s).find p a b = (Scan.ofText s).find p k b := by
  cases h : (Scan.ofText s).find p k b with
  | none =>
    refine find_of_no_hit hb fun j haj hstop hit => ?_
    rcases Nat.lt_or_ge j k with hjk | hkj
    · exact hno j haj hjk hit
    · exact find_eq_none hb h hkj hstop hit
  | some i =>
    obtain ⟨hki, hstop, hit, hleast⟩ := find_eq_some hb h
    refine find_of_hit hb (Nat.le_trans hak hki) hstop hit fun j haj hji hj => ?_
    rcases Nat.lt_or_ge j k with hjk | hkj
    · exact hno j haj hjk hj
    · exact Nat.not_lt.mpr (hleast j hkj hj) hji

/-- A search stops at the end of the text. -/
theorem find_min (s : List Char) (p : String) (a b : Nat) :
    (Scan.ofText s).find p a b = (Scan.ofText s).find p a (min b s.length) := by
  rw [Scan.find, Scan.find, length_ofText, Nat.min_eq_left (Nat.min_le_right b s.length)]

theorem find_length (s : List Char) (p : String) (b : Nat) :
    (Scan.ofText s).find p s.length b = none := by
  rw [Scan.find, ← length_ofText, List.drop_length]
  rfl

end Find

section First

variable {phrases : List String}

theorem first_onward (hb : b ≤ s.length) (hak : a ≤ k)
    (hno : ∀ p ∈ phrases, ∀ j, a ≤ j → j < k → ¬ Hit s p j) :
    (Scan.ofText s).first phrases a b = (Scan.ofText s).first phrases k b := by
  rw [Scan.first, Scan.first]
  congr 1
  exact List.filterMap_congr fun p hp => by rw [find_onward hb hak (hno p hp)]

private theorem mem_of_leftmost {x : Nat × String} {xs : List (Nat × String)}
    (h : Scan.leftmost xs = some x) : x ∈ xs := by
  induction xs generalizing x with
  | nil => cases h
  | cons y ys ih =>
    rw [Scan.leftmost] at h
    cases hys : Scan.leftmost ys with
    | none =>
      rw [hys] at h
      obtain rfl := Option.some.inj h
      exact List.mem_cons_self
    | some z =>
      rw [hys] at h
      dsimp only at h
      split at h
      · obtain rfl := Option.some.inj h
        exact List.mem_cons_of_mem y (ih hys)
      · obtain rfl := Option.some.inj h
        exact List.mem_cons_self

/-- Of hits none of which lies further left, and of which one alone lies there. -/
private theorem leftmost_of_mem {x : Nat × String} {xs : List (Nat × String)} (hx : x ∈ xs)
    (h : ∀ y ∈ xs, x.1 ≤ y.1 ∧ (y.1 = x.1 → y = x)) : Scan.leftmost xs = some x := by
  induction xs with
  | nil => cases hx
  | cons y ys ih =>
    rw [List.forall_mem_cons] at h
    obtain ⟨⟨hle, hsame⟩, hys⟩ := h
    rw [Scan.leftmost]
    rcases List.mem_cons.mp hx with rfl | hx
    · cases hz : Scan.leftmost ys with
      | none => rfl
      | some z =>
        dsimp only
        rw [if_neg (Nat.not_lt.mpr (hys z (mem_of_leftmost hz)).1)]
    · rw [ih hx hys]
      dsimp only
      split
      · rfl
      · rw [hsame (by omega)]

/-- A phrase that is found at once, and no other there. -/
theorem first_of_hit (hb : b ≤ s.length) (hp : p ∈ phrases) (hit : Hit s p a)
    (hstop : a + p.length ≤ b) (honly : ∀ q ∈ phrases, Hit s q a → q = p) :
    (Scan.ofText s).first phrases a b = some (a, p) := by
  have hfind : (Scan.ofText s).find p a b = some a :=
    find_of_hit hb (Nat.le_refl a) hstop hit fun j haj hja => absurd haj (Nat.not_le.mpr hja)
  refine leftmost_of_mem (List.mem_filterMap.mpr ⟨p, hp, by rw [hfind]; rfl⟩) fun y hy => ?_
  obtain ⟨q, hq, hy⟩ := List.mem_filterMap.mp hy
  obtain ⟨j, hj, rfl⟩ := Option.map_eq_some_iff.mp hy
  obtain ⟨haj, -, hit', -⟩ := find_eq_some hb hj
  refine ⟨haj, fun hja => ?_⟩
  obtain rfl : j = a := hja
  rw [honly q hq hit']

/-- Nothing is found where a search has to stop at once. -/
theorem first_self (hb : b ≤ s.length) (hp : ∀ p ∈ phrases, Worded p) :
    (Scan.ofText s).first phrases b b = none := by
  have hnone : phrases.filterMap (fun p => ((Scan.ofText s).find p b b).map (·, p)) = [] := by
    refine List.filterMap_eq_nil_iff.mpr fun p hmem => ?_
    have hpos := (hp p hmem).length_pos
    rw [find_of_no_hit hb fun j hbj hstop => by omega]
    rfl
  rw [Scan.first, hnone, Scan.leftmost]

theorem first_singleton (t : Scan) (p : String) (a b : Nat) :
    t.first [p] a b = (t.find p a b).map (·, p) := by
  rw [Scan.first, List.filterMap_cons]
  cases t.find p a b <;> rfl

end First

/-- What a search from a place on sees of the phrase. -/
def sighting (s : List Char) (b k : Nat) (p : String) : Sighting :=
  match (Scan.ofText s).find p k b with
  | some i => .ahead i
  | none => .gone

/-- A search for these phrases that has looked from the place. -/
def looked (s : List Char) (phrases : List String) (b k : Nat) : Cursor :=
  ⟨Scan.ofText s, b, phrases.map fun p => (p, sighting s b k p)⟩

/-- A search that remembers of every phrase nothing, or what can be seen from the place. -/
inductive Recalls (s : List Char) (phrases : List String) (b a : Nat) : Cursor → Prop
  | fresh : Recalls s phrases b a (.fresh (Scan.ofText s) phrases b)
  | again : Recalls s phrases b a (looked s phrases b a)

section Recall
variable {phrases : List String} {c : Cursor}

/-- What was seen from a place is still seen, or looked for again. -/
private theorem look_sighting (hak : a ≤ k) (seen : List (String × Sighting)) :
    (Cursor.mk (Scan.ofText s) b seen).look k p (sighting s b a p) = sighting s b k p := by
  have hb : min b s.length ≤ s.length := Nat.min_le_right b s.length
  rw [sighting]
  cases h : (Scan.ofText s).find p a b with
  | none =>
    have hgone : (Scan.ofText s).find p k b = none := by
      rw [find_min] at h ⊢
      exact find_of_no_hit hb fun j hkj => find_eq_none hb h (Nat.le_trans hak hkj)
    rw [sighting, hgone]
    rfl
  | some i =>
    dsimp only [Cursor.look]
    split
    case isTrue hki =>
      have hahead : (Scan.ofText s).find p k b = some i := by
        rw [find_min] at h ⊢
        obtain ⟨-, hstop, hit, hleast⟩ := find_eq_some hb h
        exact find_of_hit hb hki hstop hit fun j hkj hji hj =>
          Nat.not_lt.mpr (hleast j (Nat.le_trans hak hkj) hj) hji
      rw [sighting, hahead]
    case isFalse => rfl

/-- Whatever a search remembers, a look leads to the same. -/
private theorem Recalls.advance (h : Recalls s phrases b a c) (hak : a ≤ k) :
    c.advance k = looked s phrases b k := by
  cases h with
  | fresh =>
    rw [Cursor.advance, Cursor.fresh, List.map_map]
    rfl
  | again =>
    rw [Cursor.advance, looked, looked, List.map_map]
    congr 1
    exact List.map_congr_left fun p _ => congrArg (p, ·) (look_sighting hak _)

private theorem places_looked (s : List Char) (phrases : List String) (b k : Nat) :
    (looked s phrases b k).places =
      phrases.filterMap fun p => ((Scan.ofText s).find p k b).map (·, p) := by
  rw [Cursor.places, looked, List.filterMap_map]
  refine List.filterMap_congr fun p _ => ?_
  rw [Function.comp_apply, sighting]
  cases (Scan.ofText s).find p k b <;> rfl

/-- A search that remembers finds the first place of any phrase, as a search that looks again. -/
theorem Recalls.next (h : Recalls s phrases b a c) (hak : a ≤ k) :
    c.next k = ((Scan.ofText s).first phrases k b, looked s phrases b k) := by
  rw [Cursor.next, h.advance hak, places_looked, Scan.first]

private theorem Recalls.hits (h : Recalls s phrases b a c) (hak : a ≤ k) :
    c.hits k = (Cursor.fresh (Scan.ofText s) phrases b).hits k := by
  have hstop : c.stop = b := by cases h <;> rfl
  rw [Cursor.hits, Cursor.hits, h.next hak, Recalls.fresh.next hak, hstop]
  rfl

theorem hits_eq_nil (h : (Scan.ofText s).first phrases k b = none) :
    (Cursor.fresh (Scan.ofText s) phrases b).hits k = [] :=
  hits_of_none (by rw [Recalls.fresh.next (Nat.le_refl k), h])

/-- The first hit, and behind it the hits of a new search. -/
theorem hits_eq_cons (hb : b ≤ s.length) (hp : ∀ q ∈ phrases, Worded q)
    (h : (Scan.ofText s).first phrases k b = some (i, p)) :
    (Cursor.fresh (Scan.ofText s) phrases b).hits k =
      (i, p) :: (Cursor.fresh (Scan.ofText s) phrases b).hits (i + p.length) := by
  obtain ⟨q, hq, hmap⟩ := List.mem_filterMap.mp (mem_of_leftmost h)
  obtain ⟨j, hfind, hj⟩ := Option.map_eq_some_iff.mp hmap
  obtain ⟨rfl, rfl⟩ := Prod.mk.inj hj
  obtain ⟨hkj, hstop, -, -⟩ := find_eq_some hb hfind
  have hnext : (Cursor.fresh (Scan.ofText s) phrases b).next k = _ :=
    Recalls.fresh.next (Nat.le_refl k)
  rw [hits_of_some (by rw [hnext, h]) (hp q hq) hkj hstop, hnext,
    Recalls.again.hits (Nat.le_trans hkj (Nat.le_add_right _ _))]

end Recall

end SqlRecovery.Sql
