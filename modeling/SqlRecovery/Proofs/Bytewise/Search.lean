import SqlRecovery.Proofs.Bytewise.Places

/-! The search for phrases, byte by byte and with every access checked. No access is a fault, and
what is found are the places that a search over the characters finds. -/
namespace SqlRecovery.Bytewise
open Text Sql

/-- Neither a name nor a dot ends in front of the byte. -/
def freeBefore (bs : List Char) (i : Nat) : Checked Bool :=
  if i == 0 then pure true
  else do
    let b ← entry bs (← minus i 1)
    return !(isNameChar b || b == '.')

/-- No name goes on with the byte. -/
def freeBehind (bs : List Char) (i : Nat) : Bool := bs[i]?.all (!isNameChar ·)

/-- The phrase begins at the byte. -/
def beginsAt (s : List Char) (phrase : String) (i : Nat) : Checked Bool :=
  entry (marks s) i <&&> sameLetters phrase.toList <$> run (bytes s) i (i + phrase.length) <&&>
    freeBefore (bytes s) i <&&> pure (freeBehind (bytes s) (i + phrase.length))

/-- The first place of the phrase between two bytes. -/
def find (s : List Char) (phrase : String) (start stop : Nat) : Checked (Option Nat) :=
  let stop := min stop (size s)
  if phrase.isEmpty || stop ≤ start then pure none
  else do
    if (← minus stop start) < phrase.length then return none
    let last ← minus stop phrase.length
    (List.range' start (last + 1 - start)).findM? (beginsAt s phrase)

/-- The new place of a phrase, if there is one and no other lies as far to the left. -/
def better (phrase : String) (best : Option (Nat × String)) : Option Nat → Option (Nat × String)
  | none => best
  | some i => match best with
    | none => some (i, phrase)
    | some x => if i < x.1 then some (i, phrase) else some x

/-- The first place of any of the phrases between two bytes, or the place that is known to be the
best. -/
def first (s : List Char) (start stop : Nat) :
    List String → Option (Nat × String) → Checked (Option (Nat × String))
  | [], best => pure best
  | p :: phrases, best => do
    let found ← find s p start stop
    first s start stop phrases (better p best found)

/-- What is remembered of a phrase, if it tells the next place without another search. -/
def remembered? (start : Nat) : Sighting → Option (Option Nat)
  | .unknown => none
  | .ahead i => if start ≤ i then some (some i) else none
  | .gone => some none

/-- The next place of the phrase whose memory is the `i`-th, and the memory after the look. -/
def look (s : List Char) (stop start : Nat) (phrase : String) (i : Nat) (seen : List Sighting) :
    Checked (Option Nat × List Sighting) := do
  match remembered? start (← entry seen i) with
  | some found => return (found, seen)
  | none =>
    let found ← find s phrase start stop
    return (found, ← store seen i (found.elim .gone .ahead))

/-- The first place of any of the phrases, whose memories begin with the `i`-th, or the place that
is known to be the best. -/
def next (s : List Char) (stop start : Nat) : List String → Nat → Option (Nat × String) →
    List Sighting → Checked (Option (Nat × String) × List Sighting)
  | [], _, best, seen => pure (best, seen)
  | p :: phrases, i, best, seen => do
    let (found, seen) ← look s stop start p i seen
    next s stop start phrases (i + 1) (better p best found) seen

/-- All places from byte `start` on, each searched for behind the one before. -/
def hits (s : List Char) (stop : Nat) (phrases : List String) (start : Nat)
    (seen : List Sighting) : Checked (List (Nat × String)) := do
  let (found, seen) ← next s stop start phrases 0 none seen
  match found with
  | none => return []
  | some (i, p) =>
    -- A hit that did not lie further on would be found again for ever.
    if start < i + p.length ∧ start < stop then
      return (i, p) :: (← hits s stop phrases (i + p.length) seen)
    else throw (.stalled start)
termination_by stop - start

/-- The place that is remembered. -/
def place? : Sighting → Option Nat
  | .ahead i => some i
  | _ => none

section Begins
variable {s bs : List Char} {p : String} {a b i : Nat}

theorem pure_andM_pure (x y : Bool) : (pure x <&&> pure y : Checked Bool) = pure (x && y) := by
  cases x <;> rfl

theorem exists_freeBefore (h : i ≤ bs.length) : ∃ free, freeBefore bs i = pure free ∧
    (free = true ↔ ∀ c, 0 < i → bs[i - 1]? = some c → isNameChar c = false ∧ c ≠ '.') := by
  cases i with
  | zero => exact ⟨true, rfl, by simp⟩
  | succ i =>
    have hentry : entry bs i = pure bs[i] := entry_of_getElem? (List.getElem?_eq_getElem h)
    refine ⟨!(isNameChar bs[i] || bs[i] == '.'), ?_, ?_⟩
    · rw [freeBefore, minus_of_le (Nat.le_add_left 1 i), pure_bind, Nat.add_sub_cancel, hentry,
        pure_bind]
      rfl
    · simp [List.getElem?_eq_getElem h]

theorem freeBehind_iff : freeBehind bs i = true ↔ ∀ c, bs[i]? = some c → isNameChar c = false := by
  cases h : bs[i]? <;> simp [freeBehind, h]

/-- Within bounds it is checked without a fault whether a phrase begins. -/
theorem beginsAt_eq (hp : 0 < p.length) (h : i + p.length ≤ size s) :
    beginsAt s p i = pure (Scan.beginsWith p.toList ((Scan.ofText (bytes s)).drop i)) := by
  have hi : i < (marks s).length := by
    rw [length_marks]
    omega
  have hle : i ≤ (bytes s).length := Nat.le_trans (Nat.le_add_right i p.length) h
  obtain ⟨free, hfree, hbefore⟩ := exists_freeBefore hle
  have hne : p.toList ≠ [] := by
    rw [← List.length_pos_iff, String.length_toList]
    exact hp
  have hstands : ((marks s)[i] && (sameLetters p.toList (((bytes s).drop i).take p.length) &&
      (free && freeBehind (bytes s) (i + p.length)))) =
      Scan.beginsWith p.toList ((Scan.ofText (bytes s)).drop i) := by
    rw [Bool.eq_iff_iff, ← Hit, hit_iff_wholeWords]
    simp only [Bool.and_eq_true, hbefore, freeBehind_iff]
    constructor
    · rintro ⟨htop, hletters, hbefore, hbehind⟩
      refine ⟨hne, by rwa [String.length_toList], ?_, hbefore, by rwa [String.length_toList]⟩
      rw [← htop, ← marks, List.getElem?_eq_getElem hi]
    · rintro ⟨-, hletters, htop, hbefore, hbehind⟩
      rw [String.length_toList] at hletters hbehind
      rw [← marks, List.getElem?_eq_getElem hi, Option.some.injEq] at htop
      exact ⟨htop, hletters, hbefore, hbehind⟩
  rw [beginsAt, entry_of_getElem? (List.getElem?_eq_getElem hi), run_of_le (Nat.le_add_right _ _) h,
    hfree, map_pure, pure_andM_pure, pure_andM_pure, pure_andM_pure, Nat.add_sub_cancel_left,
    hstands]

private theorem findM?_eq {α : Type} {f : α → Checked Bool} {g : α → Bool} {xs : List α}
    (h : ∀ x ∈ xs, f x = pure (g x)) : xs.findM? f = pure (xs.find? g) := by
  induction xs with
  | nil => rfl
  | cons x xs ih =>
    rw [List.forall_mem_cons] at h
    rw [List.findM?, h.1, pure_bind, List.find?_cons, ih h.2]
    cases g x <;> rfl

/-- What is found is the first place at which the phrase begins, of those that it fits in. -/
private theorem find?_range (hb : b ≤ size s) (hfits : p.length ≤ b) :
    (List.range' a (b - p.length + 1 - a)).find? (fun i =>
      Scan.beginsWith p.toList ((Scan.ofText (bytes s)).drop i)) =
      (Scan.ofText (bytes s)).find p a b := by
  cases h : (List.range' a (b - p.length + 1 - a)).find? fun i =>
      Scan.beginsWith p.toList ((Scan.ofText (bytes s)).drop i) with
  | none =>
    rw [List.find?_range'_eq_none] at h
    refine (find_of_no_hit hb fun j haj hj hit => ?_).symm
    exact absurd hit (by simpa [Hit] using h j haj (by omega))
  | some i =>
    obtain ⟨hit, hmem, hleast⟩ := List.find?_range'_eq_some.mp h
    rw [List.mem_range'_1] at hmem
    refine (find_of_hit hb hmem.1 (by omega) hit fun j haj hji hit' => ?_).symm
    exact absurd hit' (by simpa [Hit] using hleast j haj hji)

/-- The search over the bytes, whatever its bounds are. -/
theorem find_bytes (hp : 0 < p.length) (s : List Char) (a b : Nat) :
    find s p a b = pure ((Scan.ofText (bytes s)).find p a b) := by
  have hb : min b (size s) ≤ size s := Nat.min_le_right b (size s)
  have hempty : p.isEmpty = false := by
    rw [← String.length_toList] at hp
    simpa [String.isEmpty_iff, ← String.toList_eq_nil_iff] using List.length_pos_iff.mp hp
  rw [find_min, ← size, find, hempty, Bool.false_or]
  generalize min b (size s) = stop at hb ⊢
  by_cases hstop : stop ≤ a
  · rw [if_pos (by simpa using hstop), find_of_no_hit hb fun j _ _ => by omega]
  · rw [if_neg (by simpa using hstop), minus_of_le (by omega), pure_bind]
    by_cases hlength : stop - a < p.length
    · rw [if_pos hlength, find_of_no_hit hb fun j _ _ => by omega]
    · have hfits : ∀ i ∈ List.range' a (stop - p.length + 1 - a), i + p.length ≤ size s := by
        intro i hi
        rw [List.mem_range'_1] at hi
        omega
      rw [if_neg hlength, minus_of_le (by omega), pure_bind,
        findM?_eq fun i hi => beginsAt_eq hp (hfits i hi), find?_range hb (by omega)]

/-- The search between two places of a text. -/
theorem find_eq {s : List Char} (hp : Worded p) (ha : a ≤ s.length) (hb : b ≤ s.length) :
    find s p (offset s a) (offset s b) =
      pure (((Scan.ofText s).find p a b).map (offset s)) := by
  rw [find_bytes hp.length_pos, find_offset hp ha hb]

/-- The search from a place of a text to its end. -/
theorem find_rest_eq {s : List Char} (hp : Worded p) (ha : a ≤ s.length) :
    find s p (offset s a) (size s) =
      pure (((Scan.ofText s).find p a s.length).map (offset s)) := by
  rw [← find_eq hp ha (Nat.le_refl _), offset_length]

end Begins

section First
variable {s : List Char} {phrases : List String} {best : Option (Nat × String)} {a b : Nat}

private theorem leftmost_cons_cons (x y : Nat × String) (xs : List (Nat × String)) :
    Scan.leftmost (x :: y :: xs) =
      if y.1 < x.1 then Scan.leftmost (y :: xs) else Scan.leftmost (x :: xs) := by
  simp only [Scan.leftmost]
  cases Scan.leftmost xs with
  | none => rfl
  | some z => grind

/-- What is kept of two places is the leftmost of them. -/
private theorem leftmost_better (p : String) (best : Option (Nat × String)) (found : Option Nat)
    (xs : List (Nat × String)) : Scan.leftmost ((better p best found).toList ++ xs) =
      Scan.leftmost (best.toList ++ ((found.map (·, p)).toList ++ xs)) := by
  cases found with
  | none => rfl
  | some i =>
    cases best with
    | none => rfl
    | some x =>
      change _ = Scan.leftmost (x :: (i, p) :: xs)
      rw [leftmost_cons_cons, better]
      dsimp only
      split <;> rfl

theorem first_bytes (hp : ∀ p ∈ phrases, 0 < p.length) (s : List Char) (a b : Nat) :
    first s a b phrases best = pure (Scan.leftmost (best.toList ++
      phrases.filterMap fun p => ((Scan.ofText (bytes s)).find p a b).map (·, p))) := by
  induction phrases generalizing best with
  | nil => cases best <;> rfl
  | cons p phrases ih =>
    rw [List.forall_mem_cons] at hp
    rw [first, find_bytes hp.1, pure_bind, ih hp.2, leftmost_better, List.filterMap_cons]
    cases (Scan.ofText (bytes s)).find p a b <;> rfl

/-- The search for several phrases between two places of a text. -/
theorem first_eq (hp : ∀ p ∈ phrases, Worded p) (ha : a ≤ s.length) (hb : b ≤ s.length) :
    first s (offset s a) (offset s b) phrases none =
      pure (((Scan.ofText s).first phrases a b).map (placed s)) := by
  rw [first_bytes fun p hmem => (hp p hmem).length_pos, ← first_offset hp ha hb]
  rfl

end First

section Hits
variable {s : List Char} {p : String} {phrases : List String} {o : Option (Nat × String)}
  {a b k : Nat} {c : Cursor}

private theorem store_middle (before : List Sighting) (x y : Sighting) (after : List Sighting) :
    store (before ++ x :: after) before.length y = pure (before ++ y :: after) := by
  rw [store_of_lt (by simp)]
  simp

/-- A look gives and remembers what the cursor sees. -/
private theorem look_eq (hp : 0 < p.length) (hscan : c.scan = Scan.ofText (bytes s))
    (before after : List Sighting) (σ : Sighting) :
    look s c.stop k p before.length (before ++ σ :: after) =
      pure (place? (c.look k p σ), before ++ c.look k p σ :: after) := by
  have hentry : entry (before ++ σ :: after) before.length = pure σ :=
    entry_of_getElem? (by simp)
  have hsearch : (do
      let found ← find s p k c.stop
      return (found, ← store (before ++ σ :: after) before.length (found.elim .gone .ahead))) =
      (pure (place? (c.search k p), before ++ c.search k p :: after) : Checked _) := by
    rw [find_bytes hp, pure_bind, store_middle, pure_bind, Cursor.search, hscan]
    cases (Scan.ofText (bytes s)).find p k c.stop <;> rfl
  rw [look, hentry, pure_bind]
  cases σ with
  | unknown => exact hsearch
  | gone => rfl
  | ahead i =>
    rw [remembered?, Cursor.look]
    by_cases h : k ≤ i
    · rw [if_pos h, if_pos h]
      rfl
    · rw [if_neg h, if_neg h]
      exact hsearch

/-- The looks for all phrases give and remember what the cursor does. -/
private theorem next_eq (hscan : c.scan = Scan.ofText (bytes s)) {known : List (String × Sighting)}
    (hp : ∀ x ∈ known, 0 < x.1.length) (before : List Sighting) :
    next s c.stop k (known.map (·.1)) before.length o (before ++ known.map (·.2)) =
      pure (Scan.leftmost (o.toList ++ known.filterMap fun x =>
          (place? (c.look k x.1 x.2)).map (·, x.1)),
        before ++ known.map fun x => c.look k x.1 x.2) := by
  induction known generalizing o before with
  | nil =>
    cases o <;> rfl
  | cons x known ih =>
    rw [List.forall_mem_cons] at hp
    have hrest := ih hp.2 (o := better x.1 o (place? (c.look k x.1 x.2)))
      (before ++ [c.look k x.1 x.2])
    rw [List.length_append, List.length_singleton, List.append_assoc, List.singleton_append,
      leftmost_better] at hrest
    rw [List.map_cons, List.map_cons, next, look_eq hp.1 hscan, pure_bind]
    dsimp only
    rw [hrest, List.filterMap_cons, List.map_cons, List.append_assoc, List.singleton_append]
    cases place? (c.look k x.1 x.2) <;> rfl

private theorem places_advance (c : Cursor) (k : Nat) : (c.advance k).places =
    c.seen.filterMap fun x => (place? (c.look k x.1 x.2)).map (·, x.1) := by
  rw [Cursor.places, Cursor.advance, List.filterMap_map]
  refine List.filterMap_congr fun x _ => ?_
  dsimp only [Function.comp_apply]
  cases c.look k x.1 x.2 <;> rfl

/-- Whatever a search remembers, it finds the first place of any phrase. -/
private theorem next_of_recalls (h : Recalls (bytes s) phrases b a c)
    (hp : ∀ p ∈ phrases, 0 < p.length) (hak : a ≤ k) :
    next s b k phrases 0 none (c.seen.map (·.2)) =
      pure ((Scan.ofText (bytes s)).first phrases k b,
        (looked (bytes s) phrases b k).seen.map (·.2)) := by
  have hnext := h.next hak
  obtain ⟨hscan, rfl, rfl⟩ : c.scan = Scan.ofText (bytes s) ∧ c.stop = b ∧
      c.seen.map (·.1) = phrases := by
    cases h <;> exact ⟨rfl, rfl, by simp [Cursor.fresh, looked, Function.comp_def]⟩
  rw [Cursor.next, Prod.mk.injEq, places_advance] at hnext
  rw [← hnext.1, ← hnext.2, Cursor.advance, List.map_map]
  exact next_eq (o := none) hscan (fun x hx => hp x.1 (List.mem_map_of_mem hx)) []

/-- A forward search comes to its end without a fault, and finds what one that remembers nothing
finds. -/
private theorem hits_of_recalls (h : Recalls (bytes s) phrases b a c) (hb : b ≤ size s)
    (hp : ∀ p ∈ phrases, Worded p) (hak : a ≤ k) :
    hits s b phrases k (c.seen.map (·.2)) =
      pure ((Cursor.fresh (Scan.ofText (bytes s)) phrases b).hits k) := by
  induction hroom : b - k using Nat.strongRecOn generalizing a k c with
  | ind room ih =>
    subst hroom
    rw [hits, next_of_recalls h (fun p hmem => (hp p hmem).length_pos) hak, pure_bind]
    dsimp only
    cases hfirst : (Scan.ofText (bytes s)).first phrases k b with
    | none =>
      rw [hits_eq_nil hfirst]
    | some x =>
      obtain ⟨i, p⟩ := x
      obtain ⟨hmem, hki, hstop, -, -⟩ := first_le hfirst
      have hpos := (hp p hmem).length_pos
      dsimp only
      rw [if_pos (by omega), ih (b - (i + p.length)) (by omega) .again (by omega) rfl, pure_bind,
        hits_eq_cons hb hp hfirst]

/-- The forward search between two places of a text. -/
theorem hits_eq (hp : ∀ p ∈ phrases, Worded p) (hk : k ≤ s.length) (hb : b ≤ s.length) :
    hits s (offset s b) phrases (offset s k) (phrases.map fun _ => .unknown) =
      pure (((Cursor.fresh (Scan.ofText s) phrases b).hits k).map (placed s)) := by
  rw [← hits_offset hp hk hb, ← hits_of_recalls .fresh (offset_le_size s b) hp (Nat.le_refl _),
    Cursor.fresh, List.map_map]
  rfl

end Hits

end SqlRecovery.Bytewise
