import SqlRecovery.Proofs.Bytewise.Search
import SqlRecovery.Proofs.Sql.Layout.Clause

/-! The clauses of a statement, cut out of it byte by byte. The hits of a search follow each other,
so every cut lies between characters and behind the one before. -/
namespace SqlRecovery.Bytewise
open Text Sql
open Layout (Line lineOf clauseIndent clausePhrases conditionPhrases conditionBreaks firstStart)

/-- The text between consecutive cuts. -/
def segments (s : List Char) : Nat → List Nat → Nat → Checked (List (List Char))
  | start, [], stop => do return [← slice s start stop]
  | start, cut :: cuts, stop => do
    let segment ← slice s start cut
    return segment :: (← segments s cut cuts stop)

/-- The segments on lines of their own, all but the first indented. -/
def broken (s : List Char) (start : Nat) (cuts : List Nat) (stop : Nat) : Checked (List Line) := do
  match ← segments s start cuts stop with
  | [] => return []
  | x :: xs => return lineOf [] x ++ xs.flatMap (lineOf clauseIndent)

/-- A WHERE clause, one line for each condition. -/
def whereLines (s : List Char) (start stop : Nat) : Checked (List Line) := do
  let found ← hits s stop conditionPhrases (start + "WHERE".length)
    (conditionPhrases.map fun _ => .unknown)
  broken s start (conditionBreaks false found) stop

/-- The clauses found from a byte on, each searched for behind the one before. -/
def clauseStarts (s : List Char) : Nat → List String → Checked (List (Nat × String))
  | _, [] => pure []
  | start, p :: phrases => do
    match ← find s p start (size s) with
    | some i => return (i, p) :: (← clauseStarts s (i + p.length) phrases)
    | none => clauseStarts s start phrases

/-- A clause on lines of its own. -/
def clauseBody (s : List Char) (p : String) (start stop : Nat) : Checked (List Line) :=
  if p == "WHERE" then whereLines s start stop else lineOf [] <$> slice s start stop

/-- Each clause on lines of its own. -/
def clauseBodies (s : List Char) : List (Nat × String) → Checked (List Line)
  | [] => pure []
  | (i, p) :: rest => do
    let lines ← clauseBody s p i ((rest.head?.map (·.1)).getD (size s))
    return lines ++ (← clauseBodies s rest)

/-- The statement from a byte on: what stands before the first clause, then the clauses. -/
def clauseLines (s : List Char) (start : Nat) : Checked (List Line) := do
  let starts ← clauseStarts s start clausePhrases
  let before ← slice s start ((starts.head?.map (·.1)).getD (size s))
  return lineOf [] before ++ (← clauseBodies s starts)

/-- Where the first of the clauses begins, in whatever order they come. -/
def clausesFrom (s : List Char) (start : Nat) : Checked Nat := do
  return ((← first s start (size s) clausePhrases none).map (·.1)).getD (size s)

/-- Hits that follow each other from a place on, all of them up to `b`. -/
inductive Trail (s : List Char) (b : Nat) : Nat → List (Nat × String) → Prop
  | nil {a : Nat} (stop : a ≤ b) : Trail s b a []
  | cons {a i : Nat} {p : String} {xs : List (Nat × String)} (start : a ≤ i) (worded : Worded p)
    (hit : Hit s p i) (rest : Trail s b (i + p.length) xs) : Trail s b a ((i, p) :: xs)

section Trail
variable {s : List Char} {phrases : List String} {xs : List (Nat × String)} {a b k : Nat}

/-- The cuts at hits are in order. -/
theorem Trail.rising (h : Trail s b a xs) : (a :: (xs.map (·.1) ++ [b])).Pairwise (· ≤ ·) := by
  induction h with
  | nil stop => simpa using stop
  | @cons a i p xs start _ _ _ ih =>
    rw [List.pairwise_cons] at ih
    have hbehind : ∀ n ∈ xs.map (·.1) ++ [b], i ≤ n := fun n hn =>
      Nat.le_trans (Nat.le_add_right i p.length) (ih.1 n hn)
    rw [List.map_cons, List.cons_append, List.pairwise_cons, List.pairwise_cons]
    refine ⟨List.forall_mem_cons.mpr ⟨start, fun n hn => ?_⟩, hbehind, ih.2⟩
    exact Nat.le_trans start (hbehind n hn)

theorem Trail.mono (h : Trail s b k xs) (hak : a ≤ k) : Trail s b a xs := by
  cases h with
  | nil stop => exact .nil (Nat.le_trans hak stop)
  | cons start worded hit rest => exact .cons (Nat.le_trans hak start) worded hit rest

theorem Trail.firstStart_le (h : Trail s s.length a xs) :
    a ≤ firstStart s xs ∧ firstStart s xs ≤ s.length := by
  cases h with
  | nil stop => exact ⟨stop, Nat.le_refl _⟩
  | cons start _ hit _ => exact ⟨start, Nat.le_trans (Nat.le_add_right _ _) (end_le_of_hit hit)⟩

theorem trail_hits (hp : ∀ p ∈ phrases, Worded p) (hb : b ≤ s.length) (hkb : k ≤ b) :
    Trail s b k ((Cursor.fresh (Scan.ofText s) phrases b).hits k) := by
  induction hroom : b - k using Nat.strongRecOn generalizing k with
  | ind room ih =>
    subst hroom
    cases h : (Scan.ofText s).first phrases k b with
    | none =>
      rw [hits_eq_nil h]
      exact .nil hkb
    | some x =>
      obtain ⟨i, p⟩ := x
      obtain ⟨hmem, hki, hstop, -, hit⟩ := first_le h
      have hpos := (hp p hmem).length_pos
      rw [hits_eq_cons hb hp h]
      exact .cons hki (hp p hmem) hit (ih (b - (i + p.length)) (by omega) hstop rfl)

theorem trail_clauseStarts (hp : ∀ p ∈ phrases, Worded p) (ha : a ≤ s.length) :
    Trail s s.length a (Layout.clauseStarts (Scan.ofText s) a phrases) := by
  induction phrases generalizing a with
  | nil => exact .nil ha
  | cons p phrases ih =>
    rw [List.forall_mem_cons] at hp
    rw [Layout.clauseStarts, length_ofText]
    cases h : (Scan.ofText s).find p a s.length with
    | none => exact ih hp.2 ha
    | some i =>
      obtain ⟨hai, -, hend, hit⟩ := find_le h
      exact .cons hai hp.1 hit (ih hp.2 hend)

theorem conditionBreaks_sublist (between : Bool) (xs : List (Nat × String)) :
    List.Sublist (conditionBreaks between xs) (xs.map (·.1)) := by
  induction xs generalizing between with
  | nil => exact .slnil
  | cons x xs ih =>
    obtain ⟨i, p⟩ := x
    rw [conditionBreaks]
    split
    · exact .cons i (ih true)
    · split
      · exact .cons i (ih false)
      · exact .cons_cons i (ih between)

end Trail

section Clause
variable {s : List Char} {p : String} {phrases : List String} {xs : List (Nat × String)}
  {cuts : List Nat} {a b i : Nat}

/-- A slice between two places of a text. -/
theorem slice_eq (h : a ≤ b) :
    slice s (offset s a) (offset s b) = pure ((Scan.ofText s).slice a b) := by
  rw [slice_offset h, slice_ofText]

theorem segments_eq (h : (a :: (cuts ++ [b])).Pairwise (· ≤ ·)) :
    segments s (offset s a) (cuts.map (offset s)) (offset s b) =
      pure (Layout.segments (Scan.ofText s) a cuts b) := by
  induction cuts generalizing a with
  | nil =>
    rw [List.map_nil, segments, slice_eq (by simpa using h), pure_bind, Layout.segments]
  | cons i cuts ih =>
    obtain ⟨ha, hrest⟩ := List.pairwise_cons.mp h
    rw [List.map_cons, segments, slice_eq (ha i List.mem_cons_self), pure_bind, ih hrest, pure_bind,
      Layout.segments]

theorem broken_eq (h : (a :: (cuts ++ [b])).Pairwise (· ≤ ·)) :
    broken s (offset s a) (cuts.map (offset s)) (offset s b) =
      pure (Layout.broken (Scan.ofText s) a cuts b) := by
  rw [broken, segments_eq h, pure_bind, Layout.broken]
  cases Layout.segments (Scan.ofText s) a cuts b <;> rfl

theorem conditionBreaks_placed (s : List Char) (between : Bool) (xs : List (Nat × String)) :
    conditionBreaks between (xs.map (placed s)) = (conditionBreaks between xs).map (offset s) := by
  induction xs generalizing between with
  | nil => rfl
  | cons x xs ih =>
    obtain ⟨i, p⟩ := x
    rw [List.map_cons, placed, conditionBreaks, conditionBreaks]
    split
    · exact ih true
    · split
      · exact ih false
      · rw [ih, List.map_cons]

theorem whereLines_eq (hit : Hit s "WHERE" i) (hstop : i + "WHERE".length ≤ b)
    (hb : b ≤ s.length) :
    whereLines s (offset s i) (offset s b) = pure (Layout.whereLines (Scan.ofText s) i b) := by
  have htrail := trail_hits Layout.worded_condition hb hstop
  have hcuts := (htrail.mono (Nat.le_add_right i _)).rising
  rw [whereLines, ← offset_hit (by decide) hit,
    hits_eq Layout.worded_condition (Nat.le_trans hstop hb) hb, pure_bind, conditionBreaks_placed,
    broken_eq, Layout.whereLines]
  exact hcuts.sublist (((conditionBreaks_sublist false _).append_right [b]).cons_cons i)

theorem clauseStarts_eq (hp : ∀ p ∈ phrases, Worded p) (ha : a ≤ s.length) :
    clauseStarts s (offset s a) phrases =
      pure ((Layout.clauseStarts (Scan.ofText s) a phrases).map (placed s)) := by
  induction phrases generalizing a with
  | nil => rfl
  | cons p phrases ih =>
    rw [List.forall_mem_cons] at hp
    rw [clauseStarts, find_rest_eq hp.1 ha, pure_bind, Layout.clauseStarts, length_ofText]
    cases h : (Scan.ofText s).find p a s.length with
    | none => exact ih hp.2 ha
    | some i =>
      obtain ⟨-, -, hend, hit⟩ := find_le h
      dsimp only [Option.map_some]
      rw [← offset_hit hp.1 hit, ih hp.2 hend, pure_bind, List.map_cons]
      rfl

theorem firstStart_placed (s : List Char) (xs : List (Nat × String)) :
    ((xs.map (placed s)).head?.map (·.1)).getD (size s) = offset s (firstStart s xs) := by
  cases xs with
  | nil => exact (offset_length s).symm
  | cons x xs => rfl

theorem clauseBody_eq (hit : Hit s p i) (hstop : i + p.length ≤ b) (hb : b ≤ s.length) :
    clauseBody s p (offset s i) (offset s b) =
      pure (if p == "WHERE" then Layout.whereLines (Scan.ofText s) i b
        else lineOf [] ((Scan.ofText s).slice i b)) := by
  rw [clauseBody]
  split
  case isTrue hp =>
    obtain rfl := beq_iff_eq.mp hp
    exact whereLines_eq hit hstop hb
  case isFalse => rw [slice_eq (Nat.le_trans (Nat.le_add_right _ _) hstop), map_pure]

theorem clauseBodies_eq (h : Trail s s.length a xs) :
    clauseBodies s (xs.map (placed s)) = pure (Layout.clauseBodies (Scan.ofText s) xs) := by
  induction h with
  | nil => rfl
  | @cons a i p xs start worded hit rest ih =>
    obtain ⟨hstop, hle⟩ := rest.firstStart_le
    rw [List.map_cons, placed, clauseBodies, firstStart_placed]
    dsimp only
    rw [clauseBody_eq hit hstop hle, pure_bind, ih, pure_bind, Layout.clauseBodies, length_ofText]
    rfl

theorem clauseLines_eq (ha : a ≤ s.length) :
    clauseLines s (offset s a) = pure (Layout.clauseLines (Scan.ofText s) a) := by
  have htrail := trail_clauseStarts Layout.worded_clause ha
  rw [clauseLines, clauseStarts_eq Layout.worded_clause ha, pure_bind, firstStart_placed,
    slice_eq htrail.firstStart_le.1, pure_bind, clauseBodies_eq htrail, pure_bind,
    Layout.clauseLines, length_ofText]
  rfl

theorem clausesFrom_eq (ha : a ≤ s.length) :
    clausesFrom s (offset s a) = pure (offset s (Layout.clausesFrom (Scan.ofText s) a)) := by
  have hfirst := first_eq Layout.worded_clause ha (Nat.le_refl s.length)
  rw [offset_length] at hfirst
  rw [clausesFrom, hfirst, pure_bind, Layout.clausesFrom, length_ofText]
  cases (Scan.ofText s).first clausePhrases a s.length with
  | none => exact congrArg pure (offset_length s).symm
  | some x => rfl

theorem clausesFrom_le (ha : a ≤ s.length) : a ≤ Layout.clausesFrom (Scan.ofText s) a ∧
    Layout.clausesFrom (Scan.ofText s) a ≤ s.length := by
  rw [Layout.clausesFrom, length_ofText]
  cases h : (Scan.ofText s).first clausePhrases a s.length with
  | none => exact ⟨ha, Nat.le_refl _⟩
  | some x =>
    obtain ⟨-, hai, -, hend, -⟩ := first_le h
    exact ⟨hai, Nat.le_trans (Nat.le_add_right _ _) hend⟩

end Clause

end SqlRecovery.Bytewise
