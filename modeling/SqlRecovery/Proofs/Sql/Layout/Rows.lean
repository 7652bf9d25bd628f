import SqlRecovery.Proofs.Sql.Clauses
import SqlRecovery.Proofs.Sql.Layout.Clause
import SqlRecovery.Sql.Layout.Query

/-! How the clauses of a statement are laid out. Each stands on a line of its own, and those that
belong to the clause before them are indented. -/
namespace SqlRecovery.Sql.Layout
open Text Clause

section
variable {v : Vocabulary} {cs es gs : List (Clause v)} {c : Clause v} {ps : List String} {k : Nat}

/-- Where the clauses `gs` in front of `es` begin, and with which phrases. -/
def marks (cs : List (Clause v)) : List (Clause v) → List (Clause v) → List (Nat × String)
  | [], _ => []
  | c :: gs, es => (place cs (c :: gs ++ es), c.phrase) :: marks cs gs es

/-- A clause that belongs to the one before it. -/
def indented (c : Clause v) : Line := clauseIndent ++ c.text

/-- If all clauses up to a place begin with phrases that are searched for, the hits are the clauses. -/
theorem hits_eq_marks (hps : Told v ps) (h : (gs ++ es) <:+ cs) (hgs : ∀ c ∈ gs, c.phrase ∈ ps)
    (hk : (Scan.ofText (written cs)).first ps k (place cs es) =
      (Scan.ofText (written cs)).first ps (place cs (gs ++ es)) (place cs es)) :
    (Cursor.fresh (Scan.ofText (written cs)) ps (place cs es)).hits k = marks cs gs es := by
  have hb := place_le cs es
  have hworded : ∀ p ∈ ps, Worded p := fun p hp => v.worded p (hps.subset p hp)
  induction gs generalizing k with
  | nil =>
    rw [List.nil_append, first_self hb hworded] at hk
    rw [hits_eq_nil hk]
    rfl
  | cons c gs ih =>
    rw [List.forall_mem_cons] at hgs
    rw [List.cons_append] at h hk
    have hstop : place cs (c :: (gs ++ es)) + c.phrase.length ≤ place cs es :=
      Nat.le_of_lt (Nat.lt_of_lt_of_le (place_lt h) (place_mono cs (List.suffix_append gs es)))
    rw [first_place hps h hb hstop hgs.1] at hk
    rw [hits_eq_cons hb hworded hk, ih (suffix_of_cons h) hgs.2 (first_behind hps h hb)]
    rfl

theorem lineOf_of_neat {segment x : List Char} (h : trim segment = x) (hx : Neat x)
    (indent : List Char) : lineOf indent segment = [indent ++ x] := by
  have hne : x.isEmpty = false := List.isEmpty_eq_false_iff.mpr hx.nonempty
  rw [lineOf, h, hne, if_neg Bool.false_ne_true]

theorem lineOf_slice (h : (c :: es) <:+ cs) (indent : List Char) :
    lineOf indent ((Scan.ofText (written cs)).slice (place cs (c :: es)) (place cs es)) =
      [indent ++ c.text] :=
  lineOf_of_neat (trim_slice h) c.neat_text indent

/-- Clauses, each with those that go on behind it, in a row. -/
def row (gs : List (Clause v × List (Clause v))) : List (Clause v) := gs.flatMap fun g => g.1 :: g.2

theorem row_cons (g : Clause v × List (Clause v)) (gs : List (Clause v × List (Clause v))) :
    row (g :: gs) = g.1 :: g.2 ++ row gs := List.flatMap_cons

/-- Where the groups of clauses in front of `es` begin. -/
def cuts (cs : List (Clause v)) : List (Clause v × List (Clause v)) → List (Clause v) → List Nat
  | [], _ => []
  | g :: gs, es => place cs (row (g :: gs) ++ es) :: cuts cs gs es

/-- A group of clauses on one line. -/
def line (g : Clause v × List (Clause v)) : Line := written (g.1 :: g.2)

section Broken
variable {g : Clause v × List (Clause v)} {ds : List (Clause v × List (Clause v))}

private theorem row_suffix (h : (row (g :: ds) ++ es) <:+ cs) : (row ds ++ es) <:+ cs := by
  rw [row_cons, List.append_assoc] at h
  exact (List.suffix_append _ _).trans h

private theorem lineOf_group (h : (row (g :: ds) ++ es) <:+ cs) (indent : List Char) :
    lineOf indent ((Scan.ofText (written cs)).slice (place cs (row (g :: ds) ++ es))
      (place cs (row ds ++ es))) = [indent ++ line g] := by
  rw [row_cons, List.append_assoc] at h ⊢
  exact lineOf_of_neat (trim_slice_run h) (neat_written g.1 g.2) indent

private theorem segments_cuts (h : (row (g :: ds) ++ es) <:+ cs) :
    (segments (Scan.ofText (written cs)) (place cs (row (g :: ds) ++ es)) (cuts cs ds es)
      (place cs es)).flatMap (lineOf clauseIndent) = (g :: ds).map (clauseIndent ++ line ·) := by
  induction ds generalizing g with
  | nil =>
    rw [cuts, segments, List.flatMap_singleton]
    exact lineOf_group h clauseIndent
  | cons d ds ih =>
    rw [cuts, segments, List.flatMap_cons, ih (row_suffix h), lineOf_group h]
    rfl

/-- A text broken at its groups of clauses. -/
theorem broken_cuts (h : (row (g :: ds) ++ es) <:+ cs) :
    broken (Scan.ofText (written cs)) (place cs (row (g :: ds) ++ es)) (cuts cs ds es)
      (place cs es) = line g :: ds.map (clauseIndent ++ line ·) := by
  cases ds with
  | nil =>
    rw [cuts, broken_nil]
    exact lineOf_group h []
  | cons d ds =>
    rw [cuts, broken_cons, segments_cuts (row_suffix h), lineOf_group h]
    rfl

/-- Clauses that stand alone, as groups. -/
def alone (gs : List (Clause v)) : List (Clause v × List (Clause v)) := gs.map (·, [])

theorem row_alone (gs : List (Clause v)) : row (alone gs) = gs := by
  rw [row, alone, List.flatMap_map]
  exact List.flatMap_pure_eq_map id gs |>.trans (List.map_id gs)

theorem cuts_alone (cs gs es : List (Clause v)) :
    cuts cs (alone gs) es = (marks cs gs es).map (·.1) := by
  induction gs with
  | nil => rfl
  | cons c gs ih =>
    rw [alone, List.map_cons, cuts, marks, List.map_cons]
    change place cs (row (alone (c :: gs)) ++ es) :: cuts cs (alone gs) es = _
    rw [row_alone, ih]

theorem map_line_alone (gs : List (Clause v)) :
    (alone gs).map (clauseIndent ++ line ·) = gs.map indented := by
  rw [alone, List.map_map]
  exact List.map_congr_left fun c _ => congrArg (clauseIndent ++ ·) (written_singleton c)

end Broken

/-- A text broken at its clauses. -/
theorem broken_marks (h : (c :: gs ++ es) <:+ cs) :
    broken (Scan.ofText (written cs)) (place cs (c :: gs ++ es)) ((marks cs gs es).map (·.1))
      (place cs es) = c.text :: gs.map indented := by
  rw [← row_alone (c :: gs)] at h ⊢
  rw [← cuts_alone, ← map_line_alone, ← written_singleton c]
  exact broken_cuts h

/-- A condition that goes on with AND or OR. -/
def Continues (c : Clause v) : Prop := c.phrase = "AND" ∨ c.phrase = "OR"

instance (c : Clause v) : Decidable (Continues c) := inferInstanceAs (Decidable (_ ∨ _))

/-- A condition, or one with BETWEEN and the AND that belongs to it. -/
def Ranged (g : Clause v × List (Clause v)) : Prop :=
  g.2.map (·.phrase) = [] ∨ g.2.map (·.phrase) = ["BETWEEN", "AND"]

instance (g : Clause v × List (Clause v)) : Decidable (Ranged g) :=
  inferInstanceAs (Decidable (_ ∨ _))

section Conditions
variable {g : Clause v × List (Clause v)} {ds : List (Clause v × List (Clause v))}

theorem marks_append (cs gs ds es : List (Clause v)) :
    marks cs (gs ++ ds) es = marks cs gs (ds ++ es) ++ marks cs ds es := by
  induction gs with
  | nil => rfl
  | cons c gs ih =>
    have hrest : c :: gs ++ (ds ++ es) = c :: (gs ++ ds) ++ es := by simp
    rw [List.cons_append, marks, marks, ih, hrest]
    rfl

/-- No new condition begins in a range. -/
private theorem conditionBreaks_range (hg : Ranged g) (fs : List (Clause v))
    (hits : List (Nat × String)) :
    conditionBreaks false (marks cs g.2 fs ++ hits) = conditionBreaks false hits := by
  rcases hg with h | h
  · rw [List.map_eq_nil_iff.mp h]
    rfl
  · obtain ⟨b, rest, hb, hbetween, hrest⟩ := List.map_eq_cons_iff.mp h
    obtain ⟨a, rest', rfl, hand, hrest'⟩ := List.map_eq_cons_iff.mp hrest
    obtain rfl := List.map_eq_nil_iff.mp hrest'
    rw [hb, marks, marks, marks, hbetween, hand]
    rfl

/-- A new condition begins with each AND and OR that belongs to no BETWEEN. -/
private theorem conditionBreaks_marks (hds : ∀ d ∈ ds, Continues d.1 ∧ Ranged d) :
    conditionBreaks false (marks cs (row ds) es) = cuts cs ds es := by
  induction ds with
  | nil => rfl
  | cons d ds ih =>
    rw [List.forall_mem_cons] at hds
    have hbetween : (d.1.phrase == "BETWEEN") = false := by
      rcases hds.1.1 with h | h <;> rw [h] <;> rfl
    rw [row_cons, List.cons_append, marks, conditionBreaks, hbetween, if_neg Bool.false_ne_true,
      Bool.and_false, if_neg Bool.false_ne_true, marks_append, conditionBreaks_range hds.1.2,
      ih hds.2, cuts, row_cons, List.cons_append, List.cons_append, List.cons_append]

/-- The phrases behind the keyword of a condition, and those of further conditions. -/
theorem phrase_mem_conditions (hg : Ranged g) (hds : ∀ d ∈ ds, Continues d.1 ∧ Ranged d) :
    ∀ c ∈ g.2 ++ row ds, c.phrase ∈ conditionPhrases := by
  have hrange : ∀ {g : Clause v × List (Clause v)}, Ranged g →
      ∀ c ∈ g.2, c.phrase ∈ conditionPhrases := by
    intro g hg c hc
    have hmem : c.phrase ∈ g.2.map (·.phrase) := List.mem_map_of_mem hc
    rcases hg with h | h <;> rw [h] at hmem
    · cases hmem
    · exact (show ∀ p ∈ ["BETWEEN", "AND"], p ∈ conditionPhrases by decide) _ hmem
  intro c hc
  rcases List.mem_append.mp hc with hc | hc
  · exact hrange hg c hc
  · obtain ⟨d, hd, hc⟩ := List.mem_flatMap.mp hc
    rcases List.mem_cons.mp hc with rfl | hc
    · rcases (hds d hd).1 with h | h <;> rw [h] <;> decide
    · exact hrange (hds d hd).2 c hc

/-- A WHERE clause, one line for each condition. -/
theorem whereLines_cuts (hv : Told v conditionPhrases) (h : (row (g :: ds) ++ es) <:+ cs)
    (hwhere : g.1.phrase = "WHERE") (hg : Ranged g) (hds : ∀ d ∈ ds, Continues d.1 ∧ Ranged d) :
    whereLines (Scan.ofText (written cs)) (place cs (row (g :: ds) ++ es)) (place cs es) =
      line g :: ds.map (clauseIndent ++ line ·) := by
  have hrow := h
  rw [row_cons, List.cons_append, List.cons_append] at hrow
  have hhits := hits_eq_marks hv (suffix_of_cons hrow) (phrase_mem_conditions hg hds)
    (first_behind hv hrow (place_le cs es))
  rw [← List.cons_append, ← List.cons_append, ← row_cons, hwhere] at hhits
  rw [whereLines, hhits, marks_append, conditionBreaks_range hg, conditionBreaks_marks hds,
    broken_cuts h]

/-- A WHERE clause and further conditions without BETWEEN. -/
theorem whereLines_place (hv : Told v conditionPhrases) (h : (c :: gs ++ es) <:+ cs)
    (hc : c.phrase = "WHERE") (hgs : ∀ d ∈ gs, Continues d) :
    whereLines (Scan.ofText (written cs)) (place cs (c :: gs ++ es)) (place cs es) =
      c.text :: gs.map indented := by
  rw [← row_alone (c :: gs)] at h ⊢
  rw [← map_line_alone, ← written_singleton c]
  refine whereLines_cuts hv h hc (.inl rfl) fun d hd => ?_
  obtain ⟨e, he, rfl⟩ := List.mem_map.mp hd
  exact ⟨hgs e he, .inl rfl⟩

end Conditions

end

section
variable {v : Vocabulary} {cs : List (Clause v)}

/-- Where the groups of a row begin, and with which phrases. -/
def heads (cs : List (Clause v)) : List (Clause v × List (Clause v)) → List (Nat × String)
  | [] => []
  | g :: gs => (place cs (row (g :: gs)), g.1.phrase) :: heads cs gs

/-- Only a WHERE clause has conditions behind it. -/
def Grouped (g : Clause v × List (Clause v)) : Prop :=
  (g.1.phrase = "WHERE" ∨ g.2.isEmpty = true) ∧ ∀ c ∈ g.2, Continues c

instance (g : Clause v × List (Clause v)) : Decidable (Grouped g) :=
  inferInstanceAs (Decidable (_ ∧ ∀ c ∈ g.2, Continues c))

variable {gs : List (Clause v × List (Clause v))}

private theorem firstStart_heads (cs : List (Clause v)) (gs : List (Clause v × List (Clause v))) :
    firstStart (written cs) (heads cs gs) = place cs (row gs) := by
  cases gs <;> rfl

/-- The phrases of a row are those of its groups, and those that go on behind them. -/
private theorem phrase_ne {p : String} (hp : p ∉ gs.map (·.1.phrase))
    (hothers : ∀ g ∈ gs, ∀ c ∈ g.2, c.phrase ≠ p) : ∀ c ∈ row gs, c.phrase ≠ p := by
  intro c hc
  obtain ⟨g, hg, hmem⟩ := List.mem_flatMap.mp hc
  rcases List.mem_cons.mp hmem with rfl | hmem
  · rintro rfl
    exact hp (List.mem_map_of_mem hg)
  · exact hothers g hg c hmem

/-- The clauses that are searched for in their order are found, as far as they are there. -/
theorem clauseStarts_heads {ps : List String} {k : Nat} (hps : ∀ p ∈ ps, Told v [p])
    (hnodup : ps.Nodup) (hothers : ∀ g ∈ gs, ∀ c ∈ g.2, c.phrase ∉ ps) (h : row gs <:+ cs)
    (horder : (gs.map (·.1.phrase)).Sublist ps)
    (hk : ∀ p ∈ ps, (Scan.ofText (written cs)).find p k (written cs).length =
      (Scan.ofText (written cs)).find p (place cs (row gs)) (written cs).length) :
    clauseStarts (Scan.ofText (written cs)) k ps = heads cs gs := by
  induction ps generalizing gs k with
  | nil =>
    rw [List.sublist_nil, List.map_eq_nil_iff] at horder
    rw [horder]
    rfl
  | cons p ps ih =>
    rw [List.forall_mem_cons] at hps hk
    rw [List.nodup_cons] at hnodup
    have hne : ∀ g ∈ gs, ∀ c ∈ g.2, c.phrase ≠ p ∧ c.phrase ∉ ps := fun g hg c hc =>
      List.ne_and_not_mem_of_not_mem_cons (hothers g hg c hc)
    rw [clauseStarts, length_ofText, hk.1]
    rcases List.sublist_cons_iff.mp horder with horder | ⟨qs, hmap, horder⟩
    · have hp : p ∉ gs.map (·.1.phrase) := fun hp => hnodup.1 (horder.subset hp)
      have hnone := find_skip hps.1 ((List.append_nil (row gs)).symm ▸ h) (Nat.le_refl _)
        (phrase_ne hp fun g hg c hc => (hne g hg c hc).1)
      rw [List.append_nil, place_nil, find_length] at hnone
      rw [hnone]
      exact ih hps.2 hnodup.2 (fun g hg c hc => (hne g hg c hc).2) h horder hk.2
    · obtain ⟨g, gs, rfl, rfl, rfl⟩ := List.map_eq_cons_iff.mp hmap
      rw [row_cons, List.cons_append] at h ⊢
      have hrest := suffix_of_cons h
      rw [List.forall_mem_cons] at hne
      rw [find_place hps.1 h]
      dsimp only
      rw [ih hps.2 hnodup.2 (fun g hg c hc => (hne.2 g hg c hc).2)
        ((List.suffix_append _ _).trans hrest) horder fun q hq => ?_]
      · rw [heads, row_cons, List.cons_append]
      · rw [find_behind (hps.2 q hq) h (Nat.le_refl _), find_skip (hps.2 q hq) hrest (Nat.le_refl _)
          fun c hc hcq => (hne.1 c hc).2 (hcq ▸ hq)]

theorem clauseBodies_heads (hv : Told v conditionPhrases) (h : row gs <:+ cs)
    (hgs : ∀ g ∈ gs, Grouped g) :
    clauseBodies (Scan.ofText (written cs)) (heads cs gs) =
      gs.flatMap fun g => g.1.text :: g.2.map indented := by
  induction gs with
  | nil => rfl
  | cons g gs ih =>
    rw [row_cons] at h
    rw [List.forall_mem_cons] at hgs
    have hrest : row gs <:+ cs := (List.suffix_append _ _).trans h
    rw [heads, clauseBodies, length_ofText, ih hrest hgs.2, List.flatMap_cons]
    congr 1
    change (if g.1.phrase == "WHERE" then
      whereLines _ _ (firstStart (written cs) (heads cs gs)) else
        lineOf [] (Scan.slice _ _ (firstStart (written cs) (heads cs gs)))) = _
    rw [firstStart_heads, row_cons]
    split
    case isTrue hwhere => exact whereLines_place hv h (beq_iff_eq.mp hwhere) hgs.1.2
    case isFalse hwhere =>
      have hnone : g.2 = [] :=
        List.isEmpty_iff.mp (hgs.1.1.resolve_left fun h => hwhere (beq_iff_eq.mpr h))
      rw [hnone] at h ⊢
      exact lineOf_slice h []

/-- The clauses in their order, each with its conditions. -/
structure Ordered (gs : List (Clause v × List (Clause v))) : Prop where
  grouped : ∀ g ∈ gs, Grouped g
  order : (gs.map (·.1.phrase)).Sublist clausePhrases

private theorem not_mem_of_continues {c : Clause v} (h : Continues c) :
    c.phrase ∉ clausePhrases := by
  rcases h with h | h <;> rw [h] <;> decide

/-- The clauses begin where the first of them does. -/
theorem clausesFrom_place (hv : Told v clausePhrases) {js : List (Clause v)} {k : Nat}
    (h : (js ++ row gs) <:+ cs) (horder : (gs.map (·.1.phrase)).Sublist clausePhrases)
    (hjs : ∀ c ∈ js, c.phrase ∉ clausePhrases)
    (hk : (Scan.ofText (written cs)).first clausePhrases k (written cs).length =
      (Scan.ofText (written cs)).first clausePhrases (place cs (js ++ row gs)) (written cs).length) :
    clausesFrom (Scan.ofText (written cs)) k = place cs (row gs) := by
  have hfull := Nat.le_refl (written cs).length
  rw [first_skip hv h hfull hjs] at hk
  rw [clausesFrom, length_ofText, hk]
  cases gs with
  | nil =>
    change Option.getD (((Scan.ofText _).first _ (written cs).length _).map _) _ = _
    rw [first_self hfull fun p hp => v.worded p (hv.subset p hp)]
    rfl
  | cons g gs =>
    have hmem : g.1.phrase ∈ clausePhrases := horder.subset List.mem_cons_self
    rw [row_cons, List.cons_append] at h ⊢
    have hrest : g.1 :: (g.2 ++ row gs) <:+ cs := (List.suffix_append js _).trans h
    have hstop := Nat.le_of_lt (Nat.lt_of_lt_of_le (place_lt hrest) (place_le cs _))
    rw [first_place hv hrest hfull hstop hmem]
    rfl

/-- A row of clauses is laid out clause by clause. -/
theorem clauseLines_heads (hps : ∀ p ∈ clausePhrases, Told v [p]) (h : row gs <:+ cs)
    (hothers : ∀ g ∈ gs, ∀ c ∈ g.2, c.phrase ∉ clausePhrases)
    (horder : (gs.map (·.1.phrase)).Sublist clausePhrases) :
    clauseLines (Scan.ofText (written cs)) (place cs (row gs)) =
      clauseBodies (Scan.ofText (written cs)) (heads cs gs) := by
  have hstarts := clauseStarts_heads hps (by decide) hothers h horder fun p _ => rfl
  rw [clauseLines, hstarts, length_ofText]
  change lineOf [] (Scan.slice _ _ (firstStart (written cs) (heads cs gs))) ++ _ = _
  rw [firstStart_heads, slice_self]
  rfl

/-- Each clause stands on a line of its own, with its further conditions below it. -/
theorem clauseLines_place (hv : Told v conditionPhrases) (hps : ∀ p ∈ clausePhrases, Told v [p])
    (h : row gs <:+ cs) (hgs : Ordered gs) :
    clauseLines (Scan.ofText (written cs)) (place cs (row gs)) =
      gs.flatMap fun g => g.1.text :: g.2.map indented := by
  rw [clauseLines_heads hps h (fun g hg c hc => not_mem_of_continues ((hgs.grouped g hg).2 c hc))
    hgs.order, clauseBodies_heads hv h hgs.grouped]

/-- FROM with its tables, and each join on a line of its own. -/
theorem tableLines_place (hv : Told v joinPhrases) {c : Clause v} {js es : List (Clause v)}
    (h : (c :: js ++ es) <:+ cs) (hc : c.phrase = "FROM") (hjs : ∀ j ∈ js, j.phrase ∈ joinPhrases) :
    tableLines (Scan.ofText (written cs)) (place cs (c :: js ++ es)) (place cs es) =
      c.text :: js.map indented := by
  have hhits := hits_eq_marks hv (suffix_of_cons h) hjs (first_behind hv h (place_le cs es))
  rw [← List.cons_append] at hhits
  rw [tableLines, ← hc, hhits, broken_marks h]

end

end SqlRecovery.Sql.Layout
