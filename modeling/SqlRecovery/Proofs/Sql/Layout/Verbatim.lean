import SqlRecovery.Proofs.Sql.Layout.Whole
import SqlRecovery.Proofs.Sql.Levels
import SqlRecovery.Proofs.Sql.Recall

/-! What stands inside parentheses and literals is laid out as it is. A statement is cut at places of
the top level only, and trimmed and indented there, unless it is an insertion. -/
namespace SqlRecovery.Sql
open Text

section
variable {s : List Char} {p : String} {i : Nat}

theorem Hit.after_slice (h : Hit s p i) (hp : Worded p) (hs : Tight s) :
    Nesting.outside.after ((Scan.ofText s).slice i (i + p.length)) = .outside := by
  rw [slice_ofText, Nat.add_sub_cancel_left, ← String.length_toList]
  exact after_of_spelled hp (h.spelled_drop hp hs) .outside

end

namespace Layout

/-- The text ends at the top level, or not with a blank. -/
def Settled (x : List Char) : Prop :=
  Nesting.outside.after x = .outside ∨ ∀ c ∈ x.getLast?, isBlank c = false

/-- The lines have the outline of the text. -/
def Outlines (x : List Char) (lines : List Line) : Prop :=
  outline .outside (shown lines) = outline .outside x

section
variable {x y k : List Char}

theorem outline_trim (hx : Settled x) : outline .outside (trim x) = outline .outside x := by
  obtain ⟨w, w', hsplit, hw, hw'⟩ := exists_trim x
  have hend : outline (Nesting.outside.after (trim x)) w' = [] := by
    rcases hx with hx | hx
    · rw [after_trim, hx, outline_of_allBlank hw']
    · cases hl : w'.getLast? with
      | none => rw [List.getLast?_eq_none_iff.mp hl]; rfl
      | some c =>
        have hmem : c ∈ x.getLast? := by
          rw [hsplit, List.getLast?_append, List.getLast?_append, hl]
          rfl
        have hblank := List.all_eq_true.mp hw' c (List.mem_of_getLast? hl)
        rw [hx c hmem] at hblank
        cases hblank
  conv => rhs; rw [hsplit]
  rw [outline_append, outline_append, after_of_allBlank hw, hend, outline_of_allBlank hw,
    List.nil_append, List.append_nil]

/-- A trimmed text behind blanks. -/
private theorem outline_behind {lead : List Char} (hlead : allBlank lead = true) (hx : Settled x) :
    outline .outside (lead ++ trim x) = outline .outside x := by
  rw [outline_append, outline_of_allBlank hlead, after_of_allBlank hlead, outline_trim hx,
    List.nil_append]

theorem outlines_lineOf {indent : List Char} (hindent : allBlank indent = true) (hx : Settled x) :
    Outlines x (lineOf indent x) := by
  have hblank : allBlank ('\n' :: indent) = true := hindent
  rw [Outlines, shown_lineOf, Chunk.print]
  split
  case isTrue h => rw [outline_of_allBlank (Bool.and_eq_true_iff.mp h).2]; rfl
  case isFalse => exact outline_behind hblank hx

theorem Settled.of_append (h : Settled (k ++ x)) (hk : Nesting.outside.after k = .outside) :
    Settled x := by
  rcases h with h | h
  · exact .inl (by rwa [Nesting.after_append, hk] at h)
  · refine .inr fun c hc => h c ?_
    rw [List.getLast?_append, Option.mem_def.mp hc]
    rfl

/-- The pieces of a list, each trimmed and put behind blanks. -/
private theorem outline_pieces {first lead : List Char} (hfirst : allBlank first = true)
    (hlead : allBlank lead = true) {p : List Char} {ps : List (List Char)}
    (h : Nesting.outside.pieces x = p :: ps) (hx : Settled x) :
    outline .outside (first ++ trim p ++ ps.flatMap fun p => ',' :: (lead ++ trim p)) =
      outline .outside x := by
  induction ps generalizing x p first with
  | nil =>
    rcases pieces_cases h with ⟨-, rfl⟩ | ⟨y, -, -, hy⟩
    · rw [List.flatMap_nil, List.append_nil, outline_behind hfirst hx]
    · exact absurd hy (pieces_ne_nil _ _)
  | cons q ps ih =>
    rcases pieces_cases h with ⟨hnil, -⟩ | ⟨y, rfl, hp, hy⟩
    · cases hnil
    · have hcomma : ∀ z, outline .outside (',' :: z) = (',', true) :: outline .outside z :=
        fun _ => rfl
      have hrest := ih hlead hy ((hx.of_append hp).of_append (k := [',']) rfl)
      have hfirstAfter : Nesting.outside.after (first ++ trim p) = .outside := by
        rw [Nesting.after_append, after_of_allBlank hfirst, after_trim, hp]
      rw [outline_append, outline_behind hfirst (.inl hp), hfirstAfter, outline_append, hp,
        List.flatMap_cons, List.cons_append, hcomma, hcomma, hrest]

/-- A keyword with a comma list behind it. -/
theorem outlines_hanging (hk : Nesting.outside.after k = .outside) (hx : Settled x) :
    Outlines (k ++ x) (hanging k (items x)) := by
  have hlisted : ∀ {lead : List Char}, allBlank lead = true →
      outline .outside (listed [' '] lead (items x)) = outline .outside x := by
    intro lead hlead
    rw [items]
    split
    case isTrue hblank =>
      rw [outline_of_allBlank hblank]
      rfl
    case isFalse =>
      obtain ⟨p, ps, hp⟩ := List.exists_cons_of_ne_nil (pieces_ne_nil .outside x)
      rw [hp, List.map_cons, listed, List.flatMap_map]
      exact outline_pieces rfl hlead hp hx
  have hnewline : outline .outside ('\n' :: k) = outline .outside k :=
    outline_append .outside ['\n'] k
  rw [Outlines, shown_hanging, outline_append, hnewline, outline_append]
  change _ ++ outline (Nesting.outside.after k) _ = _
  rw [hk, hlisted (allBlank_indent _)]

private theorem settled_trim (x : List Char) : Settled (trim x) := by
  refine .inr fun c hc => ?_
  rw [trim, trimEnd, List.getLast?_reverse] at hc
  have hhead := List.head?_dropWhile_not isBlank (trimStart x).reverse
  rw [Option.mem_def.mp hc] at hhead
  exact hhead

/-- A keyword that takes over a modifier from the list behind it. -/
theorem outlines_takeModifier (hk : Nesting.outside.after k = .outside) (hx : Settled x) :
    Outlines (k ++ x)
      (hanging (takeModifier k (trim x)).1 (items (takeModifier k (trim x)).2)) := by
  rcases modifierLength_cases (trim x) with hzero | ⟨word, hword, -, hlength, hstarts⟩
  · rw [takeModifier_of_zero hzero, items_trim]
    exact outlines_hanging hk hx
  · have hpos := hword.length_pos
    rw [startsWithWord_eq] at hstarts
    have hmodifier := after_of_spelled hword hstarts .outside
    rw [String.length_toList, ← hlength] at hmodifier
    have hsplit := settled_trim x
    rw [← List.take_append_drop (modifierLength (trim x)) (trim x)] at hsplit
    have hhead : Nesting.outside.after (k ++ ' ' :: (trim x).take (modifierLength (trim x))) =
        .outside := by
      rw [Nesting.after_append, hk]
      exact hmodifier
    have houtline := outlines_hanging hhead (hsplit.of_append hmodifier)
    have hspace : ∀ z, outline .outside (' ' :: z) = outline .outside z := fun _ => rfl
    rw [takeModifier_of_pos (by omega), items_trimStart]
    rw [Outlines, List.append_assoc, outline_append, hk, List.cons_append, hspace,
      List.take_append_drop, outline_trim hx] at houtline
    rw [Outlines, houtline, outline_append, hk]

end

section
variable {s s' : List Char} {a a' b b' : Nat} {first lines : List Line}

/-- What the lines show of the text from a place on: all of it, or the text is over. -/
inductive Rest (s : List Char) : Nat → List Line → Prop
  | ended : Rest s s.length []
  | shown {a : Nat} {lines : List Line} (top : Top s a) (outlines : Outlines (s.drop a) lines) :
    Rest s a lines

/-- A slice in front of what is shown. It ends at the top level, or with the text. -/
theorem Rest.cons (h : Rest s b lines) (hs : Settled s) (ha : Top s a) (hab : a ≤ b)
    (hfirst : Settled ((Scan.ofText s).slice a b) → Outlines ((Scan.ofText s).slice a b) first) :
    Rest s a (first ++ lines) := by
  refine .shown ha ?_
  cases h with
  | ended =>
    have hdrop : Settled (s.drop a) := by
      rw [← List.take_append_drop a s] at hs
      exact hs.of_append ha
    rw [slice_ofText, ← List.length_drop, List.take_length] at hfirst
    rw [List.append_nil]
    exact hfirst hdrop
  | shown hb houtlines =>
    have hafter : Nesting.outside.after ((Scan.ofText s).slice a b) = .outside := by
      rw [Top, ← take_append_slice hab, Nesting.after_append, ha] at hb
      exact hb
    have hsplit : s.drop a = (Scan.ofText s).slice a b ++ s.drop b := by
      have h := List.take_append_drop b s
      rw [← take_append_slice hab, List.append_assoc] at h
      exact List.append_cancel_left ((List.take_append_drop a s).trans h.symm)
    have hshown : outline .outside (Sql.shown first) = _ := hfirst (.inl hafter)
    have hothers : outline .outside (Sql.shown lines) = _ := houtlines
    rw [Outlines, shown_append, outline_append, after_eq_of_outline_eq hshown, hafter, hshown,
      hothers, hsplit, outline_append, hafter]

/-- A keyword with what stands behind it. -/
theorem Rest.headed (h : Rest s b lines) (hs : Settled s) (htight : Tight s) {p : String} {i : Nat}
    (hit : Hit s p i) (hp : Worded p) (hb : i + p.length ≤ b)
    {lay : List Char → List Char → List Line}
    (hlay : ∀ {k x : List Char}, Nesting.outside.after k = .outside → Settled x →
      Outlines (k ++ x) (lay k x)) :
    Rest s i (lay ((Scan.ofText s).slice i (i + p.length)) ((Scan.ofText s).slice (i + p.length) b) ++
      lines) := by
  have hk := hit.after_slice hp htight
  refine h.cons hs (hit.top hp htight) (Nat.le_trans (Nat.le_add_right _ _) hb) fun hsettled => ?_
  rw [← slice_append (Nat.le_add_right i p.length) hb] at hsettled ⊢
  exact hlay hk (hsettled.of_append hk)

private theorem Rest.segments {is is' : List Nat} (h : Rest s b lines) (hs : Settled s)
    (ha : Top s a) (hbreaks : Breaks s s' b b' a a' is is') (his : ∀ i ∈ is, Top s i) :
    Rest s a ((segments (Scan.ofText s) a is b).flatMap (lineOf clauseIndent) ++ lines) := by
  induction hbreaks with
  | nil stop stop' =>
    rw [Layout.segments, List.flatMap_singleton]
    exact h.cons hs ha stop (outlines_lineOf rfl)
  | cons start start' mark rest ih =>
    rw [List.forall_mem_cons] at his
    rw [Layout.segments, List.flatMap_cons, List.append_assoc]
    exact (ih his.1 his.2).cons hs ha start (outlines_lineOf rfl)

/-- A text that is broken at places of the top level. -/
theorem Rest.broken {is is' : List Nat} (h : Rest s b lines) (hs : Settled s) (ha : Top s a)
    (hbreaks : Breaks s s' b b' a a' is is') (his : ∀ i ∈ is, Top s i) :
    Rest s a (broken (Scan.ofText s) a is b ++ lines) := by
  cases hbreaks with
  | nil stop stop' =>
    rw [broken_nil]
    exact h.cons hs ha stop (outlines_lineOf rfl)
  | cons start start' mark rest =>
    rw [List.forall_mem_cons] at his
    rw [broken_cons, List.append_assoc]
    exact (h.segments hs his.1 rest his.2).cons hs ha start (outlines_lineOf rfl)

private theorem top_of_mem_hits {xs xs' : List (Nat × String)}
    (h : HitChain s s' b b' a a' xs xs') (htight : Tight s) : ∀ x ∈ xs, Top s x.1 := by
  induction h with
  | nil stop stop' => exact fun x hx => by cases hx
  | cons hit rest ih => exact List.forall_mem_cons.mpr ⟨hit.hit.hit.top hit.worded htight, ih⟩

private theorem conditionBreaks_subset (between : Bool) (xs : List (Nat × String)) :
    conditionBreaks between xs ⊆ xs.map (·.1) := by
  induction xs generalizing between with
  | nil => exact List.Subset.refl []
  | cons x xs ih =>
    obtain ⟨i, p⟩ := x
    rw [conditionBreaks, List.map_cons]
    split
    · exact List.subset_cons_of_subset i (ih true)
    · split
      · exact List.subset_cons_of_subset i (ih false)
      · exact List.cons_subset_cons i (ih between)

/-- A text is the twin of itself. -/
private theorem twins_self (htight : Tight s) : Twins s s := ⟨htight, htight, rfl⟩

private theorem Rest.whereLines (h : Rest s b lines) (hs : Settled s) (htight : Tight s) {i : Nat}
    (hit : Hit s "WHERE" i) (hstop : i + "WHERE".length ≤ b) (hb : Level s s b b) :
    Rest s i (whereLines (Scan.ofText s) i b ++ lines) := by
  have hwhere : Worded "WHERE" := by decide
  have hself := twins_self htight
  have hpair : HitPair s s "WHERE" i i := ⟨hit, hit, rfl⟩
  have hhits := hitChain_hits hself worded_condition (hpair.mark_end hself hwhere).toLevel hb hstop
    hstop
  refine h.broken hs (hit.top hwhere htight) (breaks_conditionBreaks hself hhits false
    (Nat.le_add_right _ _) (Nat.le_add_right _ _)) fun j hj => ?_
  obtain ⟨x, hx, rfl⟩ := List.mem_map.mp (conditionBreaks_subset false _ hj)
  exact top_of_mem_hits hhits htight x hx

private theorem rest_clauseBodies (hs : Settled s) (htight : Tight s) {xs : List (Nat × String)}
    (h : HitChain s s s.length s.length a a' xs xs) :
    Rest s (firstStart s xs) (clauseBodies (Scan.ofText s) xs) := by
  induction xs generalizing a a' with
  | nil => exact .ended
  | cons x xs ih =>
    cases h with
    | cons hx rest =>
      obtain ⟨i, p⟩ := x
      have hstop := onward_firstStart (twins_self htight) rest
      rw [clauseBodies, length_ofText]
      change Rest s i (_ ++ _)
      split
      case isTrue hp =>
        obtain rfl := beq_iff_eq.mp hp
        exact (ih rest).whereLines hs htight hx.hit.hit hstop.start hstop.toLevel
      case isFalse =>
        exact (ih rest).cons hs (hx.hit.hit.top hx.worded htight)
          (Nat.le_trans (Nat.le_add_right _ _) hstop.start) (outlines_lineOf rfl)

theorem rest_clauseLines (hs : Settled s) (htight : Tight s) (ha : Mark s s a a) (htop : Top s a) :
    Rest s a (clauseLines (Scan.ofText s) a) := by
  have hself := twins_self htight
  have hchain := hitChain_clauseStarts hself worded_clause ha
  rw [clauseLines, length_ofText]
  exact (rest_clauseBodies hs htight hchain).cons hs htop (onward_firstStart hself hchain).start
    (outlines_lineOf rfl)

private theorem clauseLines_length (s : List Char) :
    clauseLines (Scan.ofText s) s.length = [] := by
  have hstarts : ∀ phrases, clauseStarts (Scan.ofText s) s.length phrases = [] := by
    intro phrases
    induction phrases with
    | nil => rfl
    | cons p phrases ih => rw [clauseStarts, length_ofText, find_length, ih]
  rw [clauseLines, hstarts, length_ofText]
  exact congrArg (lineOf [] · ++ []) (slice_self s s.length)

/-- Where no clause is found, the text is over. -/
theorem rest_clausesFrom (hs : Settled s) (htight : Tight s) (ha : Mark s s a a) :
    Rest s (clausesFrom (Scan.ofText s) a)
      (clauseLines (Scan.ofText s) (clausesFrom (Scan.ofText s) a)) := by
  have hself := twins_self htight
  have hfirst := rel_first hself worded_clause ha.toLevel (mark_length hself).toLevel
  rw [clausesFrom, length_ofText]
  generalize (Scan.ofText s).first clausePhrases a s.length = o at hfirst ⊢
  cases hfirst with
  | none =>
    change Rest s s.length (clauseLines _ s.length)
    rw [clauseLines_length]
    exact .ended
  | some hx =>
    exact rest_clauseLines hs htight (hx.hit.toHitPair.mark hself hx.worded)
      (hx.hit.hit.top hx.worded htight)

private theorem Rest.outlines {lines : List Line} (h : Rest s 0 lines) : Outlines s lines := by
  generalize ha : 0 = a at h
  cases h with
  | ended => rw [List.length_eq_zero_iff.mp ha.symm]; rfl
  | shown top outlines => rwa [← ha, List.drop_zero] at outlines

private theorem outlines_queryLines (hs : Settled s) (htight : Tight s) {lines : List Line}
    (h : queryLines (Scan.ofText s) = some lines) : Outlines s lines := by
  have hselect : Worded "SELECT" := by decide
  have hfrom : Worded "FROM" := by decide
  have hself := twins_self htight
  have hblank : allBlank [] = true := rfl
  rw [queryLines, length_ofText] at h
  obtain ⟨i, hi, h⟩ := Option.bind_eq_some_iff.mp h
  obtain ⟨j, hj, h⟩ := Option.bind_eq_some_iff.mp h
  obtain ⟨-, -, hit, -⟩ := find_eq_some (Nat.le_refl _) hi
  obtain ⟨hij, -, tables, -⟩ := find_eq_some (Nat.le_refl _) hj
  have hpair : HitPair s s "FROM" j j := ⟨tables, tables, rfl⟩
  have hend := hpair.mark_end hself hfrom
  have hclauses := onward_clausesFrom hself hend
  have hjoins := hitChain_hits hself worded_join hend.toLevel hclauses.toLevel hclauses.start
    hclauses.start
  have hbroken := (rest_clausesFrom hs htight hend).broken hs (tables.top hfrom htight)
    (breaks_of_hitChain hself hjoins (Nat.le_add_right _ _) (Nat.le_add_right _ _)) fun k hk => by
      obtain ⟨x, hx, rfl⟩ := List.mem_map.mp hk
      exact top_of_mem_hits hjoins htight x hx
  have hfields := hbroken.headed hs htight hit hselect hij outlines_takeModifier
  have hall := hfields.cons hs (a := 0) rfl (Nat.zero_le i) (outlines_lineOf hblank)
  obtain rfl := Option.some.inj h
  rw [List.append_assoc, List.append_assoc]
  exact hall.outlines

private theorem outlines_updateLines (hs : Settled s) (htight : Tight s) {lines : List Line}
    (h : updateLines (Scan.ofText s) = some lines) : Outlines s lines := by
  have hset : Worded "SET" := by decide
  have hself := twins_self htight
  have hblank : allBlank [] = true := rfl
  rw [updateLines, length_ofText] at h
  obtain ⟨i, hi, h⟩ := Option.bind_eq_some_iff.mp h
  obtain ⟨-, -, hit, -⟩ := find_eq_some (Nat.le_refl _) hi
  have hpair : HitPair s s "SET" i i := ⟨hit, hit, rfl⟩
  have hend := hpair.mark_end hself hset
  have hlist := (rest_clausesFrom hs htight hend).headed hs htight hit hset
    (onward_clausesFrom hself hend).start outlines_hanging
  have hall := hlist.cons hs (a := 0) rfl (Nat.zero_le i) (outlines_lineOf hblank)
  obtain rfl := Option.some.inj h
  rw [List.append_assoc]
  exact hall.outlines

private theorem outlines_linesOf {kind : Kind} (hkind : kind ≠ .insert) (hs : Settled s)
    (htight : Tight s) {lines : List Line} (h : linesOf kind (Scan.ofText s) = some lines) :
    Outlines s lines := by
  cases kind with
  | query => exact outlines_queryLines hs htight h
  | insert => exact absurd rfl hkind
  | update => exact outlines_updateLines hs htight h
  | delete =>
    obtain rfl := Option.some.inj h
    exact (rest_clauseLines hs htight (mark_zero s s) rfl).outlines
  | other => cases h

end

/-- But for an insertion, a layout and the one-line form of the statement differ in blanks at the top
level only. What stands inside parentheses and literals is the same in both, blank for blank. -/
theorem format_verbatim {kind : Kind} (hkind : kind ≠ .insert) (sql : String) :
    outline .outside (format kind sql).toList = outline .outside (collapse sql.toList) ∧
      innerRuns (format kind sql).toList = innerRuns (collapse sql.toList) := by
  have htight := tight_collapse sql.toList
  have hs := settled_trim (collapse sql.toList)
  rw [trim_of_tight htight, collapse_collapse] at hs
  have houtline : outline .outside (format kind sql).toList =
      outline .outside (collapse sql.toList) := by
    rw [format, String.toList_ofList]
    cases h : linesOf kind (Scan.ofText (collapse sql.toList)) with
    | none => rw [layOut, h]
    | some lines =>
      cases lines with
      | nil => rw [layOut, h]
      | cons line lines =>
        have hshown := outlines_linesOf hkind hs htight h
        rw [layOut_of_lines h, ← hshown]
        rfl
  exact ⟨houtline, innerRuns_eq_of_outline_eq houtline⟩

/-- A query with a parenthesis too many, and a literal that nothing closes. -/
def unbalanced : String := "select max(a,  b) ) from t where c = (select 1 from u) and d = 'x  and y"

theorem format_verbatim_unbalanced : Kind.query ≠ .insert ∧
    outline .outside (format .query unbalanced).toList =
      outline .outside (collapse unbalanced.toList) ∧
    innerRuns (format .query unbalanced).toList =
      ["a, b)".toList, "select 1 from u)".toList, "x and y".toList] := by
  have hquery : Kind.query ≠ .insert := by decide
  have hruns : innerRuns (collapse unbalanced.toList) =
      ["a, b)".toList, "select 1 from u)".toList, "x and y".toList] := by decide +kernel
  have hverbatim := format_verbatim hquery unbalanced
  exact ⟨hquery, hverbatim.1, hverbatim.2.trans hruns⟩

end Layout

end SqlRecovery.Sql
