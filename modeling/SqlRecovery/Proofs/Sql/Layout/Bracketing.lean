import SqlRecovery.Proofs.Sql.Balance
import SqlRecovery.Proofs.Sql.Layout.Whole

/-! The lists that the layout of an insertion breaks open, and the parentheses around them. A list is
taken from its first and its last character. If the statement is balanced, these are a pair unless the
first stands in a literal, or another parenthesis opens beside it before the last one closes. -/
namespace SqlRecovery.Sql.Layout
open Text

/-- A part of the layout of an insertion: a line, or a list that is broken open. The statement has
`before` in front of the parenthesis that opens the list. -/
inductive Part
  | line (text : Line)
  | list (opener before inner closing : List Char)
  deriving DecidableEq

namespace Part

def lines : Part → List Line
  | line text => [text]
  | list opener _ inner closing => bracketed opener inner closing

end Part

/-- The table of an insertion and its columns. -/
def targetParts (before target : List Char) : List Part :=
  if hasColumns (trim target) then
    [.list (spaced (trim before) (trim ((trim target).takeWhile (· != '('))) ++ [' ', '('])
      (before ++ (target.takeWhile isBlank ++ (trim target).takeWhile (· != '(')))
      (((trim target).dropWhile (· != '(')).drop 1).dropLast [')']]
  else [.line (spaced (trim before) (trim target))]

/-- The pieces of a list of groups, with a comma behind each but the last. -/
def groupParts (opener before : List Char) : List (List Char) → List Part
  | [] => []
  | [p] => [.list opener (before ++ p.takeWhile isBlank) ((trim p).drop 1).dropLast [')']]
  | p :: ps => .list opener (before ++ p.takeWhile isBlank) ((trim p).drop 1).dropLast [')', ','] ::
      groupParts (clauseIndent ++ ['(']) (before ++ (p ++ [','])) ps

/-- The values, opened up if they are groups throughout. -/
def valueParts (before keyword region : List Char) : List Part :=
  if isGrouped region then
    groupParts (keyword ++ [' ', '(']) before (Nesting.outside.pieces region)
  else (lineOf [] (keyword ++ ' ' :: trim region)).map .line

/-- The parts of the layout of an insertion, if it has INTO and then VALUES. -/
def insertionParts (s : List Char) : Option (List Part) := do
  let t := Scan.ofText s
  let into ← t.find "INTO" 0 s.length
  let targetStart := into + "INTO".length
  let values ← t.find "VALUES" targetStart s.length
  let valuesStop := values + "VALUES".length
  return targetParts (s.take targetStart) (t.slice targetStart values) ++
    valueParts (s.take valuesStop) (t.slice values valuesStop) (s.drop valuesStop)

section Lines

private theorem lines_targetParts (before target : List Char) :
    (targetParts before target).flatMap Part.lines = targetLines (trim before) (trim target) := by
  rw [targetParts, targetLines]
  change _ = if hasColumns (trim target) then _ else _
  split
  · rw [List.flatMap_singleton]
    rfl
  · rfl

private theorem lines_groupParts (opener before : List Char) (ps : List (List Char)) :
    (groupParts opener before ps).flatMap Part.lines = groupLines opener (ps.map trim) := by
  induction ps generalizing opener before with
  | nil => rfl
  | cons p ps ih =>
    cases ps with
    | nil => exact List.append_nil _
    | cons q ps =>
      have hrest := ih (clauseIndent ++ ['(']) (before ++ (p ++ [',']))
      rw [groupParts, List.flatMap_cons, hrest]
      · rfl
      · rintro ⟨⟩

private theorem lines_valueParts (before keyword region : List Char) :
    (valueParts before keyword region).flatMap Part.lines = valueLines keyword (trim region) := by
  have htrim : isGrouped (trim region) = isGrouped region := by
    rw [isGrouped, items_trim, isGrouped]
  rw [valueParts]
  cases hgrouped : isGrouped region with
  | true =>
    have hblank : ¬ allBlank region = true := by
      intro hblank
      rw [isGrouped, items, if_pos hblank] at hgrouped
      cases hgrouped
    rw [if_pos rfl, lines_groupParts, valueLines_of_isGrouped (htrim.trans hgrouped), items_trim,
      items, if_neg hblank]
  | false =>
    rw [if_neg Bool.false_ne_true, valueLines_of_not_isGrouped (htrim.trans hgrouped),
      List.flatMap_map]
    exact List.flatMap_pure_eq_map id _ |>.trans (List.map_id _)

/-- The layout of an insertion is made from its parts. -/
theorem insertionLines_eq_parts (s : List Char) :
    insertionLines (Scan.ofText s) = (insertionParts s).map (·.flatMap Part.lines) := by
  rw [insertionLines, insertionParts, length_ofText]
  cases (Scan.ofText s).find "INTO" 0 s.length with
  | none => rfl
  | some i =>
    simp only [Option.bind_eq_bind, Option.bind_some]
    cases (Scan.ofText s).find "VALUES" (i + "INTO".length) s.length with
    | none => rfl
    | some j =>
      have hhead : (Scan.ofText s).slice 0 (i + "INTO".length) = s.take (i + "INTO".length) := by
        rw [slice_ofText, List.drop_zero, Nat.sub_zero]
      have hregion : (Scan.ofText s).slice (j + "VALUES".length) s.length =
          s.drop (j + "VALUES".length) := by
        rw [slice_ofText, ← List.length_drop, List.take_length]
      simp only [Option.bind_some, Option.pure_def, Option.map_some]
      rw [List.flatMap_append, lines_targetParts, lines_valueParts, hhead, hregion]

private theorem lines_ne_nil {s : List Char} {parts : List Part}
    (h : insertionParts s = some parts) : parts.flatMap Part.lines ≠ [] := by
  rw [insertionParts] at h
  obtain ⟨i, -, h⟩ := Option.bind_eq_some_iff.mp h
  obtain ⟨j, -, h⟩ := Option.bind_eq_some_iff.mp h
  obtain rfl := Option.some.inj h
  rw [List.flatMap_append, targetParts]
  split <;> exact List.cons_ne_nil _ _

/-- An insertion is written in the lines of its parts, and any other text on one line. -/
theorem layOut_insert (s : List Char) :
    layOut .insert s = (insertionParts s).elim s fun parts =>
      joinWith ['\n'] (parts.flatMap Part.lines) := by
  have hlines : linesOf .insert (Scan.ofText s) = _ := insertionLines_eq_parts s
  rw [layOut, hlines]
  cases h : insertionParts s with
  | none => rfl
  | some parts =>
    obtain ⟨line, lines, hcons⟩ := List.exists_cons_of_ne_nil (lines_ne_nil h)
    rw [Option.map_some, Option.elim_some, hcons]

end Lines

/-- A list that is broken open stands in the statement with its parentheses. The first stands outside
all others, and behind the last one nothing is open. -/
structure Opens (s before inner : List Char) : Prop where
  isPrefix : before ++ bracket inner <+: s
  depth : (Nesting.outside.after before).depth = 0
  closed : Nesting.outside.after (before ++ bracket inner) = .outside

/-- Every list among the parts has this property, and is shown between its parentheses. -/
def ForLists (P : List Char → List Char → Prop) (parts : List Part) : Prop :=
  ∀ opener before inner closing, Part.list opener before inner closing ∈ parts →
    ['('] <:+ opener ∧ [')'] <+: closing ∧ P before inner

section Opens
variable {s before x : List Char}

private theorem opens_of_isGroup (hx : isGroup x = true) (hs : before ++ x <+: s)
    (hdepth : (Nesting.outside.after before).depth = 0)
    (hclosed : Nesting.outside.after (before ++ x) = .outside) :
    Opens s before (x.drop 1).dropLast := by
  obtain ⟨inner, rfl⟩ := exists_inner hx
  have hinner : (('(' :: (inner ++ [')'])).drop 1).dropLast = inner := List.dropLast_concat
  rw [hinner]
  exact ⟨hs, hdepth, hclosed⟩

private theorem opens_piece {p : List Char} (hp : isGroup (trim p) = true) (hs : before ++ p <+: s)
    (hbefore : Nesting.outside.after before = .outside)
    (hclosed : Nesting.outside.after p = .outside) :
    Opens s (before ++ p.takeWhile isBlank) ((trim p).drop 1).dropLast := by
  obtain ⟨w, hsplit, hw⟩ := takeWhile_append_trim p
  have hlead : Nesting.outside.after (before ++ p.takeWhile isBlank) = .outside := by
    rw [Nesting.after_append, hbefore, after_of_allBlank List.all_takeWhile]
  refine opens_of_isGroup hp ?_ (by rw [hlead]; rfl) ?_
  · refine List.IsPrefix.trans ⟨w, ?_⟩ hs
    rw [List.append_assoc, List.append_assoc, ← hsplit]
  · rw [Nesting.after_append, hlead, after_trim, hclosed]

private theorem ForLists.cons {P : List Char → List Char → Prop} {opener inner closing : List Char}
    {parts : List Part} (hopener : ['('] <:+ opener) (hclosing : [')'] <+: closing)
    (h : P before inner) (hparts : ForLists P parts) :
    ForLists P (.list opener before inner closing :: parts) := by
  intro o b i c hmem
  rcases List.mem_cons.mp hmem with heq | hmem
  · obtain ⟨rfl, rfl, rfl, rfl⟩ := Part.list.inj heq
    exact ⟨hopener, hclosing, h⟩
  · exact hparts o b i c hmem

private theorem forLists_nil (P : List Char → List Char → Prop) : ForLists P [] := by
  rintro _ _ _ _ ⟨⟩

private theorem ForLists.append {P : List Char → List Char → Prop} {parts parts' : List Part}
    (h : ForLists P parts) (h' : ForLists P parts') : ForLists P (parts ++ parts') :=
  fun o b i c hmem => (List.mem_append.mp hmem).elim (h o b i c) (h' o b i c)

/-- Each group begins at the top level, and ends there. -/
private theorem forLists_groupParts {opener r : List Char} {ps : List (List Char)}
    (hopener : ['('] <:+ opener) (hr : Nesting.outside.pieces r = ps)
    (hgroups : ∀ p ∈ ps, isGroup (trim p) = true) (hs : before ++ r = s)
    (hbefore : Nesting.outside.after before = .outside)
    (hclosed : Nesting.outside.after r = .outside) :
    ForLists (Opens s) (groupParts opener before ps) := by
  induction ps generalizing opener before r with
  | nil => exact absurd hr (pieces_ne_nil _ _)
  | cons p ps ih =>
    rw [List.forall_mem_cons] at hgroups
    rcases pieces_cases hr with ⟨rfl, rfl⟩ | ⟨y, rfl, hp, hy⟩
    · exact .cons hopener List.prefix_rfl
        (opens_piece hgroups.1 (hs ▸ List.prefix_rfl) hbefore hclosed) (forLists_nil _)
    · have hpiece : before ++ p <+: s := ⟨',' :: y, by rw [List.append_assoc, hs]⟩
      have hlist := opens_piece hgroups.1 hpiece hbefore hp
      rw [Nesting.after_append, hp] at hclosed
      have hcomma : Nesting.outside.after (before ++ (p ++ [','])) = .outside := by
        rw [Nesting.after_append, Nesting.after_append, hbefore, hp]
        rfl
      have hsplit : before ++ (p ++ [',']) ++ y = s := by
        rw [← hs]
        simp
      have hrest := ih ⟨clauseIndent, rfl⟩ hy hgroups.2 hsplit hcomma hclosed
      obtain ⟨q, qs, rfl⟩ := List.exists_cons_of_ne_nil (hy ▸ pieces_ne_nil .outside y)
      exact .cons hopener ⟨[','], rfl⟩ hlist hrest

private theorem forLists_valueParts {keyword region : List Char} (hs : before ++ region = s)
    (hbefore : Nesting.outside.after before = .outside)
    (hclosed : Nesting.outside.after s = .outside) :
    ForLists (Opens s) (valueParts before keyword region) := by
  rw [valueParts]
  split
  case isTrue hgrouped =>
    rw [isGrouped, Bool.and_eq_true, items] at hgrouped
    have hblank : ¬ allBlank region = true := by
      intro hblank
      rw [if_pos hblank] at hgrouped
      exact Bool.false_ne_true hgrouped.1
    rw [if_neg hblank, List.all_map, List.all_eq_true] at hgrouped
    rw [← hs, Nesting.after_append, hbefore] at hclosed
    exact forLists_groupParts ⟨_, List.append_assoc _ [' '] ['(']⟩ rfl hgrouped.2 hs hbefore hclosed
  case isFalse =>
    intro o b i c hmem
    obtain ⟨line, -, hline⟩ := List.mem_map.mp hmem
    cases hline

/-- The column list begins at the first parenthesis of the target, and ends with the target. -/
private theorem forLists_targetParts {target : List Char} (hs : before ++ target <+: s)
    (hbefore : Nesting.outside.after before = .outside)
    (hclosed : Nesting.outside.after target = .outside) :
    ForLists (Opens s) (targetParts before target) := by
  rw [targetParts]
  split
  case isTrue hcolumns =>
    obtain ⟨w, hsplit, hw⟩ := takeWhile_append_trim target
    have htable := List.takeWhile_append_dropWhile (p := (· != '(')) (l := trim target)
    have hplain : '(' ∉ (trim target).takeWhile (· != '(') := fun hmem =>
      absurd (List.all_eq_true.mp List.all_takeWhile '(' hmem) (by decide)
    refine .cons ⟨_, List.append_assoc _ [' '] ['(']⟩ List.prefix_rfl
      (opens_of_isGroup (isGroup_columns hcolumns) ?_ ?_ ?_) (forLists_nil _)
    · refine List.IsPrefix.trans ⟨w, ?_⟩ hs
      rw [List.append_assoc, List.append_assoc, List.append_assoc, ← List.append_assoc _ _ w, htable,
        ← hsplit]
    · rw [Nesting.after_append, hbefore, Nesting.after_append, after_of_allBlank List.all_takeWhile]
      refine depth_after rfl fun hmem => hplain ?_
      exact (List.of_mem_zip hmem).1
    · rw [List.append_assoc, List.append_assoc, htable, Nesting.after_append, hbefore,
        Nesting.after_append, after_of_allBlank List.all_takeWhile, after_trim, hclosed]
  case isFalse =>
    intro o b i c hmem
    cases List.mem_singleton.mp hmem

/-- Every list that the layout of a closed statement breaks open stands in it with its parentheses. -/
theorem forLists_insertionParts (htight : Tight s) (hclosed : Nesting.outside.after s = .outside)
    {parts : List Part} (h : insertionParts s = some parts) : ForLists (Opens s) parts := by
  have hinto : Worded "INTO" := by decide
  have hvalues : Worded "VALUES" := by decide
  rw [insertionParts] at h
  obtain ⟨i, hi, h⟩ := Option.bind_eq_some_iff.mp h
  obtain ⟨j, hj, h⟩ := Option.bind_eq_some_iff.mp h
  obtain ⟨-, -, hit, -⟩ := find_eq_some (Nat.le_refl _) hi
  obtain ⟨hij, -, hit', -⟩ := find_eq_some (Nat.le_refl _) hj
  have hstart : Nesting.outside.after (s.take (i + "INTO".length)) = .outside :=
    hit.top_end hinto htight
  have htake := take_append_slice (s := s) hij
  have hstop : Nesting.outside.after (s.take j) = .outside := hit'.top hvalues htight
  rw [← htake, Nesting.after_append, hstart] at hstop
  obtain rfl := Option.some.inj h
  exact (forLists_targetParts (htake ▸ List.take_prefix j s) hstart hstop).append
    (forLists_valueParts (List.take_append_drop _ s) (hit'.top_end hvalues htight) hclosed)

end Opens

/-- The parentheses around the list are a pair that stands outside all others and outside literals. -/
def Paired (before inner : List Char) : Prop :=
  Nesting.outside.after before = .outside ∧ Balanced inner

instance (before inner : List Char) : Decidable (Paired before inner) :=
  inferInstanceAs (Decidable (_ ∧ _))

/-- The first parenthesis of the list stands in no literal, and no other opens behind it at the top
level of the statement. -/
def OpensOnce (before inner : List Char) : Prop :=
  (Nesting.outside.after before).quoted = false ∧
    ('(', true) ∉ levels (Nesting.outside.after (before ++ ['('])) inner

instance (before inner : List Char) : Decidable (OpensOnce before inner) :=
  inferInstanceAs (Decidable (_ ∧ _))

/-- In a balanced statement, the parentheses of a list that opens once are a pair. -/
theorem Opens.paired_iff {s before inner : List Char} (h : Opens s before inner) (hs : Balanced s) :
    Paired before inner ↔ OpensOnce before inner := by
  rw [Paired, OpensOnce, Nesting.after_append]
  constructor
  · rintro ⟨hbefore, hinner⟩
    rw [hbefore]
    exact ⟨rfl, levels_deeper hinner.unclosing '('⟩
  · rintro ⟨hquoted, hopen⟩
    have hbefore : Nesting.outside.after before = .outside := by
      have hdepth := h.depth
      generalize Nesting.outside.after before = n at hquoted hdepth ⊢
      obtain ⟨depth, quoted⟩ := n
      obtain rfl : depth = 0 := hdepth
      obtain rfl : quoted = false := hquoted
      rfl
    have hclosed := h.closed
    obtain ⟨rest, rfl⟩ := h.isPrefix
    have hunclosing := not_closing_of_append hs.unclosing
    rw [Nesting.after_append, hbefore] at hclosed
    rw [hbefore] at hopen
    rw [levels_append, hbefore, List.mem_append, not_or, bracket, levels_cons, List.mem_cons,
      not_or] at hunclosing
    obtain ⟨hafter, hlevels⟩ := closed_of_deeper (n := .outside) hclosed hopen hunclosing.2.2
    exact ⟨hbefore, hafter, hlevels⟩

/-- An insertion is laid out in its parts. The parentheses of a list that is broken open are those of
the statement, and if the statement is balanced they are a pair just if the list opens once. -/
theorem format_insertion_lists (sql : String) (h : Balanced sql.toList) :
    let s := collapse sql.toList
    format .insert sql = String.ofList ((insertionParts s).elim s fun parts =>
      joinWith ['\n'] (parts.flatMap Part.lines)) ∧
    ∀ parts ∈ insertionParts s, ForLists (fun before inner => before ++ bracket inner <+: s ∧
      (Paired before inner ↔ OpensOnce before inner)) parts := by
  have hs : Balanced (collapse sql.toList) := balanced_collapse.mpr h
  refine ⟨congrArg String.ofList (layOut_insert _), ?_⟩
  intro parts hparts opener before inner closing hmem
  obtain ⟨hopener, hclosing, hopens⟩ :=
    forLists_insertionParts (tight_collapse _) hs.closed hparts opener before inner closing hmem
  exact ⟨hopener, hclosing, hopens.isPrefix, hopens.paired_iff hs⟩

/-- Two groups, with a parenthesis in a literal and a call in parentheses. -/
private theorem parts_nested :
    insertionParts "insert into t (a, b) values (f(1), ')'), (2, 3)".toList =
      some [.list "insert into t (".toList "insert into t ".toList "a, b".toList ")".toList,
        .list "values (".toList "insert into t (a, b) values ".toList "f(1), ')'".toList
          "),".toList,
        .list "  (".toList "insert into t (a, b) values (f(1), ')'), ".toList "2, 3".toList
          ")".toList] := by decide +kernel

theorem format_insertion_lists_nested :
    Balanced "insert into t (a, b) values (f(1), ')'), (2, 3)".toList ∧
      Paired "insert into t (a, b) values ".toList "f(1), ')'".toList := by
  have hbalanced : Balanced "insert into t (a, b) values (f(1), ')'), (2, 3)".toList := by
    decide +kernel
  have hcollapse : collapse "insert into t (a, b) values (f(1), ')'), (2, 3)".toList =
      "insert into t (a, b) values (f(1), ')'), (2, 3)".toList := by decide +kernel
  have hlists := (format_insertion_lists _ hbalanced).2
  rw [hcollapse] at hlists
  have hlist := (hlists _ parts_nested _ _ _ _ (List.mem_cons_of_mem _ List.mem_cons_self)).2.2.2
  exact ⟨hbalanced, hlist.mpr (by decide +kernel)⟩

/-- A group with an update behind it is taken for one list, and its parentheses are no pair. -/
theorem not_lists_paired :
    ¬ ∀ sql : String, Balanced sql.toList → ∀ parts ∈ insertionParts (collapse sql.toList),
      ForLists Paired parts := by
  intro h
  have hbalanced :
      Balanced "insert into t (a) values (1) on duplicate key update a = values(a)".toList := by
    decide +kernel
  have hparts : insertionParts (collapse
      "insert into t (a) values (1) on duplicate key update a = values(a)".toList) =
      some [.list "insert into t (".toList "insert into t ".toList "a".toList ")".toList,
        .list "values (".toList "insert into t (a) values ".toList
          "1) on duplicate key update a = values(a".toList ")".toList] := by decide +kernel
  have hpaired := (h _ hbalanced _ hparts _ _ _ _ (List.mem_cons_of_mem _ List.mem_cons_self)).2.2
  revert hpaired
  decide +kernel

end SqlRecovery.Sql.Layout
