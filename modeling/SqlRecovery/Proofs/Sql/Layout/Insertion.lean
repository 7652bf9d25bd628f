import SqlRecovery.Proofs.Sql.Layout.Clause
import SqlRecovery.Proofs.Sql.Layout.Hanging

/-! Insertions that look alike are laid out alike. -/
namespace SqlRecovery.Sql.Layout
open Text

/-- A bracketed list as it is shown behind its opening parenthesis. -/
def inside (inner : List Char) : List Char :=
  listed ('\n' :: listIndent) ('\n' :: listIndent) (items inner) ++ '\n' :: (clauseIndent ++ [')'])

section
variable {g g' : Bool} {k x x' y y' : List Char}

theorem exists_inner (h : isGroup x = true) : ∃ inner, x = '(' :: (inner ++ [')']) := by
  rw [isGroup, Bool.and_eq_true, beq_iff_eq, beq_iff_eq] at h
  obtain ⟨hhead, hlast⟩ := h
  obtain ⟨rest, rfl⟩ := List.head?_eq_some_iff.mp hhead
  cases rest with
  | nil => cases hlast
  | cons c rest =>
    obtain ⟨inner, hinner⟩ := List.getLast?_eq_some_iff.mp hlast
    cases inner with
    | nil => cases hinner
    | cons d inner =>
      rw [List.cons_append, List.cons.injEq] at hinner
      exact ⟨inner, congrArg ('(' :: ·) hinner.2⟩

private theorem trim_of_isGroup (h : isGroup x = true) : trim x = x := by
  rw [isGroup, Bool.and_eq_true, beq_iff_eq, beq_iff_eq] at h
  apply trim_eq_self
  · intro c hc
    rw [h.1] at hc
    obtain rfl := Option.some.inj hc
    rfl
  · intro c hc
    rw [h.2] at hc
    obtain rfl := Option.some.inj hc
    rfl

/-- The parts of a text in parentheses: the one that opens, the list, and the one that closes. -/
private theorem exists_parts (hx : isGroup (trim x) = true) :
    ∃ o r, x = o ++ (((trim x).drop 1).dropLast ++ r) ∧ trim o = ['('] ∧ trim r = [')'] ∧
      (∀ g, glue g o = false) ∧ startsName r = false ∧
      ink x = '(' :: (ink ((trim x).drop 1).dropLast ++ [')']) := by
  obtain ⟨w, w', hsplit, hw, hw'⟩ := exists_trim x
  obtain ⟨inner, hinner⟩ := exists_inner hx
  have hlist : ((trim x).drop 1).dropLast = inner := by
    rw [hinner]
    exact List.dropLast_concat
  rw [hlist]
  refine ⟨w ++ ['('], ')' :: w', ?_, ?_, ?_, ?_, rfl, ?_⟩
  · rw [hinner] at hsplit
    simpa using hsplit
  · rw [trim_of_allBlank_append hw]
    rfl
  · exact trim_append_of_allBlank hw' [')']
  · intro g
    rw [glue_append]
    rfl
  · rw [← ink_trim x, hinner]
    exact congrArg ('(' :: ·) (ink_append inner [')'])

private theorem isGroup_trim (hx : Tight x) : isGroup (trim x) = isGroup (ink x) := by
  rw [isGroup, isGroup, head?_trim hx, getLast?_trim hx]

/-- A text in parentheses, opened behind blanks. -/
private theorem laid_group {lead : List Char} (hlead : lead ≠ []) (hblank : allBlank lead = true)
    (hx : isGroup (trim x) = true) (hx' : isGroup (trim x') = true) (hink : ink x' = ink x)
    (hseam : g = true → startsName x = false) (hseam' : g' = true → startsName x' = false) :
    Laid g g' x x' (lead ++ '(' :: inside ((trim x).drop 1).dropLast)
      (lead ++ '(' :: inside ((trim x').drop 1).dropLast) := by
  obtain ⟨o, r, hsplit, ho, hr, hglue, hname, hparts⟩ := exists_parts hx
  obtain ⟨o', r', hsplit', ho', hr', hglue', hname', hparts'⟩ := exists_parts hx'
  generalize ((trim x).drop 1).dropLast = c at hsplit hparts ⊢
  generalize ((trim x').drop 1).dropLast = c' at hsplit' hparts' ⊢
  have hc : ink c' = ink c := by
    rw [hparts, hparts', List.cons.injEq] at hink
    exact List.append_cancel_right hink.2
  have hopen : Laid g g' o o' (lead ++ ['(']) (lead ++ ['(']) := by
    have hink : ink o' = ink o := by rw [← ink_trim o', ← ink_trim o, ho, ho']
    have h := Laid.chunk true hlead hblank hink
      (fun h => startsName_of_append (hsplit ▸ hseam h))
      (fun h => startsName_of_append (hsplit' ▸ hseam' h))
    change Laid g g' o o' (lead ++ trim o) (lead ++ trim o') at h
    rwa [ho, ho'] at h
  have hlist : Laid (glue g o) (glue g' o') c c' _ _ :=
    laid_items (List.cons_ne_nil '\n' listIndent) rfl (List.cons_ne_nil '\n' listIndent) rfl hc
      (fun h => by rw [hglue] at h; cases h) (fun h => by rw [hglue'] at h; cases h)
  have hclose : Laid (glue (glue g o) c) (glue (glue g' o') c') r r'
      ('\n' :: (clauseIndent ++ [')'])) ('\n' :: (clauseIndent ++ [')'])) := by
    have hink : ink r' = ink r := by rw [← ink_trim r', ← ink_trim r, hr, hr']
    have h : Laid (glue (glue g o) c) (glue (glue g' o') c') r r' _ _ :=
      .chunk true (List.cons_ne_nil '\n' clauseIndent) rfl hink (fun _ => hname) (fun _ => hname')
    change Laid _ _ r r' ('\n' :: clauseIndent ++ trim r) ('\n' :: clauseIndent ++ trim r') at h
    rwa [hr, hr'] at h
  have h := hopen.append (hlist.append hclose)
  rw [hsplit, hsplit']
  simpa [inside] using h

private theorem ink_takeWhile {p : Char → Bool} (hp : ∀ c, isBlank c = true → p c = true)
    (s : List Char) : ink (s.takeWhile p) = (ink s).takeWhile p := by
  induction s with
  | nil => rfl
  | cons c s ih =>
    cases hc : isBlank c with
    | true =>
      rw [List.takeWhile_cons_of_pos (hp c hc), ink_cons_of_blank hc, ink_cons_of_blank hc, ih]
    | false =>
      rw [ink_cons_of_not_blank hc]
      by_cases hne : p c = true
      · rw [List.takeWhile_cons_of_pos hne, List.takeWhile_cons_of_pos hne,
          ink_cons_of_not_blank hc, ih]
      · rw [List.takeWhile_cons_of_neg hne, List.takeWhile_cons_of_neg hne, ink_nil]

/-- Whether the target of an insertion ends with a list of columns. -/
def hasColumns (target : List Char) : Bool :=
  target.contains '(' && target.getLast? == some ')'

private theorem hasColumns_trim (hx : Tight x) : hasColumns (trim x) = hasColumns (ink x) := by
  have hcontains : (trim x).contains '(' = (ink x).contains '(' := by
    rw [← ink_trim x, Bool.eq_iff_iff, List.contains_iff_mem, List.contains_iff_mem, ink,
      List.mem_filter]
    exact ⟨fun h => ⟨h, rfl⟩, fun h => h.1⟩
  rw [hasColumns, hasColumns, hcontains, getLast?_trim hx]

theorem isGroup_columns (h : hasColumns x = true) :
    isGroup (x.dropWhile (· != '(')) = true := by
  have htake := List.takeWhile_append_dropWhile (p := (· != '(')) (l := x)
  rw [hasColumns, Bool.and_eq_true, List.contains_iff_mem, beq_iff_eq] at h
  obtain ⟨hmem, hlast⟩ := h
  have hnot := List.head?_dropWhile_not (· != '(') x
  cases hz : x.dropWhile (· != '(') with
  | nil =>
    rw [hz, List.append_nil] at htake
    rw [← htake] at hmem
    exact absurd (List.all_eq_true.mp List.all_takeWhile '(' hmem) (by decide)
  | cons c z =>
    rw [hz] at hnot
    obtain rfl := bne_eq_false_iff_eq.mp hnot
    rw [← htake, hz, List.getLast?_append, List.getLast?_cons, Option.some_or] at hlast
    rw [isGroup, List.head?_cons, List.getLast?_cons, hlast]
    rfl

/-- The parts of a target with columns: the table and the list of columns. -/
private theorem exists_table (h : hasColumns (trim x) = true) :
    ∃ t z, x = t ++ z ∧ trim t = trim ((trim x).takeWhile (· != '(')) ∧
      ink t = (ink x).takeWhile (· != '(') ∧ startsName z = false ∧ isGroup (trim z) = true ∧
      trim z = (trim x).dropWhile (· != '(') := by
  obtain ⟨w, w', hsplit, hw, hw'⟩ := exists_trim x
  have htake := List.takeWhile_append_dropWhile (p := (· != '(')) (l := trim x)
  have hgroup := isGroup_columns h
  have hz : trim ((trim x).dropWhile (· != '(') ++ w') = (trim x).dropWhile (· != '(') := by
    rw [trim_append_of_allBlank hw', trim_of_isGroup hgroup]
  refine ⟨w ++ (trim x).takeWhile (· != '('), (trim x).dropWhile (· != '(') ++ w', ?_, ?_, ?_, ?_,
    hz.symm ▸ hgroup, hz⟩
  · rw [List.append_assoc, ← List.append_assoc (List.takeWhile _ _), htake, ← hsplit]
  · rw [trim_of_allBlank_append hw]
  · rw [ink_append, ink_eq_nil_iff.mpr hw, List.nil_append, ink_takeWhile, ink_trim]
    intro c hc
    rw [bne, beq_of_blank hc rfl]
    rfl
  · obtain ⟨inner, hinner⟩ := exists_inner hgroup
    rw [hinner]
    rfl

private theorem spaced_trim (a x : List Char) :
    spaced a (trim x) = a ++ Chunk.print ⟨[' '], false, x⟩ := by
  rw [spaced, Chunk.print]
  cases hx : allBlank x with
  | true =>
    rw [trim_of_allBlank hx]
    exact (List.append_nil a).symm
  | false =>
    have hne : (trim x).isEmpty = false := by
      rw [List.isEmpty_eq_false_iff, ne_eq, trim_eq_nil_iff, hx]
      exact Bool.false_ne_true
    rw [hne]
    rfl

theorem shown_columns {head target : List Char} (h : hasColumns target = true) :
    shown (targetLines head target) =
      '\n' :: spaced head (trim (target.takeWhile (· != '('))) ++ ([' '] ++
        '(' :: inside ((target.dropWhile (· != '(')).drop 1).dropLast) := by
  rw [hasColumns] at h
  rw [targetLines, if_pos h, shown_bracketed, inside]
  simp

theorem shown_noColumns {head target : List Char} (h : hasColumns target = false) :
    shown (targetLines head target) = '\n' :: spaced head target := by
  rw [hasColumns] at h
  rw [targetLines, h, if_neg Bool.false_ne_true]
  exact List.append_nil _

/-- The table of an insertion and its columns. -/
private theorem laid_targetLines {h h' : List Char} (hh : ink h' = ink h)
    (hseam : g = true → startsName h = false) (hseam' : g' = true → startsName h' = false)
    (hs : Twins x x') (hx : startsName x = false) (hx' : startsName x' = false) :
    Laid g g' (h ++ x) (h' ++ x') (shown (targetLines (trim h) (trim x)))
      (shown (targetLines (trim h') (trim x'))) := by
  have hink := hs.alike.ink_eq.symm
  have hsame : hasColumns (trim x') = hasColumns (trim x) := by
    rw [hasColumns_trim hs.tight, hasColumns_trim hs.tight', hink]
  have hhead : Laid g g' h h' ('\n' :: trim h) ('\n' :: trim h') :=
    .chunk true (List.cons_ne_nil '\n' []) rfl hh hseam hseam'
  cases hc : hasColumns (trim x) with
  | false =>
    rw [shown_noColumns hc, shown_noColumns (hsame.trans hc), spaced_trim, spaced_trim]
    exact hhead.append (.chunk false (List.cons_ne_nil ' ' []) rfl hink (fun _ => hx) (fun _ => hx'))
  | true =>
    obtain ⟨t, z, hsplit, htable, ht, hname, hz, hcolumns⟩ := exists_table hc
    obtain ⟨t', z', hsplit', htable', ht', hname', hz', hcolumns'⟩ := exists_table (hsame.trans hc)
    have htink : ink t' = ink t := by rw [ht, ht', hink]
    have hzink : ink z' = ink z := by
      have h := hink
      rw [hsplit, hsplit', ink_append, ink_append, htink] at h
      exact List.append_cancel_left h
    rw [shown_columns hc, shown_columns (hsame.trans hc), ← htable, ← htable', ← hcolumns,
      ← hcolumns', spaced_trim, spaced_trim]
    have htablelaid : Laid (glue g h) (glue g' h') t t' _ _ :=
      .chunk false (List.cons_ne_nil ' ' []) rfl htink (fun _ => startsName_of_append (hsplit ▸ hx))
        (fun _ => startsName_of_append (hsplit' ▸ hx'))
    have hgroup : Laid (glue (glue g h) t) (glue (glue g' h') t') z z' _ _ :=
      laid_group (List.cons_ne_nil ' ' []) rfl hz hz' hzink (fun _ => hname) (fun _ => hname')
    have hall := hhead.append (htablelaid.append hgroup)
    rw [hsplit, hsplit']
    simpa using hall

theorem shown_groupLines (o item : List Char) (groups : List (List Char)) :
    shown (groupLines (o ++ ['(']) (item :: groups)) =
      '\n' :: (o ++ '(' :: inside (item.drop 1).dropLast) ++ groups.flatMap fun item =>
        ',' :: ('\n' :: clauseIndent ++ '(' :: inside (item.drop 1).dropLast) := by
  induction groups generalizing o item with
  | nil =>
    change shown (bracketed _ _ _) = _
    rw [shown_bracketed, inside]
    simp
  | cons next groups ih =>
    change shown (bracketed _ _ [')', ','] ++ groupLines (clauseIndent ++ ['(']) (next :: groups)) = _
    rw [shown_append, ih, shown_bracketed, List.flatMap_cons, inside, inside]
    simp

private theorem all_isGroup (hy : Tight y) :
    ((Nesting.outside.pieces y).map trim).all isGroup =
      (Nesting.outside.pieces (ink y)).all isGroup := by
  rw [← map_ink_pieces, List.all_map, List.all_map, Bool.eq_iff_iff, List.all_eq_true,
    List.all_eq_true]
  have hpiece : ∀ p ∈ Nesting.outside.pieces y, isGroup (trim p) = isGroup (ink p) :=
    fun p hp => isGroup_trim (tight_of_mem_pieces hy hp)
  constructor
  · intro h p hp
    exact (hpiece p hp).symm.trans (h p hp)
  · intro h p hp
    exact (hpiece p hp).trans (h p hp)

/-- A keyword with a text behind it, on one line. -/
private theorem shown_keyword (hk : ink k = k) (hne : k ≠ []) (hy : Tight y) :
    shown (lineOf [] (k ++ ' ' :: trim y)) = '\n' :: k ++ Chunk.print ⟨[' '], false, y⟩ := by
  have hblank : allBlank (k ++ ' ' :: trim y) = false := by
    rw [← Bool.not_eq_true, ← ink_eq_nil_iff, ink_append, hk]
    exact List.append_ne_nil_of_left_ne_nil hne _
  have htrim : trim (k ++ ' ' :: trim y) = k ++ Chunk.print ⟨[' '], false, y⟩ := by
    rw [Chunk.print]
    cases hc : allBlank y with
    | true =>
      rw [trim_of_allBlank hc, trim_append_blank (e := ' ') rfl, trim_of_ink hk]
      exact (List.append_nil k).symm
    | false =>
      change trim _ = k ++ ([' '] ++ trim y)
      apply trim_eq_self
      · intro c hc
        rw [List.head?_append_of_ne_nil k hne] at hc
        have hmem : c ∈ ink k := by
          rw [hk]
          exact List.mem_of_head? hc
        exact not_blank_of_mem_ink hmem
      · intro c hlast
        have hend : (k ++ ' ' :: trim y).getLast? = (ink y).getLast? := by
          rw [List.getLast?_append, List.getLast?_cons, getLast?_trim hy]
          cases hl : (ink y).getLast? with
          | some d => rfl
          | none =>
            rw [List.getLast?_eq_none_iff, ink_eq_nil_iff, hc] at hl
            cases hl
        rw [hend] at hlast
        exact not_blank_of_mem_ink (List.mem_of_getLast? hlast)
  rw [shown_lineOf, Chunk.print, hblank, htrim]
  rfl

/-- The text is a list of texts in parentheses. -/
def isGrouped (region : List Char) : Bool :=
  !(items region).isEmpty && (items region).all isGroup

private theorem isGrouped_eq (hy : Tight y) :
    isGrouped (trim y) = (!allBlank y && (Nesting.outside.pieces (ink y)).all isGroup) := by
  rw [isGrouped, items_trim, items, ← all_isGroup hy]
  cases allBlank y with
  | true => rfl
  | false =>
    obtain ⟨p, ps, hp⟩ := List.exists_cons_of_ne_nil (pieces_ne_nil .outside y)
    rw [hp]
    rfl

theorem valueLines_of_isGrouped {region : List Char} (h : isGrouped region = true) :
    valueLines k region = groupLines (k ++ [' ', '(']) (items region) := by
  rw [isGrouped] at h
  rw [valueLines, if_pos h]

theorem valueLines_of_not_isGrouped {region : List Char} (h : isGrouped region = false) :
    valueLines k region = lineOf [] (k ++ ' ' :: region) := by
  rw [isGrouped] at h
  rw [valueLines, h, if_neg Bool.false_ne_true]

private theorem items_of_isGrouped (hy : Tight y) (h : isGrouped (trim y) = true) :
    items (trim y) = (Nesting.outside.pieces y).map trim ∧
      ∀ p ∈ Nesting.outside.pieces y, isGroup (trim p) = true := by
  rw [isGrouped_eq hy, Bool.and_eq_true, Bool.not_eq_true', ← all_isGroup hy, List.all_map,
    List.all_eq_true] at h
  obtain ⟨hblank, hall⟩ := h
  rw [items_trim, items, hblank]
  exact ⟨rfl, hall⟩

/-- Values in groups. -/
private theorem laid_groups (h : Headed g g' k y y') (hy : isGrouped (trim y) = true)
    (hy' : isGrouped (trim y') = true) :
    Laid g g' (k ++ y) (k ++ y') (shown (valueLines k (trim y)))
      (shown (valueLines k (trim y'))) := by
  obtain ⟨hitems, hgroups⟩ := items_of_isGrouped h.twins.tight hy
  obtain ⟨hitems', hgroups'⟩ := items_of_isGrouped h.twins.tight' hy'
  obtain ⟨p, ps, p', ps', hp, hp', hlaid⟩ := laid_pieces h.twins.alike.ink_eq.symm
    (fun _ => h.rest) (fun _ => h.rest') hgroups hgroups'
    (fun hq hx hx' hs hs' => laid_group (List.cons_ne_nil ' ' []) rfl hx hx' hq hs hs')
    (fun hq hx hx' => laid_group (List.cons_ne_nil '\n' clauseIndent) rfl hx hx' hq
      (absurd · Bool.false_ne_true) (absurd · Bool.false_ne_true))
  have hall := (laid_keyword h).append hlaid
  have hopen : k ++ [' ', '('] = (k ++ [' ']) ++ ['('] := (List.append_assoc k [' '] ['(']).symm
  rw [valueLines_of_isGrouped hy, valueLines_of_isGrouped hy', hitems, hitems', hp, hp', hopen,
    List.map_cons, List.map_cons, shown_groupLines, shown_groupLines]
  simpa [List.flatMap_map] using hall

/-- The values of an insertion. -/
private theorem laid_valueLines (h : Headed g g' k y y') :
    Laid g g' (k ++ y) (k ++ y') (shown (valueLines k (trim y)))
      (shown (valueLines k (trim y'))) := by
  have hs := h.twins
  have hink := hs.alike.ink_eq.symm
  have hsame : isGrouped (trim y') = isGrouped (trim y) := by
    rw [isGrouped_eq hs.tight, isGrouped_eq hs.tight', allBlank_eq_of_ink_eq hink, hink]
  cases hy : isGrouped (trim y) with
  | true => exact laid_groups h hy (hsame.trans hy)
  | false =>
    rw [valueLines_of_not_isGrouped hy, valueLines_of_not_isGrouped (hsame.trans hy),
      shown_keyword h.keyword h.nonempty hs.tight, shown_keyword h.keyword h.nonempty hs.tight']
    exact (laid_keyword h).append
      (.chunk false (List.cons_ne_nil ' ' []) rfl hink (fun _ => h.rest) (fun _ => h.rest'))

end

variable {s s' : List Char}

/-- An insertion up to its values. -/
private theorem laidAt_targetLines (hs : Twins s s') {i i' b b' : Nat}
    (h : HitPair s s' "INTO" i i')
    (hb : Onward s s' (i + "INTO".length) (i' + "INTO".length) b b') :
    LaidAt s s' 0 0 b b'
      (targetLines (trim ((Scan.ofText s).slice 0 (i + "INTO".length)))
        (trim ((Scan.ofText s).slice (i + "INTO".length) b)))
      (targetLines (trim ((Scan.ofText s').slice 0 (i' + "INTO".length)))
        (trim ((Scan.ofText s').slice (i' + "INTO".length) b'))) where
  le := Nat.zero_le b
  le' := Nat.zero_le b'
  laid := by
    have hinto : Worded "INTO" := by decide
    have hzero := mark_zero s s'
    have hend := (h.mark_end hs hinto).toLevel
    have hhead := alike_slice hs.alike hzero.toLevel hend (Nat.zero_le _) (Nat.zero_le _)
    rw [← slice_append (Nat.zero_le _) hb.start, ← slice_append (Nat.zero_le _) hb.start']
    exact laid_targetLines hhead.ink_eq.symm (hzero.seam.slice _) (hzero.seam'.slice _)
      (twins_slice hs hend hb.toLevel hb.start hb.start')
      (h.hit.startsName_slice hinto hs.tight b) (h.hit'.startsName_slice hinto hs.tight' b')

theorem rel_insertionLines (hs : Twins s s') :
    Option.Rel (LaidAt s s' 0 0 s.length s'.length) (insertionLines (Scan.ofText s))
      (insertionLines (Scan.ofText s')) := by
  have hinto : Worded "INTO" := by decide
  have hvalues : Worded "VALUES" := by decide
  have hlength := mark_length hs
  rw [insertionLines, insertionLines, length_ofText, length_ofText]
  refine rel_bind (rel_find hs hinto (mark_zero s s').toLevel hlength.toLevel) fun {i i'} hit => ?_
  have hpair := hit.toHitPair
  have hend := hpair.mark_end hs hinto
  refine rel_bind (rel_find hs hvalues hend.toLevel hlength.toLevel) fun {j j'} values => ?_
  have hstart := values.toHitPair.mark hs hvalues
  have hstop := values.toHitPair.mark_end hs hvalues
  have htarget := laidAt_targetLines hs hpair ⟨hstart, values.start, values.start'⟩
  have hregion := laidAt_headed hs values.toHitPair hvalues (by decide)
    ⟨hlength, hstop.le, hstop.le'⟩ laid_valueLines
  exact .some (htarget.append hregion)

end SqlRecovery.Sql.Layout
