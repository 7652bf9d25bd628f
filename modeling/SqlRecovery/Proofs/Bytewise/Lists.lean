import SqlRecovery.Proofs.Bytewise.Clause
import SqlRecovery.Proofs.Sql.Layout.Insertion

/-! The lists of a statement, laid out byte by byte: the fields or assignments behind a keyword, the
columns of an insertion and its values. What is cut off at the ends of an item is ASCII, so what is
left of it is a slice between characters. -/
namespace SqlRecovery.Bytewise
open Text Sql
open Layout (Line lineOf clauseIndent listIndent spaced hasColumns)

/-- The entries before the `last`-th get a comma. -/
def punctuated (last : Nat) (entries : List (List Char)) : List (List Char) :=
  entries.mapIdx fun i x => if i < last then x ++ [','] else x

/-- The first entry stands behind the head, the others below it. -/
def hanging (head : List Char) (entries : List (List Char)) : Checked (List Line) :=
  if entries.isEmpty then pure [head]
  else do
    let last ← minus entries.length 1
    return match punctuated last entries with
      | [] => [head]
      | x :: xs => (head ++ ' ' :: x) :: xs.map (List.replicate (head.length + 1) ' ' ++ ·)

/-- An opening line, one line for each item of the comma list, and a closing line. -/
def bracketed (opener inner closing : List Char) : Checked (List Line) := do
  let entries ← items inner
  return opener :: (punctuated (entries.length - 1) entries).map (listIndent ++ ·) ++
    [clauseIndent ++ closing]

/-- The whole word at the start of the text. -/
def startsWithWord (word : String) (s : List Char) : Checked Bool :=
  pure (decide (word.length ≤ size s)) <&&>
    sameLetters word.toList <$> run (bytes s) 0 word.length <&&>
    pure (freeBehind (bytes s) word.length)

/-- The word at the start of the text, as it is written there. -/
def leadingWord (s : List Char) (word : String) : Checked (Option (List Char)) := do
  if ← startsWithWord word s then some <$> slice s 0 word.length else pure none

/-- The modifier at the start of a field list. -/
def leadingModifier (fields : List Char) : Checked (Option (List Char)) :=
  ["DISTINCT", "ALL"].findSomeM? (leadingWord fields)

/-- The head with the modifier taken over from the field list, and the fields that remain. -/
def takeModifier (head fields : List Char) : Checked (List Char × List Char) := do
  match ← leadingModifier fields with
  | some modifier =>
    let rest ← slice fields (size modifier) (size fields)
    return (head ++ ' ' :: modifier, trimStart rest)
  | none => return (head, fields)

/-- The text from byte `start` on without its last byte. -/
def enclosed (s : List Char) (start : Nat) : Checked (List Char) := do
  slice s start (← minus (size s) 1)

/-- The table and its columns. -/
def targetLines (head target : List Char) : Checked (List Line) :=
  match position? '(' target with
  | some opened =>
    if target.getLast? == some ')' then do
      let table ← slice target 0 opened
      let columns ← enclosed target (opened + 1)
      bracketed (spaced head (trim table) ++ [' ', '(']) columns [')']
    else pure [spaced head target]
  | none => pure [spaced head target]

/-- The item has room for two parentheses, begins with an opening and ends with a closing one. -/
def isGroup (item : List Char) : Bool :=
  2 ≤ size item && item.head? == some '(' && item.getLast? == some ')'

/-- The groups from the `i`-th on, each closed by a comma but the `last`-th. -/
def groupLines (keyword : List Char) (last : Nat) : Nat → List (List Char) → Checked (List Line)
  | _, [] => pure []
  | i, g :: gs => do
    let inner ← enclosed g 1
    let lines ← bracketed (if i == 0 then keyword ++ [' ', '('] else clauseIndent ++ ['(']) inner
      (if i < last then [')', ','] else [')'])
    return lines ++ (← groupLines keyword last (i + 1) gs)

/-- The values, opened up if they are groups throughout. -/
def valueLines (keyword region : List Char) : Checked (List Line) := do
  let groups ← items region
  if !groups.isEmpty && groups.all isGroup then
    groupLines keyword (← minus groups.length 1) 0 groups
  else return lineOf [] (keyword ++ ' ' :: region)

section Entries
variable {s fields : List Char} {word : String}

theorem punctuated_eq (entries : List (List Char)) :
    punctuated (entries.length - 1) entries = Layout.withCommas entries := by
  induction entries with
  | nil => rfl
  | cons x xs ih =>
    cases xs with
    | nil => rfl
    | cons y ys =>
      rw [Layout.withCommas, ← ih]
      · simp [punctuated, List.mapIdx_cons]
      · exact fun h => List.cons_ne_nil y ys h

theorem hanging_eq (head : List Char) (entries : List (List Char)) :
    hanging head entries = pure (Layout.hanging head entries) := by
  cases entries with
  | nil => rfl
  | cons x xs =>
    have hlast : 1 ≤ (x :: xs).length := Nat.le_add_left 1 xs.length
    rw [hanging, List.isEmpty_cons, if_neg Bool.false_ne_true, minus_of_le hlast, pure_bind,
      punctuated_eq]
    rfl

theorem bracketed_eq (opener inner closing : List Char) :
    bracketed opener inner closing = pure (Layout.bracketed opener inner closing) := by
  rw [bracketed, items_eq, pure_bind, punctuated_eq, Layout.bracketed]

theorem spelled_eq_sameLetters (p s : List Char) :
    spelled p s = (sameLetters p (s.take p.length) && freeBehind s p.length) := by
  induction p generalizing s with
  | nil => cases s <;> rfl
  | cons k p ih =>
    cases s with
    | nil => rfl
    | cons c s =>
      rw [spelled, ih, List.length_cons, List.take_succ_cons, sameLetters_cons, Bool.and_assoc]
      rfl

/-- A word is looked for only where the text is long enough. -/
theorem startsWithWord_eq (hword : Worded word) (s : List Char) :
    startsWithWord word s = pure (spelled word.toList s) := by
  rw [startsWithWord, ← spelled_bytes (ascii_of_worded hword)]
  by_cases h : word.length ≤ size s
  · rw [decide_eq_true h, run_of_le (Nat.zero_le _) h, map_pure, pure_andM_pure, pure_andM_pure,
      spelled_eq_sameLetters, String.length_toList, Bool.true_and]
    rfl
  · have hshort : spelled word.toList (bytes s) = false := by
      rw [Bool.eq_false_iff]
      intro hspelled
      have hlength := length_le_of_spelled hspelled
      rw [String.length_toList] at hlength
      exact h hlength
    rw [decide_eq_false h, hshort]
    rfl

/-- A word at the start of a text is as long in bytes as in characters. -/
theorem offset_word (hword : Worded word) (h : spelled word.toList s = true) :
    offset s word.length = word.length := by
  have hoffset := offset_hit hword ((hit_zero_iff hword).mpr h)
  rwa [Nat.zero_add, offset_zero, Nat.zero_add] at hoffset

theorem leadingWord_eq (hword : Worded word) (s : List Char) : leadingWord s word =
    pure (if spelled word.toList s then some (s.take word.length) else none) := by
  rw [leadingWord, startsWithWord_eq hword, pure_bind]
  cases h : spelled word.toList s with
  | false => rfl
  | true =>
    have hslice := slice_offset (s := s) (Nat.zero_le word.length)
    rw [offset_zero, offset_word hword h] at hslice
    rw [if_pos rfl, if_pos rfl, hslice, map_pure]
    rfl

theorem leadingModifier_eq (fields : List Char) : leadingModifier fields =
    pure (if Layout.modifierLength fields = 0 then none
      else some (fields.take (Layout.modifierLength fields))) := by
  have hdistinct : Worded "DISTINCT" := by decide
  have hall : Worded "ALL" := by decide
  simp only [leadingModifier, List.findSomeM?, leadingWord_eq hdistinct, leadingWord_eq hall,
    pure_bind, Layout.modifierLength, Sql.startsWithWord_eq]
  cases spelled "DISTINCT".toList fields with
  | true => rfl
  | false => cases spelled "ALL".toList fields <;> rfl

theorem takeModifier_eq (head fields : List Char) :
    takeModifier head fields = pure (Layout.takeModifier head fields) := by
  rw [takeModifier, leadingModifier_eq, pure_bind]
  rcases Nat.eq_zero_or_pos (Layout.modifierLength fields) with h | h
  · rw [if_pos h, Layout.takeModifier_of_zero h]
  · generalize hn : Layout.modifierLength fields = n at h
    have hrest := slice_rest (fields.take n) (fields.drop n)
    rw [List.take_append_drop] at hrest
    rw [if_neg (Nat.ne_of_gt h), Layout.takeModifier_of_pos (hn ▸ h), hn]
    dsimp only
    rw [hrest, pure_bind]

end Entries

section Insertion
variable {head target keyword region : List Char} {g : List Char} {gs : List (List Char)}
  {last i : Nat}

theorem size_open : size ['('] = 1 := size_ascii (by decide)

theorem size_close : size [')'] = 1 := size_ascii (by decide)

/-- What stands between two parentheses, of which the second is the last character. -/
theorem enclosed_eq (front inner : List Char) :
    enclosed (front ++ '(' :: (inner ++ [')'])) (size front + 1) = pure inner := by
  have hsize : size (front ++ '(' :: (inner ++ [')'])) = size front + 1 + size inner + 1 := by
    rw [size_append, size_cons, size_append, size_open, size_close]
    omega
  have hinner := slice_append (front ++ ['(']) inner [')']
  rw [size_append, size_open, List.append_assoc, List.singleton_append] at hinner
  rw [enclosed, hsize, minus_of_le (Nat.le_add_left 1 _), pure_bind, Nat.add_sub_cancel, hinner]

/-- The columns of a target stand between its first opening parenthesis and its end. -/
theorem exists_columns (h : hasColumns target = true) : ∃ table columns,
    target = table ++ '(' :: (columns ++ [')']) ∧ '(' ∉ table ∧
      target.takeWhile (· != '(') = table ∧
      target.dropWhile (· != '(') = '(' :: (columns ++ [')']) := by
  obtain ⟨columns, hcolumns⟩ := Layout.exists_inner (Layout.isGroup_columns h)
  refine ⟨target.takeWhile (· != '('), columns, ?_, ?_, rfl, hcolumns⟩
  · rw [← hcolumns, List.takeWhile_append_dropWhile]
  · exact fun hmem => absurd (List.all_eq_true.mp List.all_takeWhile '(' hmem) (by decide)

theorem targetLines_eq (head target : List Char) :
    targetLines head target = pure (Layout.targetLines head target) := by
  rw [targetLines, Layout.targetLines, ← hasColumns]
  cases h : hasColumns target with
  | true =>
    obtain ⟨table, columns, htarget, hopen, htable, hcolumns⟩ := exists_columns h
    rw [hasColumns, Bool.and_eq_true] at h
    have hslice := slice_append [] table ('(' :: (columns ++ [')']))
    rw [List.nil_append, size_nil, Nat.zero_add] at hslice
    rw [h.2, htable, hcolumns, htarget, position?_append hopen]
    dsimp only
    rw [if_pos rfl, if_pos rfl, hslice, pure_bind, enclosed_eq, pure_bind, bracketed_eq,
      List.drop_one, List.tail_cons, List.dropLast_concat]
  | false =>
    rw [if_neg Bool.false_ne_true]
    cases hposition : position? '(' target with
    | none => rfl
    | some opened =>
      dsimp only
      split
      case isFalse => rfl
      case isTrue hlast =>
        rw [hasColumns, hlast, Bool.and_true, List.contains_eq_mem, decide_eq_false_iff_not] at h
        rw [position?_of_not_mem h] at hposition
        cases hposition

theorem isGroup_eq (item : List Char) : isGroup item = Layout.isGroup item := by
  cases h : Layout.isGroup item with
  | false =>
    rw [Layout.isGroup] at h
    rw [isGroup, Bool.and_assoc, h, Bool.and_false]
  | true =>
    have hends := h
    obtain ⟨inner, rfl⟩ := Layout.exists_inner h
    rw [Layout.isGroup] at hends
    have hsize : 2 ≤ size ('(' :: (inner ++ [')'])) := by
      rw [size_cons, size_append, size_open, size_close]
      omega
    rw [isGroup, Bool.and_assoc, hends, Bool.and_true]
    exact decide_eq_true hsize

private theorem groupLines_cons_cons (opener x y : List Char) (gs : List (List Char)) :
    Layout.groupLines opener (x :: y :: gs) =
      Layout.bracketed opener (x.drop 1).dropLast [')', ','] ++
      Layout.groupLines (clauseIndent ++ ['(']) (y :: gs) := rfl

/-- The groups are opened and closed as their places in the list say. -/
theorem groupLines_eq (hgroup : ∀ g ∈ gs, Layout.isGroup g = true)
    (hlast : i + gs.length = last + 1) :
    groupLines keyword last i gs = pure (Layout.groupLines
      (if i == 0 then keyword ++ [' ', '('] else clauseIndent ++ ['(']) gs) := by
  induction gs generalizing i with
  | nil => rfl
  | cons g gs ih =>
    rw [List.forall_mem_cons] at hgroup
    obtain ⟨inner, rfl⟩ := Layout.exists_inner hgroup.1
    have henclosed := enclosed_eq [] inner
    rw [List.nil_append, size_nil, Nat.zero_add] at henclosed
    rw [List.length_cons] at hlast
    rw [groupLines, henclosed, pure_bind, bracketed_eq, pure_bind, ih hgroup.2 (by omega),
      pure_bind]
    have hinner : (('(' :: (inner ++ [')'])).drop 1).dropLast = inner := by
      rw [List.drop_one, List.tail_cons, List.dropLast_concat]
    cases gs with
    | nil =>
      rw [List.length_nil] at hlast
      rw [if_neg (show ¬ i < last by omega), Layout.groupLines, Layout.groupLines, List.append_nil,
        hinner]
    | cons g gs =>
      rw [List.length_cons] at hlast
      rw [if_pos (show i < last by omega), groupLines_cons_cons, hinner]
      rfl

theorem valueLines_eq (keyword region : List Char) :
    valueLines keyword region = pure (Layout.valueLines keyword region) := by
  rw [valueLines, items_eq, pure_bind, Layout.valueLines, funext isGroup_eq]
  split
  case isFalse => rfl
  case isTrue h =>
    rw [Bool.and_eq_true, List.all_eq_true] at h
    have hlength : 1 ≤ (Sql.items region).length := by
      rw [Nat.succ_le_iff, List.length_pos_iff]
      simpa using h.1
    rw [minus_of_le hlength, pure_bind, groupLines_eq h.2 (by omega)]
    rfl

end Insertion

end SqlRecovery.Bytewise
