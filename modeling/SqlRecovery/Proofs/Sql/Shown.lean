import SqlRecovery.Proofs.Sql.Laid

/-! The lines of a layout as one text, each behind its line feed. -/
namespace SqlRecovery.Sql
open Text Layout

/-- The lines, each behind a line feed. -/
def shown (lines : List Line) : List Char := lines.flatMap ('\n' :: ·)

@[simp] theorem shown_nil : shown [] = [] := rfl

@[simp] theorem shown_cons (line : Line) (lines : List Line) :
    shown (line :: lines) = '\n' :: line ++ shown lines := List.flatMap_cons

@[simp] theorem shown_append (first second : List Line) :
    shown (first ++ second) = shown first ++ shown second := List.flatMap_append

/-- The lines in order are what is shown, but for the line feed in front. -/
theorem joinWith_eq_drop_shown (line : Line) (lines : List Line) :
    joinWith ['\n'] (line :: lines) = (shown (line :: lines)).drop 1 := by
  rw [joinWith_cons, shown_cons]
  rfl

theorem shown_lineOf (indent segment : List Char) :
    shown (lineOf indent segment) = Chunk.print ⟨'\n' :: indent, false, segment⟩ := by
  have hempty : (trim segment).isEmpty = allBlank segment := by
    rw [Bool.eq_iff_iff, List.isEmpty_iff, trim_eq_nil_iff]
  rw [lineOf, hempty, Chunk.print]
  cases allBlank segment with
  | true => rfl
  | false => exact List.append_nil _

private theorem shown_withCommas (lead item : List Char) (items : List (List Char)) :
    shown ((withCommas (item :: items)).map (lead ++ ·)) =
      '\n' :: lead ++ item ++ items.flatMap fun item => ',' :: ('\n' :: lead ++ item) := by
  induction items generalizing item with
  | nil => simp [withCommas]
  | cons next items ih =>
    have hcommas : withCommas (item :: next :: items) =
        (item ++ [',']) :: withCommas (next :: items) := rfl
    rw [hcommas, List.map_cons, shown_cons, ih, List.flatMap_cons]
    simp

theorem shown_commas (lead : List Char) (items : List (List Char)) :
    shown ((withCommas items).map (lead ++ ·)) = listed ('\n' :: lead) ('\n' :: lead) items := by
  cases items with
  | nil => rfl
  | cons item items => exact shown_withCommas lead item items

theorem shown_hanging (head : List Char) (entries : List (List Char)) :
    shown (hanging head entries) = '\n' :: head ++
      listed [' '] ('\n' :: List.replicate (head.length + 1) ' ') entries := by
  match entries with
  | [] => rfl
  | [item] => simp [hanging, withCommas, listed]
  | item :: next :: entries =>
    have hrest := shown_withCommas (List.replicate (head.length + 1) ' ') next entries
    change shown ((head ++ ' ' :: (item ++ [','])) :: (withCommas (next :: entries)).map _) = _
    rw [shown_cons, hrest, listed, List.flatMap_cons]
    simp

/-- Entries below each other are shown as one text with breaks between them. -/
theorem shown_hanging_entries {entries : List (List Char)} (h : entries ≠ []) (head : List Char) :
    shown (hanging head entries) =
      shown [head ++ ' ' ::
        joinWith (',' :: '\n' :: List.replicate (head.length + 1) ' ') entries] := by
  obtain ⟨entry, entries, rfl⟩ := List.exists_cons_of_ne_nil h
  rw [shown_hanging, listed, joinWith_cons, shown_cons, shown_nil, List.append_nil,
    List.append_assoc, List.singleton_append]
  rfl

theorem shown_bracketed (opener inner closing : List Char) :
    shown (bracketed opener inner closing) = '\n' :: opener ++
      listed ('\n' :: listIndent) ('\n' :: listIndent) (items inner) ++
        '\n' :: (clauseIndent ++ closing) := by
  rw [bracketed, shown_append, shown_cons, shown_commas, shown_cons, shown_nil, List.append_nil]

end SqlRecovery.Sql
