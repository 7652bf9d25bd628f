import SqlRecovery.Proofs.Sql.Layout.Insertion
import SqlRecovery.Proofs.Sql.Layout.Query
import SqlRecovery.Proofs.Sql.Layout.Update

/-! The lines of a whole statement, whatever its kind. A search sees the same in them as in the
statement that they were made from. -/
namespace SqlRecovery.Sql.Layout
open Text

variable {kind : Kind} {s s' : List Char}

/-- Texts that look alike are laid out alike, whatever the kind. -/
theorem rel_linesOf (kind : Kind) (hs : Twins s s') :
    Option.Rel (LaidAt s s' 0 0 s.length s'.length) (linesOf kind (Scan.ofText s))
      (linesOf kind (Scan.ofText s')) := by
  cases kind with
  | query => exact rel_queryLines hs
  | insert => exact rel_insertionLines hs
  | update => exact rel_updateLines hs
  | delete => exact .some (laidAt_deletionLines hs)
  | other => exact .none

theorem laid_whole {lines lines' : List Line}
    (h : LaidAt s s' 0 0 s.length s'.length lines lines') :
    Laid false false s s' (shown lines) (shown lines') := by
  have hlaid := h.laid
  rwa [slice_length, slice_length] at hlaid

theorem layOut_of_lines {line : Line} {lines : List Line}
    (h : linesOf kind (Scan.ofText s) = some (line :: lines)) :
    layOut kind s = (shown (line :: lines)).drop 1 := by
  rw [layOut, h]
  exact joinWith_eq_drop_shown line lines

/-- A statement that is on one line is written in its lines. -/
theorem format_of_lines {line : Line} {lines : List Line} (hs : Neat s)
    (h : linesOf kind (Scan.ofText s) = some (line :: lines)) :
    format kind (String.ofList s) = String.ofList ((shown (line :: lines)).drop 1) := by
  rw [format, String.toList_ofList, hs.collapsed, layOut_of_lines h]

/-- A statement on one line is cut into the pieces that its lines show. -/
theorem keys_shown {lines : List Line} (hs : Tight s)
    (h : linesOf kind (Scan.ofText s) = some lines) :
    keys false (shown lines) = keys false s := by
  have hself := rel_linesOf kind (⟨hs, hs, rfl⟩ : Twins s s)
  rw [h] at hself
  cases hself with
  | some hlaid =>
    obtain ⟨cs, -, hcut, -, -, hprinted, -⟩ := laid_whole hlaid
    rw [← hprinted, hcut.keys_printed hs]

/-- A layout of a text on one line looks like the text. -/
theorem alike_layOut (kind : Kind) (hs : Tight s) : Alike (layOut kind s) s := by
  cases h : linesOf kind (Scan.ofText s) with
  | none =>
    rw [layOut, h]
    rfl
  | some lines =>
    cases lines with
    | nil =>
      rw [layOut, h]
      rfl
    | cons line lines =>
      have hdrop : keys false ((shown (line :: lines)).drop 1) = keys false (shown (line :: lines)) := by
        rw [shown_cons, List.cons_append, keys_cons_of_blank (c := '\n') rfl, List.drop_one,
          List.tail_cons]
      rw [Alike, layOut_of_lines h, hdrop, keys_shown hs h]

/-- A layout looks like the statement that it was made from. -/
theorem alike_format (kind : Kind) (sql : String) :
    Alike (format kind sql).toList sql.toList := by
  rw [format, String.toList_ofList, Alike, alike_layOut kind (tight_collapse _), keys_collapse]

end SqlRecovery.Sql.Layout
