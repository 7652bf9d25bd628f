import SqlRecovery.Proofs.Sql.Layout.Whole

/-! A statement that is laid out already stays as it is. On one line, its layout and the statement
look alike, so the same layout is found for both, out of the same characters. -/
namespace SqlRecovery.Sql.Layout
open Text

section
variable {kind : Kind} {s : List Char}

private theorem collapse_drop_shown (line : Line) (lines : List Line) :
    collapse ((shown (line :: lines)).drop 1) = collapse (shown (line :: lines)) := by
  refine collapse_congr (a := true) (b := true) ?_
  rw [shown_cons, List.cons_append, glyphs_cons_of_blank (c := '\n') rfl]
  rfl

/-- If a text on one line is laid out in these lines, it is laid out in them again once they are
put on one line. -/
private theorem linesOf_collapse_shown {line : Line} {lines : List Line} (hs : Tight s)
    (h : linesOf kind (Scan.ofText s) = some (line :: lines)) :
    ∃ line' lines', linesOf kind (Scan.ofText (collapse (shown (line :: lines)))) =
      some (line' :: lines') ∧ shown (line' :: lines') = shown (line :: lines) := by
  -- searches see the same in the text and in what is shown
  have halike : Alike s (collapse (shown (line :: lines))) := by
    rw [Alike, keys_collapse, keys_shown hs h]
  have htight := tight_collapse (shown (line :: lines))
  have hsecond := rel_linesOf kind ⟨hs, htight, halike⟩
  rw [h] at hsecond
  generalize hlines : linesOf kind _ = o at hsecond
  cases hsecond with
  | @some _ again hlaid =>
    obtain ⟨ds, ds', hcut, hcut', hlike, hprinted, hprinted'⟩ := laid_whole hlaid
    have hglyphs : unmark (glyphs false (printed ds)) =
        unmark (glyphs false (collapse (shown (line :: lines)))) := by
      rw [hprinted, unmark_glyphs_collapse]
    have hshown : shown again = shown (line :: lines) := by
      rw [← hprinted, ← hprinted', printed_eq hcut hcut' hlike hs htight hglyphs]
    cases again with
    | nil => cases hshown
    | cons line' lines' => exact ⟨line', lines', rfl, hshown⟩

/-- A layout that is put on one line and laid out again is the same layout. -/
theorem layOut_collapse_layOut (kind : Kind) (hself : collapse s = s) :
    layOut kind (collapse (layOut kind s)) = layOut kind s := by
  have hs := tight_collapse s
  rw [hself] at hs
  cases h : linesOf kind (Scan.ofText s) with
  | none =>
    have hout : layOut kind s = s := by rw [layOut, h]
    rw [hout, hself, hout]
  | some lines =>
    cases lines with
    | nil =>
      have hout : layOut kind s = s := by rw [layOut, h]
      rw [hout, hself, hout]
    | cons line lines =>
      obtain ⟨line', lines', hagain, hshown⟩ := linesOf_collapse_shown hs h
      rw [layOut_of_lines h, collapse_drop_shown, layOut_of_lines hagain, hshown]

end

/-- A statement that is laid out already stays as it is. -/
theorem format_format (kind : Kind) (sql : String) :
    format kind (format kind sql) = format kind sql := by
  have hlayout := layOut_collapse_layOut kind (collapse_collapse sql.toList)
  rw [format, format, String.toList_ofList, hlayout]

end SqlRecovery.Sql.Layout
