import SqlRecovery.Proofs.Sql.Layout.Clause
import SqlRecovery.Proofs.Sql.Layout.Hanging

/-! Updates and deletions that look alike are laid out alike. -/
namespace SqlRecovery.Sql.Layout
open Text

variable {s s' : List Char}

theorem rel_updateLines (hs : Twins s s') :
    Option.Rel (LaidAt s s' 0 0 s.length s'.length) (updateLines (Scan.ofText s))
      (updateLines (Scan.ofText s')) := by
  have hset : Worded "SET" := by decide
  have hzero := mark_zero s s'
  rw [updateLines, updateLines, length_ofText, length_ofText]
  refine rel_bind (rel_find hs hset hzero.toLevel (mark_length hs).toLevel) fun {i i'} hit => ?_
  have hpair := hit.toHitPair
  have hmark := hpair.mark hs hset
  have hclauses := onward_clausesFrom hs (hpair.mark_end hs hset)
  have hbefore := laidAt_lineOf (show allBlank [] = true from rfl) hs hzero hmark.toLevel hit.start
    hit.start'
  have hlist := laidAt_headed hs hpair hset (by decide) hclauses laid_hanging
  have hrest := laidAt_clauseLines hs hclauses.toMark
  exact .some ((hbefore.append hlist).append hrest)

theorem laidAt_deletionLines (hs : Twins s s') :
    LaidAt s s' 0 0 s.length s'.length (deletionLines (Scan.ofText s))
      (deletionLines (Scan.ofText s')) :=
  laidAt_clauseLines hs (mark_zero s s')

end SqlRecovery.Sql.Layout
