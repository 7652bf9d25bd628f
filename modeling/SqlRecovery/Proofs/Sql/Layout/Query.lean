import SqlRecovery.Proofs.Sql.Layout.Clause
import SqlRecovery.Proofs.Sql.Layout.Hanging

/-! Queries that look alike are laid out alike. -/
namespace SqlRecovery.Sql.Layout
open Text

variable {s s' : List Char}

theorem worded_join : ∀ p ∈ joinPhrases, Worded p := by decide

private theorem laidAt_tableLines (hs : Twins s s') {i i' b b' : Nat}
    (h : HitPair s s' "FROM" i i')
    (hb : Onward s s' (i + "FROM".length) (i' + "FROM".length) b b') :
    LaidAt s s' i i' b b' (tableLines (Scan.ofText s) i b) (tableLines (Scan.ofText s') i' b') := by
  have hfrom : Worded "FROM" := by decide
  have hhits := hitChain_hits hs worded_join (h.mark_end hs hfrom).toLevel hb.toLevel hb.start
    hb.start'
  exact laidAt_broken (breaks_of_hitChain hs hhits (Nat.le_add_right _ _) (Nat.le_add_right _ _)) hs
    (h.mark hs hfrom) hb.toLevel

theorem rel_queryLines (hs : Twins s s') :
    Option.Rel (LaidAt s s' 0 0 s.length s'.length) (queryLines (Scan.ofText s))
      (queryLines (Scan.ofText s')) := by
  have hselect : Worded "SELECT" := by decide
  have hfrom : Worded "FROM" := by decide
  have hzero := mark_zero s s'
  have hlength := (mark_length hs).toLevel
  rw [queryLines, queryLines, length_ofText, length_ofText]
  refine rel_bind (rel_find hs hselect hzero.toLevel hlength) fun {i i'} hit => ?_
  have hpair := hit.toHitPair
  have hend := hpair.mark_end hs hselect
  refine rel_bind (rel_find hs hfrom hend.toLevel hlength) fun {j j'} tables => ?_
  have htables := tables.toHitPair
  have hmark := htables.mark hs hfrom
  have hclauses := onward_clausesFrom hs (htables.mark_end hs hfrom)
  have hbefore := laidAt_lineOf (show allBlank [] = true from rfl) hs hzero
    (hpair.mark hs hselect).toLevel hit.start hit.start'
  have hfields := laidAt_headed hs hpair hselect (by decide)
    ⟨hmark, tables.start, tables.start'⟩ laid_modified
  have hjoins := laidAt_tableLines hs htables hclauses
  have hrest := laidAt_clauseLines hs hclauses.toMark
  generalize takeModifier ((Scan.ofText s).slice _ _) _ = taken at hfields ⊢
  generalize takeModifier ((Scan.ofText s').slice _ _) _ = taken' at hfields ⊢
  exact .some (((hbefore.append hfields).append hjoins).append hrest)

end SqlRecovery.Sql.Layout
