import SqlRecovery.Proofs.Sql.Layout.Rows
import SqlRecovery.Proofs.Sql.Layout.Whole
import SqlRecovery.Proofs.Sql.Lead
import SqlRecovery.Proofs.Sql.Levels

/-! The layout of updates and deletions as their parts say: the table, one line for each assignment,
and one line for each condition. The AND of a BETWEEN begins no condition, so it stays on its line. -/
namespace SqlRecovery.Sql.Layout
open Text Clause

/-- The phrases that updates and deletions are searched for. -/
def changeVocabulary : Vocabulary where
  phrases := "SET" :: (clausePhrases ++ conditionPhrases)
  worded := by decide +kernel

private theorem told_clauses : Told changeVocabulary clausePhrases := by decide +kernel

private theorem told_conditions : Told changeVocabulary conditionPhrases := by decide +kernel

private theorem told_alone : ∀ p ∈ "SET" :: clausePhrases, Told changeVocabulary [p] := by
  decide +kernel

/-- A WHERE clause with its conditions. A condition is a clause alone, or with the BETWEEN and the AND
of its range behind it. -/
structure Filter where
  first : Clause changeVocabulary × List (Clause changeVocabulary)
  first_phrase : first.1.phrase = "WHERE"
  first_ranged : Ranged first
  more : List (Clause changeVocabulary × List (Clause changeVocabulary))
  continued : ∀ d ∈ more, Continues d.1 ∧ Ranged d

namespace Filter
variable (f : Filter)

/-- The conditions in a row. -/
def clauses : List (Clause changeVocabulary) := row (f.first :: f.more)

/-- One line for each condition. -/
def lines : List Line := line f.first :: f.more.map (clauseIndent ++ line ·)

private theorem clauses_eq : f.clauses = f.first.1 :: (f.first.2 ++ row f.more) :=
  row_cons f.first f.more

/-- All conditions as one clause with others behind it. -/
private def group : Clause changeVocabulary × List (Clause changeVocabulary) :=
  (f.first.1, f.first.2 ++ row f.more)

private theorem row_group : row [f.group] = f.clauses := by
  rw [f.clauses_eq, row_cons]
  exact List.append_nil _

private theorem not_mem_group : ∀ g ∈ [f.group], ∀ c ∈ g.2, c.phrase ∉ clausePhrases := by
  have hnot : ∀ p ∈ conditionPhrases, p ∉ clausePhrases := by decide
  intro g hg c hc
  obtain rfl := List.mem_singleton.mp hg
  exact hnot _ (phrase_mem_conditions f.first_ranged f.continued c hc)

private theorem group_sublist : ([f.group].map (·.1.phrase)).Sublist clausePhrases := by
  have hphrase : f.group.1.phrase = "WHERE" := f.first_phrase
  rw [List.map_singleton, hphrase]
  decide

/-- A WHERE clause at the end of a statement, one line for each condition. -/
theorem clauseLines_clauses {cs : List (Clause changeVocabulary)} (h : f.clauses <:+ cs) :
    clauseLines (Scan.ofText (written cs)) (place cs f.clauses) = f.lines := by
  have hlines := clauseLines_heads (fun p hp => told_alone p (List.mem_cons_of_mem _ hp))
    (f.row_group.symm ▸ h) f.not_mem_group f.group_sublist
  have hphrase : f.group.1.phrase = "WHERE" := f.first_phrase
  have hconditions : (row (f.first :: f.more) ++ []) <:+ cs := by rwa [List.append_nil]
  have hwhere := whereLines_cuts told_conditions hconditions f.first_phrase f.first_ranged
    f.continued
  rw [f.row_group] at hlines
  rw [List.append_nil, place_nil, ← length_ofText] at hwhere
  rw [hlines, heads, heads, f.row_group, clauseBodies, clauseBodies, hphrase, List.append_nil]
  exact hwhere

/-- WHERE is found where the conditions begin, and no further clause. -/
theorem clauseStarts_clauses :
    clauseStarts (Scan.ofText (written f.clauses)) 0 clausePhrases = [(0, "WHERE")] := by
  have hphrase : f.group.1.phrase = "WHERE" := f.first_phrase
  have hstarts := clauseStarts_heads (fun p hp => told_alone p (List.mem_cons_of_mem _ hp))
    (by decide) f.not_mem_group (f.row_group.symm ▸ List.suffix_refl f.clauses) f.group_sublist
    fun p _ => rfl
  rw [heads, heads, f.row_group, place_self, hphrase] at hstarts
  exact hstarts

end Filter

/-- An assignment of an update. No comma parts it. -/
structure Assignment (x : List Char) : Prop where
  inert : Inert changeVocabulary x
  single : (',', true) ∉ levels .outside x

/-- The parts of an update, with the keywords in any letter case. -/
structure Update where
  keyword : List Char
  keyword_spells : sameLetters "UPDATE".toList keyword = true
  table : List Char
  table_inert : Inert changeVocabulary table
  setting : List Char
  setting_spells : sameLetters "SET".toList setting = true
  assignments : List (List Char)
  assignments_ne : assignments ≠ []
  assignment : ∀ a ∈ assignments, Assignment a
  filter : Filter

/-- The parts of a deletion, with the keywords in any letter case. -/
structure Deletion where
  keyword : List Char
  keyword_spells : sameLetters "DELETE FROM".toList keyword = true
  table : List Char
  table_inert : Inert changeVocabulary table
  filter : Filter

/-- The words in front of the table have no part in the structure. -/
private theorem inert_lead {p : String} (hp : p ∈ ["UPDATE", "DELETE FROM"]) {m table : List Char}
    (hm : sameLetters p.toList m = true) (htable : Inert changeVocabulary table) :
    Inert changeVocabulary (m ++ ' ' :: table) := by
  have hworded : ∀ p ∈ ["UPDATE", "DELETE FROM"], Worded p := by decide
  have hsilent : ∀ p ∈ ["UPDATE", "DELETE FROM"], ∀ q ∈ changeVocabulary.phrases,
      ∀ w ∈ words q.toList, ∀ i < p.toList.length, spelled w (p.toList.drop i) = false := by
    decide +kernel
  exact (Inert.of_spelling (hworded p hp) hm (hsilent p hp)).space htable

section Lead
variable {lead w : List Char}

private theorem updateLines_of_find {t : Scan} {i : Nat} (h : t.find "SET" 0 t.length = some i) :
    updateLines t = some (lineOf [] (t.slice 0 i) ++
      hanging (t.slice i (i + "SET".length))
        (items (t.slice (i + "SET".length) (clausesFrom t (i + "SET".length)))) ++
      clauseLines t (clausesFrom t (i + "SET".length))) := by
  rw [updateLines, h]
  rfl

/-- What stands before SET goes on a line of its own. -/
private theorem updateLines_lead (hlead : Inert changeVocabulary lead) (hw : Neat w)
    (h : (Scan.ofText w).find "SET" 0 w.length = some 0) :
    updateLines (Scan.ofText (lead ++ ' ' :: w)) =
      (updateLines (Scan.ofText w)).map (lead :: ·) := by
  have hset : "SET" ∈ changeVocabulary.phrases := List.mem_cons_self
  have hfound := find_lead hlead hw hset
  have hline := lineOf_of_neat (trim_slice_lead hlead.neat w) hlead.neat []
  rw [h, Option.map_some, ← length_ofText] at hfound
  rw [← length_ofText] at h
  rw [ofText_lead hlead.closed] at hfound hline ⊢
  generalize Scan.ofText (lead ++ [' ']) = before at hfound hline ⊢
  change Scan.find _ _ _ _ = some before.length at hfound
  have hkeyword := Scan.slice_append before (Scan.ofText w) 0 "SET".length
  rw [Nat.add_zero] at hkeyword
  rw [updateLines_of_find hfound, updateLines_of_find h, Option.map_some, slice_self, Nat.zero_add,
    hline, clausesFrom_append, Scan.slice_append, clauseLines_append, hkeyword]
  rfl

/-- What stands before the first clause goes on a line of its own. -/
private theorem deletionLines_lead (hlead : Inert changeVocabulary lead) (hw : Neat w)
    (h : firstStart w (clauseStarts (Scan.ofText w) 0 clausePhrases) = 0) :
    deletionLines (Scan.ofText (lead ++ ' ' :: w)) = lead :: deletionLines (Scan.ofText w) := by
  have hstarts := clauseStarts_lead hlead hw told_clauses.subset
  have hline := lineOf_of_neat (trim_slice_lead hlead.neat w) hlead.neat []
  rw [firstStart, ← length_ofText] at h
  rw [ofText_lead hlead.closed] at hstarts hline ⊢
  rw [deletionLines, clauseLines, hstarts, stop_moved, h, Nat.add_zero, hline, clauseBodies_append,
    deletionLines, clauseLines, h, slice_self]
  rfl

end Lead

namespace Update
variable (u : Update)

/-- The keyword and the table. -/
def lead : List Char := u.keyword ++ ' ' :: u.table

/-- The update on one line. -/
def text : List Char :=
  joinWith [' '] [u.lead, u.setting, joinWith ", ".toList u.assignments, written u.filter.clauses]

/-- What stands between two assignments on lines of their own. -/
def assignmentBreak : List Char := ',' :: '\n' :: List.replicate (u.setting.length + 1) ' '

/-- The update on several lines. -/
def layout : List Char :=
  joinWith ['\n'] (u.lead :: (u.setting ++ ' ' :: joinWith u.assignmentBreak u.assignments) ::
    u.filter.lines)

private theorem inert_assignments : Inert changeVocabulary (joinWith ", ".toList u.assignments) :=
  .list u.assignments_ne fun a ha => (u.assignment a ha).inert

private theorem items_assignments : items (joinWith ", ".toList u.assignments) = u.assignments := by
  refine items_list u.assignments_ne fun a ha => ?_
  obtain ⟨hinert, hsingle⟩ := u.assignment a ha
  exact ⟨hinert.neat, hinert.closed, hsingle⟩

/-- SET and the assignments as a clause. -/
private def opening : Clause changeVocabulary :=
  ⟨"SET", by decide, u.setting, u.setting_spells, joinWith ", ".toList u.assignments,
    u.inert_assignments⟩

private def parts : List (Clause changeVocabulary) := u.opening :: u.filter.clauses

private theorem text_eq : u.text = u.lead ++ ' ' :: written u.parts := by
  rw [parts, u.filter.clauses_eq, written_cons, ← u.filter.clauses_eq, text, joinWith_cons]
  change _ = u.lead ++ ' ' :: (u.setting ++ ' ' :: joinWith _ u.assignments ++ _)
  simp

private theorem find_opening : (Scan.ofText (written u.parts)).find "SET" 0
    (written u.parts).length = some 0 := by
  have hopening : Scan.find _ "SET" (place u.parts u.parts) _ = some (place u.parts u.parts) :=
    find_place (told_alone "SET" (by decide)) (List.suffix_refl u.parts)
  rwa [place_self] at hopening

/-- The conditions begin where WHERE does. -/
private theorem clausesFrom_parts :
    clausesFrom (Scan.ofText (written u.parts)) "SET".length = place u.parts u.filter.clauses := by
  have hstart := first_behind told_clauses (List.suffix_refl u.parts) (Nat.le_refl _)
  have hwhere : u.filter.clauses <:+ u.parts := List.suffix_cons _ _
  have hmem : u.filter.first.1.phrase ∈ clausePhrases := by
    rw [u.filter.first_phrase]
    decide
  rw [u.filter.clauses_eq] at hwhere
  have hfound := first_place told_clauses hwhere (Nat.le_refl _)
    (Nat.le_of_lt (Nat.lt_of_lt_of_le (place_lt hwhere) (place_le _ _))) hmem
  rw [← u.filter.clauses_eq] at hfound
  change Scan.first _ _ (place u.parts u.parts + "SET".length) _ = Scan.first _ _ _ _ at hstart
  rw [place_self, Nat.zero_add] at hstart
  rw [clausesFrom, length_ofText, hstart, hfound]
  rfl

/-- SET and the assignments, and one line for each condition. -/
private theorem updateLines_parts : updateLines (Scan.ofText (written u.parts)) =
    some (hanging u.setting u.assignments ++ u.filter.lines) := by
  have hparts : u.parts <:+ u.parts := List.suffix_refl _
  have hkeyword := slice_spelling hparts
  have hbody := trim_slice_body hparts
  have hfilter : u.filter.clauses <:+ u.parts := List.suffix_cons _ _
  change Scan.slice _ (place u.parts u.parts) (place u.parts u.parts + "SET".length) =
    u.setting at hkeyword
  change trim (Scan.slice _ (place u.parts u.parts + "SET".length)
    (place u.parts u.filter.clauses)) = joinWith ", ".toList u.assignments at hbody
  have hfound := u.find_opening
  rw [← length_ofText] at hfound
  rw [place_self, Nat.zero_add] at hkeyword hbody
  rw [updateLines_of_find hfound, Nat.zero_add, u.clausesFrom_parts, slice_self, hkeyword,
    ← items_trim, hbody, u.items_assignments, u.filter.clauseLines_clauses hfilter]
  rfl

private theorem inert_lead : Inert changeVocabulary u.lead :=
  Layout.inert_lead (by decide) u.keyword_spells u.table_inert

private theorem updateLines_text : updateLines (Scan.ofText u.text) =
    some (u.lead :: (hanging u.setting u.assignments ++ u.filter.lines)) := by
  have hneat : Neat (written u.parts) := neat_written _ _
  rw [u.text_eq, updateLines_lead u.inert_lead hneat u.find_opening, u.updateLines_parts]
  rfl

end Update

namespace Deletion
variable (d : Deletion)

/-- The keyword and the table. -/
def lead : List Char := d.keyword ++ ' ' :: d.table

/-- The deletion on one line. -/
def text : List Char := joinWith [' '] [d.lead, written d.filter.clauses]

/-- The deletion on several lines. -/
def layout : List Char := joinWith ['\n'] (d.lead :: d.filter.lines)

private theorem inert_lead : Inert changeVocabulary d.lead :=
  Layout.inert_lead (by decide) d.keyword_spells d.table_inert

private theorem neat_clauses : Neat (written d.filter.clauses) := by
  rw [d.filter.clauses_eq]
  exact neat_written _ _

private theorem text_eq : d.text = d.lead ++ ' ' :: written d.filter.clauses := by
  rw [text, joinWith_cons]
  simp

private theorem deletionLines_text :
    deletionLines (Scan.ofText d.text) = d.lead :: d.filter.lines := by
  have hlines := d.filter.clauseLines_clauses (List.suffix_refl d.filter.clauses)
  rw [place_self] at hlines
  rw [d.text_eq, deletionLines_lead d.inert_lead d.neat_clauses
    (by rw [d.filter.clauseStarts_clauses]; rfl), deletionLines, hlines]

end Deletion

/-- An update or a deletion that is put together from its parts, in whatever letter case its keywords
are, is laid out as its parts say. -/
theorem format_change (u : Update) (d : Deletion) :
    format .update (String.ofList u.text) = String.ofList u.layout ∧
      format .delete (String.ofList d.text) = String.ofList d.layout := by
  constructor
  · have hneat : Neat u.text := by
      rw [u.text_eq]
      exact u.inert_lead.neat.space (neat_written _ _)
    have hlines : format .update (String.ofList u.text) = _ :=
      format_of_lines hneat u.updateLines_text
    rw [hlines, shown_cons, shown_append, shown_hanging_entries u.assignments_ne, ← shown_append,
      ← shown_cons, Update.layout, joinWith_eq_drop_shown]
    rfl
  · have hneat : Neat d.text := by
      rw [d.text_eq]
      exact d.inert_lead.neat.space d.neat_clauses
    have hlines : format .delete (String.ofList d.text) = _ :=
      format_of_lines hneat (congrArg some d.deletionLines_text)
    rw [hlines, Deletion.layout, joinWith_eq_drop_shown]

private theorem inert_nested_change : ∀ x ∈ ["set_t".toList, "a".toList, "1".toList,
    "(b and 2)".toList, "x = ' or '".toList], Inert changeVocabulary x := by decide +kernel

/-- Conditions with BETWEEN, and with AND and OR in parentheses and literals. -/
def nestedFilter : Filter where
  first := (⟨"WHERE", by decide, "Where".toList, by decide, "a".toList,
      inert_nested_change _ (by simp)⟩,
    [⟨"BETWEEN", by decide, "between".toList, by decide, "1".toList,
        inert_nested_change _ (by simp)⟩,
      ⟨"AND", by decide, "and".toList, by decide, "(b and 2)".toList,
        inert_nested_change _ (by simp)⟩])
  first_phrase := rfl
  first_ranged := by decide
  more := [(⟨"AND", by decide, "And".toList, by decide, "x = ' or '".toList,
    inert_nested_change _ (by simp)⟩, [])]
  continued := by decide

/-- An update with a comma in a literal. -/
def nestedUpdate : Update where
  keyword := "update".toList
  keyword_spells := by decide
  table := "set_t".toList
  table_inert := inert_nested_change _ (by simp)
  setting := "set".toList
  setting_spells := by decide
  assignments := ["a = f(1, 2)".toList, "b = ','".toList]
  assignments_ne := List.cons_ne_nil _ _
  assignment := by
    have hinert : ∀ x ∈ ["a = f(1, 2)".toList, "b = ','".toList], Inert changeVocabulary x ∧
        (',', true) ∉ levels .outside x := by decide +kernel
    exact fun x hx => ⟨(hinert x hx).1, (hinert x hx).2⟩
  filter := nestedFilter

/-- A deletion by the same conditions. -/
def nestedDeletion : Deletion where
  keyword := "delete from".toList
  keyword_spells := by decide
  table := "set_t".toList
  table_inert := inert_nested_change _ (by simp)
  filter := nestedFilter

theorem format_change_nested :
    format .update (String.ofList ("update set_t set a = f(1, 2), b = ',' ".toList ++
      "Where a between 1 and (b and 2) And x = ' or '".toList)) =
      String.ofList (joinWith ['\n'] ["update set_t".toList, "set a = f(1, 2),".toList,
        "    b = ','".toList, "Where a between 1 and (b and 2)".toList,
        "  And x = ' or '".toList]) ∧
    format .delete (String.ofList ("delete from set_t ".toList ++
      "Where a between 1 and (b and 2) And x = ' or '".toList)) =
      String.ofList (joinWith ['\n'] ["delete from set_t".toList,
        "Where a between 1 and (b and 2)".toList, "  And x = ' or '".toList]) := by
  have hupdate : nestedUpdate.text = "update set_t set a = f(1, 2), b = ',' ".toList ++
      "Where a between 1 and (b and 2) And x = ' or '".toList ∧
      nestedUpdate.layout = joinWith ['\n'] ["update set_t".toList, "set a = f(1, 2),".toList,
        "    b = ','".toList, "Where a between 1 and (b and 2)".toList,
        "  And x = ' or '".toList] := by decide +kernel
  have hdeletion : nestedDeletion.text = "delete from set_t ".toList ++
      "Where a between 1 and (b and 2) And x = ' or '".toList ∧
      nestedDeletion.layout = joinWith ['\n'] ["delete from set_t".toList,
        "Where a between 1 and (b and 2)".toList, "  And x = ' or '".toList] := by decide +kernel
  have h := format_change nestedUpdate nestedDeletion
  rwa [hupdate.1, hupdate.2, hdeletion.1, hdeletion.2] at h

end SqlRecovery.Sql.Layout
