import SqlRecovery.Proofs.Sql.Balance
import SqlRecovery.Proofs.Sql.Lead
import SqlRecovery.Proofs.Sql.Layout.Whole

/-! The layout of insertions as their parts say: the columns below each other, and the values of each
record below each other, in parentheses. A value may be anything that is balanced, with commas,
parentheses and keywords inside. -/
namespace SqlRecovery.Sql.Layout
open Text Clause

/-- The phrases that insertions are searched for. -/
def insertionVocabulary : Vocabulary where
  phrases := ["INTO", "VALUES"]
  worded := by decide

private theorem told_insertion : ∀ p ∈ ["INTO", "VALUES"], Told insertionVocabulary [p] := by
  decide +kernel

/-- A column or a value. It is on one line and balanced, and no comma parts it. -/
structure Entry (x : List Char) : Prop where
  neat : Neat x
  balanced : Balanced x
  single : (',', true) ∉ levels .outside x

instance (x : List Char) : Decidable (Entry x) :=
  decidable_of_iff (Neat x ∧ Balanced x ∧ ∀ l ∈ levels .outside x, l ≠ (',', true))
    ⟨fun h => ⟨h.1, h.2.1, fun hmem => h.2.2 _ hmem rfl⟩,
      fun h => ⟨h.1, h.2, fun _ hl heq => h.3 (heq ▸ hl)⟩⟩

/-- A list of entries in parentheses. -/
structure Listing where
  entries : List (List Char)
  entries_ne : entries ≠ []
  entry : ∀ x ∈ entries, Entry x

namespace Listing
variable (l : Listing)

/-- The list on one line, without its parentheses. -/
def inner : List Char := joinWith ", ".toList l.entries

/-- The list on one line. -/
def text : List Char := bracket l.inner

/-- The list on several lines, behind the parenthesis that opens it. -/
def opened : List Char :=
  '\n' :: listIndent ++ joinWith (',' :: '\n' :: listIndent) l.entries ++
    '\n' :: (clauseIndent ++ [')'])

theorem balanced_inner : Balanced l.inner :=
  balanced_list l.entries_ne fun x hx => (l.entry x hx).balanced

theorem neat_inner : Neat l.inner :=
  joinWith_induction (fun _ _ hx hy => hx.append hy.comma) l.entries_ne
    fun x hx => (l.entry x hx).neat

theorem items_inner : items l.inner = l.entries := by
  refine items_list l.entries_ne fun x hx => ?_
  obtain ⟨hneat, hbalanced, hsingle⟩ := l.entry x hx
  exact ⟨hneat, hbalanced.closed, hsingle⟩

theorem inert_text (v : Vocabulary) : Inert v l.text := inert_bracket l.balanced_inner l.neat_inner

theorem item_text : Item l.text := item_bracket l.balanced_inner l.neat_inner

theorem isGroup_text : isGroup l.text = true := by
  rw [isGroup, text, bracket, ← List.cons_append, List.getLast?_concat]
  rfl

theorem dropLast_text : (l.text.drop 1).dropLast = l.inner := List.dropLast_concat

theorem inside_inner : inside l.inner = l.opened := by
  obtain ⟨x, xs, hentries⟩ := List.exists_cons_of_ne_nil l.entries_ne
  rw [inside, l.items_inner, opened, hentries, listed, joinWith_cons]
  rfl

end Listing

private theorem insertionLines_of_find {t : Scan} {i j : Nat}
    (hi : t.find "INTO" 0 t.length = some i)
    (hj : t.find "VALUES" (i + "INTO".length) t.length = some j) : insertionLines t =
      some (targetLines (trim (t.slice 0 (i + "INTO".length)))
          (trim (t.slice (i + "INTO".length) j)) ++
        valueLines (t.slice j (j + "VALUES".length))
          (trim (t.slice (j + "VALUES".length) t.length))) := by
  rw [insertionLines, hi]
  change (t.find "VALUES" (i + "INTO".length) t.length >>= _) = _
  rw [hj]
  rfl

/-- What stands before INTO goes on the line of the table. -/
private theorem insertionLines_lead {lead w : List Char} {j : Nat}
    (hlead : Inert insertionVocabulary lead) (hw : Neat w)
    (hi : (Scan.ofText w).find "INTO" 0 w.length = some 0)
    (hj : (Scan.ofText w).find "VALUES" "INTO".length w.length = some j) :
    let t := Scan.ofText w
    insertionLines (Scan.ofText (lead ++ ' ' :: w)) =
      some (targetLines (trim (lead ++ ' ' :: t.slice 0 "INTO".length))
          (trim (t.slice "INTO".length j)) ++
        valueLines (t.slice j (j + "VALUES".length))
          (trim (t.slice (j + "VALUES".length) t.length))) := by
  have hinto : "INTO" ∈ insertionVocabulary.phrases := List.mem_cons_self
  have hfirst := find_lead hlead hw hinto
  have hstart := slice_lead lead w
  have hkeyword := slice_append (s := lead ++ ' ' :: w)
    (Nat.zero_le (Scan.ofText (lead ++ [' '])).length) (Nat.le_add_right _ "INTO".length)
  rw [hi, Option.map_some, ← length_ofText, Nat.add_zero] at hfirst
  rw [hstart] at hkeyword
  rw [← length_ofText] at hj
  rw [ofText_lead hlead.closed w] at hfirst hkeyword ⊢
  generalize Scan.ofText (lead ++ [' ']) = before at hfirst hkeyword ⊢
  have hsecond := Scan.find_append before (Scan.ofText w) "VALUES" "INTO".length
    (Scan.ofText w).length
  rw [hj, ← List.length_append] at hsecond
  have hslice := Scan.slice_append before (Scan.ofText w) 0 "INTO".length
  rw [Nat.add_zero] at hslice
  rw [hslice, List.append_assoc, List.singleton_append] at hkeyword
  dsimp only
  rw [insertionLines_of_find hfirst hsecond, ← hkeyword, Scan.slice_append, Nat.add_assoc,
    Scan.slice_append, List.length_append, Scan.slice_append]

/-- The parts of an insertion, with the keywords in any letter case. -/
structure Insertion where
  keyword : List Char
  keyword_spells : sameLetters "INSERT".toList keyword = true
  into : List Char
  into_spells : sameLetters "INTO".toList into = true
  table : List Char
  table_inert : Inert insertionVocabulary table
  table_plain : '(' ∉ table
  columns : Listing
  values : List Char
  values_spells : sameLetters "VALUES".toList values = true
  rows : List Listing
  rows_ne : rows ≠ []

namespace Insertion
variable (n : Insertion)

/-- The insertion on one line. -/
def text : List Char :=
  joinWith [' '] [n.keyword, n.into, n.table, n.columns.text, n.values,
    joinWith ", ".toList (n.rows.map Listing.text)]

/-- The insertion on several lines. -/
def layout : List Char :=
  joinWith [' '] [n.keyword, n.into, n.table, '(' :: n.columns.opened] ++
    '\n' :: (n.values ++ [' ', '('] ++
      joinWith (',' :: '\n' :: (clauseIndent ++ ['('])) (n.rows.map Listing.opened))

private theorem inert_keyword : Inert insertionVocabulary n.keyword := by
  have hsilent : ∀ q ∈ insertionVocabulary.phrases, ∀ w ∈ words q.toList,
      ∀ i < "INSERT".toList.length, spelled w ("INSERT".toList.drop i) = false := by decide +kernel
  exact .of_spelling (by decide) n.keyword_spells hsilent

/-- INTO with the table and the columns as a clause. -/
private def target : Clause insertionVocabulary :=
  ⟨"INTO", by decide, n.into, n.into_spells, n.table ++ ' ' :: n.columns.text,
    n.table_inert.space (n.columns.inert_text _)⟩

private theorem inert_rows :
    Inert insertionVocabulary (joinWith ", ".toList (n.rows.map Listing.text)) := by
  refine .list (mt List.map_eq_nil_iff.mp n.rows_ne) fun x hx => ?_
  obtain ⟨l, -, rfl⟩ := List.mem_map.mp hx
  exact l.inert_text _

private theorem items_rows :
    items (joinWith ", ".toList (n.rows.map Listing.text)) = n.rows.map Listing.text := by
  refine items_list (mt List.map_eq_nil_iff.mp n.rows_ne) fun x hx => ?_
  obtain ⟨l, -, rfl⟩ := List.mem_map.mp hx
  exact l.item_text

/-- VALUES with the records as a clause. -/
private def records : Clause insertionVocabulary :=
  ⟨"VALUES", by decide, n.values, n.values_spells, joinWith ", ".toList (n.rows.map Listing.text),
    n.inert_rows⟩

private def parts : List (Clause insertionVocabulary) := [n.target, n.records]

private theorem text_eq : n.text = n.keyword ++ ' ' :: written n.parts := by
  rw [parts, written_cons, written_singleton, text, joinWith_cons]
  change _ = n.keyword ++ ' ' :: (n.into ++ ' ' :: (n.table ++ ' ' :: n.columns.text) ++
    ' ' :: (n.values ++ ' ' :: joinWith _ _))
  simp

/-- The columns are found in the target. -/
private theorem shown_target (head : List Char) :
    shown (targetLines head (n.table ++ ' ' :: n.columns.text)) =
      '\n' :: joinWith [' '] [head, n.table, '(' :: n.columns.opened] := by
  have hplain : ∀ c ∈ n.table ++ [' '], (c != '(') = true := by
    intro c hc
    rw [bne_iff_ne]
    rintro rfl
    rcases List.mem_append.mp hc with hc | hc
    · exact n.table_plain hc
    · cases List.mem_singleton.mp hc
  have hcolumns : n.table ++ ' ' :: n.columns.text =
      (n.table ++ [' ']) ++ '(' :: (n.columns.inner ++ [')']) := List.append_cons _ _ _
  have hhas : hasColumns (n.table ++ ' ' :: n.columns.text) = true := by
    rw [hasColumns, hcolumns, ← List.cons_append, ← List.append_assoc, List.getLast?_concat]
    simp
  have hspace : allBlank [' '] = true := rfl
  have hne : n.table.isEmpty = false := List.isEmpty_eq_false_iff.mpr n.table_inert.neat.nonempty
  rw [shown_columns hhas, hcolumns, List.takeWhile_append_of_pos hplain,
    List.takeWhile_cons_of_neg (by decide), List.append_nil, trim_append_of_allBlank hspace,
    n.table_inert.neat.trimmed, List.dropWhile_append_of_pos hplain,
    List.dropWhile_cons_of_neg (by decide), List.drop_one, List.tail_cons, List.dropLast_concat,
    n.columns.inside_inner, spaced, hne, if_neg Bool.false_ne_true, joinWith_cons]
  simp

/-- The records are found behind VALUES. -/
private theorem shown_records (keyword : List Char) :
    shown (valueLines keyword (joinWith ", ".toList (n.rows.map Listing.text))) =
      '\n' :: (keyword ++ [' ', '('] ++
        joinWith (',' :: '\n' :: (clauseIndent ++ ['('])) (n.rows.map Listing.opened)) := by
  have hgrouped : isGrouped (joinWith ", ".toList (n.rows.map Listing.text)) = true := by
    rw [isGrouped, n.items_rows, Bool.and_eq_true, Bool.not_eq_true', List.isEmpty_eq_false_iff,
      List.all_map, List.all_eq_true]
    exact ⟨mt List.map_eq_nil_iff.mp n.rows_ne, fun l _ => l.isGroup_text⟩
  obtain ⟨r, rs, hrows⟩ := List.exists_cons_of_ne_nil n.rows_ne
  rw [valueLines_of_isGrouped hgrouped, n.items_rows, hrows, List.map_cons, List.map_cons,
    joinWith_cons]
  have hlines := shown_groupLines (keyword ++ [' ']) r.text (rs.map Listing.text)
  rw [r.dropLast_text, r.inside_inner, List.flatMap_map] at hlines
  have hrest : (rs.flatMap fun l => ',' :: ('\n' :: clauseIndent ++
      '(' :: inside ((Listing.text l).drop 1).dropLast)) =
      (rs.map Listing.opened).flatMap (',' :: '\n' :: (clauseIndent ++ ['(']) ++ ·) := by
    rw [List.flatMap_map]
    congr 1
    funext l
    rw [l.dropLast_text, l.inside_inner]
    rfl
  rw [hrest] at hlines
  simpa using hlines

private theorem records_suffix : [n.records] <:+ n.parts := List.suffix_cons _ _

private theorem find_target : (Scan.ofText (written n.parts)).find "INTO" 0
    (written n.parts).length = some 0 := by
  have htarget : Scan.find _ "INTO" (place n.parts n.parts) _ = some (place n.parts n.parts) :=
    find_place (told_insertion "INTO" (by decide)) (List.suffix_refl n.parts)
  rwa [place_self] at htarget

private theorem find_records : (Scan.ofText (written n.parts)).find "VALUES" "INTO".length
    (written n.parts).length = some (place n.parts [n.records]) := by
  have hvalues : Told insertionVocabulary ["VALUES"] := told_insertion "VALUES" (by decide)
  have hbehind := find_behind hvalues (List.suffix_refl n.parts) (Nat.le_refl _)
  have hplace : Scan.find _ "VALUES" (place n.parts [n.records]) _ = _ :=
    find_place hvalues n.records_suffix
  change Scan.find _ "VALUES" (place n.parts n.parts + "INTO".length) _ = _ at hbehind
  rw [place_self, Nat.zero_add] at hbehind
  exact hbehind.trans hplace

/-- The slices between the places where INTO and VALUES are found. -/
private theorem slices : let t := Scan.ofText (written n.parts)
    let j := place n.parts [n.records]
    t.slice 0 "INTO".length = n.into ∧
      trim (t.slice "INTO".length j) = n.table ++ ' ' :: n.columns.text ∧
      t.slice j (j + "VALUES".length) = n.values ∧
      trim (t.slice (j + "VALUES".length) (written n.parts).length) =
        joinWith ", ".toList (n.rows.map Listing.text) := by
  have hparts := List.suffix_refl n.parts
  have hinto : Scan.slice _ (place n.parts n.parts) (place n.parts n.parts + "INTO".length) =
      n.into := slice_spelling hparts
  have htarget : trim (Scan.slice _ (place n.parts n.parts + "INTO".length)
      (place n.parts [n.records])) = _ := trim_slice_body hparts
  rw [place_self, Nat.zero_add] at hinto htarget
  exact ⟨hinto, htarget, slice_spelling n.records_suffix, trim_slice_body n.records_suffix⟩

/-- The searches find the parts of the insertion. -/
private theorem insertionLines_text : insertionLines (Scan.ofText n.text) =
    some (targetLines (n.keyword ++ ' ' :: n.into) (n.table ++ ' ' :: n.columns.text) ++
      valueLines n.values (joinWith ", ".toList (n.rows.map Listing.text))) := by
  have hneat : Neat (written n.parts) := neat_written _ _
  have hhead : Neat (n.keyword ++ ' ' :: n.into) :=
    n.inert_keyword.neat.space (neat_of_sameLetters (by decide) n.into_spells)
  obtain ⟨hinto, htarget, hvalues, hrecords⟩ := n.slices
  rw [n.text_eq, insertionLines_lead n.inert_keyword hneat n.find_target n.find_records, hinto,
    htarget, hvalues, length_ofText, hrecords, hhead.trimmed]

end Insertion

/-- An insertion that is put together from its parts, in whatever letter case its keywords are, is
laid out as its parts say. -/
theorem format_insertion (n : Insertion) :
    format .insert (String.ofList n.text) = String.ofList n.layout := by
  have hneat : Neat n.text := by
    rw [n.text_eq]
    exact n.inert_keyword.neat.space (neat_written _ _)
  have hshown := congrArg₂ (· ++ ·) (n.shown_target (n.keyword ++ ' ' :: n.into))
    (n.shown_records n.values)
  rw [← shown_append] at hshown
  have hlines := n.insertionLines_text
  cases hcases : targetLines (n.keyword ++ ' ' :: n.into) (n.table ++ ' ' :: n.columns.text) ++
      valueLines n.values (joinWith ", ".toList (n.rows.map Listing.text)) with
  | nil =>
    rw [hcases] at hshown
    cases hshown
  | cons line lines =>
    rw [hcases] at hlines hshown
    have hformat : format .insert (String.ofList n.text) = _ := format_of_lines hneat hlines
    rw [hformat, hshown, Insertion.layout, joinWith_cons, joinWith_cons]
    simp

private theorem entry_nested : ∀ x ∈ ["id".toList, "name".toList, "1".toList, "f(2, (values))".toList,
    "') into ('".toList], Entry x := by decide +kernel

/-- Two records, with commas, parentheses and keywords in their values. -/
def nestedRecords : Insertion where
  keyword := "insert".toList
  keyword_spells := by decide
  into := "Into".toList
  into_spells := by decide
  table := "a.values".toList
  table_inert := by decide +kernel
  table_plain := by decide
  columns := ⟨["id".toList, "name".toList], List.cons_ne_nil _ _, by
    simp only [List.forall_mem_cons]
    exact ⟨entry_nested _ (by simp), entry_nested _ (by simp), List.forall_mem_nil _⟩⟩
  values := "values".toList
  values_spells := by decide
  rows := [⟨["1".toList, "f(2, (values))".toList], List.cons_ne_nil _ _, by
    simp only [List.forall_mem_cons]
    exact ⟨entry_nested _ (by simp), entry_nested _ (by simp), List.forall_mem_nil _⟩⟩,
    ⟨["') into ('".toList], List.cons_ne_nil _ _, by
      simp only [List.forall_mem_cons]
      exact ⟨entry_nested _ (by simp), List.forall_mem_nil _⟩⟩]
  rows_ne := List.cons_ne_nil _ _

theorem format_insertion_nested : format .insert (String.ofList
    ("insert Into a.values (id, name) values (1, f(2, (values))), (') into (')".toList)) =
    String.ofList (joinWith ['\n'] ["insert Into a.values (".toList, "    id,".toList,
      "    name".toList, "  )".toList, "values (".toList, "    1,".toList,
      "    f(2, (values))".toList, "  ),".toList, "  (".toList, "    ') into ('".toList,
      "  )".toList]) := by
  have htext : nestedRecords.text =
      "insert Into a.values (id, name) values (1, f(2, (values))), (') into (')".toList := by
    decide +kernel
  have hlayout : nestedRecords.layout = joinWith ['\n'] ["insert Into a.values (".toList,
      "    id,".toList, "    name".toList, "  )".toList, "values (".toList, "    1,".toList,
      "    f(2, (values))".toList, "  ),".toList, "  (".toList, "    ') into ('".toList,
      "  )".toList] := by decide +kernel
  rw [← htext, ← hlayout]
  exact format_insertion nestedRecords

end SqlRecovery.Sql.Layout
