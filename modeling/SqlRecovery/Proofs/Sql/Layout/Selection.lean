import SqlRecovery.Proofs.Sql.Layout.Rows
import SqlRecovery.Proofs.Sql.Layout.Whole
import SqlRecovery.Proofs.Sql.Levels

/-! The layout of a query as its parts say: one line for each field, for the tables, for each join,
for each condition and for each further clause. What stands in parentheses and literals may be
anything. -/
namespace SqlRecovery.Sql.Layout
open Text Clause

/-- The phrases that a query is searched for: SELECT, FROM, the joins, the clauses from WHERE to
LIMIT, and AND, OR and BETWEEN in conditions. -/
def queryVocabulary : Vocabulary where
  phrases := "SELECT" :: "FROM" :: (joinPhrases ++ clausePhrases ++ conditionPhrases)
  worded := by decide +kernel

/-- The words that may follow SELECT. -/
def modifiers : List String := ["DISTINCT", "ALL"]

/-- A field of a query. No comma parts it, and it mentions no modifier. -/
structure Field (x : List Char) : Prop where
  inert : Inert queryVocabulary x
  single : (',', true) ∉ levels .outside x
  unmodified : ∀ p ∈ modifiers, ¬ Mentions p.toList x

instance (x : List Char) : Decidable (Field x) :=
  decidable_of_iff (Inert queryVocabulary x ∧ (',', true) ∉ levels .outside x ∧
      ∀ p ∈ modifiers, ¬ Mentions p.toList x)
    ⟨fun h => ⟨h.1, h.2.1, h.2.2⟩, fun h => ⟨h.1, h.2, h.3⟩⟩

/-- The parts of a query, with the keywords in any letter case. -/
structure Selection where
  keyword : List Char
  keyword_spells : sameLetters "SELECT".toList keyword = true
  modifier : Option (List Char)
  modifier_spells : ∀ m ∈ modifier, ∃ p ∈ modifiers, sameLetters p.toList m = true
  fields : List (List Char)
  fields_ne : fields ≠ []
  field : ∀ f ∈ fields, Field f
  tables : Clause queryVocabulary
  tables_phrase : tables.phrase = "FROM"
  joins : List (Clause queryVocabulary)
  joins_phrase : ∀ j ∈ joins, j.phrase ∈ joinPhrases
  clauses : List (Clause queryVocabulary × List (Clause queryVocabulary))
  ordered : Ordered clauses

namespace Selection
variable (q : Selection)

/-- SELECT and its modifier. -/
def head : List Char := q.keyword ++ q.modifier.elim [] (' ' :: ·)

/-- The query on one line. -/
def text : List Char :=
  joinWith [' '] ((q.head ++ ' ' :: joinWith ", ".toList q.fields) ::
    (q.tables :: (q.joins ++ row q.clauses)).map Clause.text)

/-- What stands between two fields on lines of their own. -/
def fieldBreak : List Char := ',' :: '\n' :: List.replicate (q.head.length + 1) ' '

/-- The query on several lines. -/
def layout : List Char :=
  joinWith ['\n'] ((q.head ++ ' ' :: joinWith q.fieldBreak q.fields) :: q.tables.text ::
    (q.joins.map indented ++ q.clauses.flatMap fun g => g.1.text :: g.2.map indented))

private theorem exists_fields : ∃ f fs, q.fields = f :: fs ∧ Field f ∧ ∀ g ∈ fs, Field g := by
  obtain ⟨f, fs, hfields⟩ := List.exists_cons_of_ne_nil q.fields_ne
  have hfield := q.field
  rw [hfields, List.forall_mem_cons] at hfield
  exact ⟨f, fs, hfields, hfield⟩

private theorem inert_fields : Inert queryVocabulary (joinWith ", ".toList q.fields) :=
  .list q.fields_ne fun f hf => (q.field f hf).inert

private theorem items_fields : items (joinWith ", ".toList q.fields) = q.fields := by
  refine items_list q.fields_ne fun f hf => ?_
  obtain ⟨hinert, hsingle, -⟩ := q.field f hf
  exact ⟨hinert.neat, hinert.closed, hsingle⟩

section Modifier
variable {m : List Char} {p : String}

private theorem worded_modifier : ∀ p ∈ modifiers, Worded p := by decide

private theorem isWord_modifier (hp : p ∈ modifiers) : IsWord p.toList := by
  have hword : ∀ p ∈ modifiers, p.toList ≠ [] ∧ p.toList.all Char.isAlpha = true := by decide
  obtain ⟨hne, hall⟩ := hword p hp
  exact ⟨hne, List.all_eq_true.mp hall⟩

/-- A modifier has no part in the structure of a query. -/
private theorem inert_modifier (hp : p ∈ modifiers) (hm : sameLetters p.toList m = true) :
    Inert queryVocabulary m := by
  have hsilent : ∀ p ∈ modifiers, ∀ k ∈ queryVocabulary.phrases, ∀ w ∈ words k.toList,
      ∀ i < p.toList.length, spelled w (p.toList.drop i) = false := by decide +kernel
  exact .of_spelling (worded_modifier p hp) hm (hsilent p hp)

/-- The fields do not begin with a modifier. -/
private theorem modifierLength_fields : modifierLength (joinWith ", ".toList q.fields) = 0 := by
  obtain ⟨f, fs, hfields, hf, -⟩ := q.exists_fields
  have hspelled : ∀ p ∈ modifiers, spelled p.toList (joinWith ", ".toList q.fields) = false := by
    intro p hp
    have hword := isWord_modifier hp
    have hno : ¬ spelled p.toList f = true := fun h =>
      hf.unmodified p hp ((standsAt_zero.mpr h).mentions hword.1)
    rw [hfields, joinWith_cons]
    cases fs with
    | nil => rwa [List.flatMap_nil, List.append_nil, ← Bool.not_eq_true]
    | cons g fs =>
      change spelled _ (f ++ ',' :: _) = false
      rwa [spelled_word_append hword.2 rfl, ← Bool.not_eq_true]
  rw [modifierLength, startsWithWord_eq, startsWithWord_eq, hspelled "DISTINCT" (by decide),
    hspelled "ALL" (by decide)]
  rfl

private theorem modifierLength_modifier (hp : p ∈ modifiers) (hm : sameLetters p.toList m = true)
    (x : List Char) : modifierLength (m ++ ' ' :: x) = m.length := by
  have hspelled : ∀ k ∈ modifiers, spelled k.toList (m ++ ' ' :: x) = spelled k.toList p.toList := by
    intro k hk
    rw [spelled_word_append (isWord_modifier hk).2 rfl, spelled_congr hm]
  have hlength : ∀ p ∈ modifiers, modifierLength p.toList = p.toList.length := by decide
  rw [length_of_sameLetters hm, ← hlength p hp, modifierLength, modifierLength, startsWithWord_eq,
    startsWithWord_eq, startsWithWord_eq, startsWithWord_eq, hspelled "DISTINCT" (by decide),
    hspelled "ALL" (by decide)]

end Modifier

/-- What stands between SELECT and FROM. -/
private def listing : List Char :=
  q.modifier.elim (joinWith ", ".toList q.fields) (· ++ ' ' :: joinWith ", ".toList q.fields)

private theorem inert_listing : Inert queryVocabulary q.listing := by
  have hspells := q.modifier_spells
  rw [listing]
  cases hm : q.modifier with
  | none => exact q.inert_fields
  | some m =>
    obtain ⟨p, hp, hm⟩ := hspells m hm
    exact (inert_modifier hp hm).space q.inert_fields

/-- SELECT takes over its modifier, and leaves the fields. -/
private theorem takeModifier_listing : (takeModifier q.keyword q.listing).1 = q.head ∧
    items (takeModifier q.keyword q.listing).2 = q.fields := by
  have hspells := q.modifier_spells
  rw [listing, head]
  cases hm : q.modifier with
  | none =>
    rw [Option.elim_none, Option.elim_none, List.append_nil,
      takeModifier_of_zero q.modifierLength_fields]
    exact ⟨rfl, q.items_fields⟩
  | some m =>
    obtain ⟨p, hp, hm⟩ := hspells m hm
    have hlength := modifierLength_modifier hp hm (joinWith ", ".toList q.fields)
    have hpos : 0 < m.length := List.length_pos_iff.mpr (inert_modifier hp hm).neat.nonempty
    have hspace : allBlank [' '] = true := rfl
    rw [Option.elim_some, Option.elim_some, takeModifier_of_pos (by omega), hlength, List.take_left,
      List.drop_left, items_trimStart]
    exact ⟨rfl, (items_of_allBlank_append hspace _).trans q.items_fields⟩

/-- SELECT and the fields as a clause. -/
private def opening : Clause queryVocabulary :=
  ⟨"SELECT", by decide, q.keyword, q.keyword_spells, q.listing, q.inert_listing⟩

/-- The query as a row of clauses. -/
private def parts : List (Clause queryVocabulary) :=
  q.opening :: q.tables :: (q.joins ++ row q.clauses)

private theorem text_opening : q.opening.text = q.head ++ ' ' :: joinWith ", ".toList q.fields := by
  change q.keyword ++ ' ' :: q.listing = _
  rw [listing, head]
  cases q.modifier with
  | none => rw [Option.elim_none, Option.elim_none, List.append_nil]
  | some m =>
    rw [Option.elim_some, Option.elim_some, List.append_assoc]
    rfl

private theorem text_eq : q.text = written q.parts := by
  rw [text, written, parts, List.map_cons (a := q.opening), text_opening]

private theorem told_joins : Told queryVocabulary joinPhrases := by decide +kernel

private theorem told_clauses : Told queryVocabulary clausePhrases := by decide +kernel

private theorem told_conditions : Told queryVocabulary conditionPhrases := by decide +kernel

private theorem told_alone : ∀ p ∈ "SELECT" :: "FROM" :: clausePhrases, Told queryVocabulary [p] := by
  decide +kernel

/-- The query from FROM on. -/
private def behind : List (Clause queryVocabulary) := q.tables :: (q.joins ++ row q.clauses)

private theorem behind_suffix : q.behind <:+ q.parts := List.suffix_cons _ _

private theorem find_opening : (Scan.ofText (written q.parts)).find "SELECT" 0
    (written q.parts).length = some (place q.parts q.parts) := by
  have hopening : Scan.find _ "SELECT" (place q.parts q.parts) _ = some (place q.parts q.parts) :=
    find_place (told_alone "SELECT" (by decide)) (List.suffix_refl q.parts)
  rwa [place_self] at hopening ⊢

private theorem find_tables : (Scan.ofText (written q.parts)).find "FROM"
    (place q.parts q.parts + "SELECT".length) (written q.parts).length =
      some (place q.parts q.behind) := by
  have hfrom : Told queryVocabulary ["FROM"] := told_alone "FROM" (by decide)
  have htables := find_place (q.tables_phrase ▸ hfrom) q.behind_suffix
  rw [q.tables_phrase] at htables
  exact (find_behind hfrom (List.suffix_refl q.parts) (Nat.le_refl _)).trans htables

private theorem queryLines_of_find {t : Scan} {i j : Nat}
    (hi : t.find "SELECT" 0 t.length = some i)
    (hj : t.find "FROM" (i + "SELECT".length) t.length = some j) : queryLines t =
      let taken := takeModifier (t.slice i (i + "SELECT".length))
        (trim (t.slice (i + "SELECT".length) j))
      let clauses := clausesFrom t (j + "FROM".length)
      some (lineOf [] (t.slice 0 i) ++ hanging taken.1 (items taken.2) ++ tableLines t j clauses ++
        clauseLines t clauses) := by
  rw [queryLines, hi]
  change (t.find "FROM" (i + "SELECT".length) t.length >>= _) = _
  rw [hj, Option.bind_eq_bind, Option.bind_some]
  generalize takeModifier (t.slice i _) _ = taken
  rfl

/-- The searches find the parts of the query. -/
private theorem queryLines_parts : queryLines (Scan.ofText (written q.parts)) =
    some (hanging q.head q.fields ++ (q.tables.text :: q.joins.map indented) ++
      q.clauses.flatMap fun g => g.1.text :: g.2.map indented) := by
  have hjoins : ∀ p ∈ joinPhrases, p ∉ clausePhrases := by decide
  have hbehind := q.behind_suffix
  have hrest : (q.joins ++ row q.clauses) <:+ q.parts := suffix_of_cons hbehind
  have hclauses := clausesFrom_place told_clauses hrest q.ordered.order
    (fun j hj => hjoins _ (q.joins_phrase j hj)) (first_behind told_clauses hbehind (Nat.le_refl _))
  have htables := tableLines_place told_joins hbehind q.tables_phrase q.joins_phrase
  have hlines := clauseLines_place told_conditions
    (fun p hp => told_alone p (List.mem_cons_of_mem _ (List.mem_cons_of_mem _ hp)))
    ((List.suffix_append _ _).trans hrest) q.ordered
  have hkeyword : Scan.slice _ (place q.parts q.parts) (place q.parts q.parts + "SELECT".length) =
      q.keyword := slice_spelling (List.suffix_refl q.parts)
  have hlisting : trim (Scan.slice _ (place q.parts q.parts + "SELECT".length)
      (place q.parts q.behind)) = q.listing := trim_slice_body (List.suffix_refl q.parts)
  obtain ⟨hhead, hitems⟩ := q.takeModifier_listing
  have hopening := q.find_opening
  have hfrom := q.find_tables
  rw [← length_ofText] at hopening hfrom
  rw [q.tables_phrase] at hclauses
  rw [List.cons_append] at htables
  rw [queryLines_of_find hopening hfrom, hkeyword, hlisting, place_self,
    slice_self]
  dsimp only
  rw [hhead, hitems, behind, hclauses, htables, hlines]
  rfl

end Selection

/-- A query that is put together from its parts, in whatever letter case its keywords are, is laid
out as its parts say. -/
theorem format_selection (q : Selection) :
    format .query (String.ofList q.text) = String.ofList q.layout := by
  have hneat : Neat q.text := by
    rw [q.text_eq]
    exact neat_written _ _
  have hlines := q.queryLines_parts
  rw [List.append_assoc] at hlines
  obtain ⟨line, lines, hcons⟩ := List.exists_cons_of_ne_nil (List.append_ne_nil_of_right_ne_nil
    (hanging q.head q.fields) (List.cons_ne_nil q.tables.text (q.joins.map indented ++
      q.clauses.flatMap fun g => g.1.text :: g.2.map indented)))
  have hfound : linesOf .query (Scan.ofText (written q.parts)) = some (line :: lines) :=
    hlines.trans (congrArg some hcons)
  rw [format, String.toList_ofList, hneat.collapsed, q.text_eq, layOut_of_lines hfound, ← hcons,
    shown_append, shown_hanging_entries q.fields_ne, ← shown_append, Selection.layout,
    joinWith_eq_drop_shown]
  rfl

private theorem inert_nested : ∀ x ∈ ["t".toList, "u on (x and y)".toList, "e in (1, 2)".toList,
    "f = ', limit 1'".toList, "g".toList], Inert queryVocabulary x := by decide +kernel

/-- A query with keywords and commas in parentheses and literals. -/
def nested : Selection where
  keyword := "select".toList
  keyword_spells := by decide
  modifier := some "distinct".toList
  modifier_spells := by decide
  fields := ["a".toList, "max(b, (select c from d))".toList]
  fields_ne := List.cons_ne_nil _ _
  field := by decide +kernel
  tables := ⟨"FROM", by decide, "from".toList, by decide, "t".toList, inert_nested _ (by simp)⟩
  tables_phrase := rfl
  joins := [⟨"LEFT JOIN", by decide, "Left Join".toList, by decide, "u on (x and y)".toList,
    inert_nested _ (by simp)⟩]
  joins_phrase := by decide
  clauses := [(⟨"WHERE", by decide, "where".toList, by decide, "e in (1, 2)".toList,
      inert_nested _ (by simp)⟩,
    [⟨"OR", by decide, "or".toList, by decide, "f = ', limit 1'".toList, inert_nested _ (by simp)⟩]),
    (⟨"ORDER BY", by decide, "order by".toList, by decide, "g".toList, inert_nested _ (by simp)⟩, [])]
  ordered := ⟨by decide, by decide⟩

theorem format_selection_nested : format .query (String.ofList
    ("select distinct a, max(b, (select c from d)) from t Left Join u on (x and y) ".toList ++
      "where e in (1, 2) or f = ', limit 1' order by g".toList)) =
    String.ofList (joinWith ['\n'] ["select distinct a,".toList,
      "                max(b, (select c from d))".toList, "from t".toList,
      "  Left Join u on (x and y)".toList, "where e in (1, 2)".toList, "  or f = ', limit 1'".toList,
      "order by g".toList]) := by
  have htext : nested.text =
      "select distinct a, max(b, (select c from d)) from t Left Join u on (x and y) ".toList ++
        "where e in (1, 2) or f = ', limit 1' order by g".toList := by decide +kernel
  have hlayout : nested.layout = joinWith ['\n'] ["select distinct a,".toList,
      "                max(b, (select c from d))".toList, "from t".toList,
      "  Left Join u on (x and y)".toList, "where e in (1, 2)".toList, "  or f = ', limit 1'".toList,
      "order by g".toList] := by decide +kernel
  rw [← htext, ← hlayout]
  exact format_selection nested

end SqlRecovery.Sql.Layout
