import SqlRecovery.Marker.Config
import SqlRecovery.Proofs.Marker.Matching
import SqlRecovery.Proofs.Text.Occurrence

/-! The grammar of the markers, said without a matcher: where a marker stands, and which text it
carries. The markers of a configuration with plain words accept exactly this grammar. -/
namespace SqlRecovery.Marker
open Text

/-- What stands before the token: the sentinel and blanks, or nothing if the pattern has none. -/
inductive Lead : Option (List Char) → List Char → Prop
  | none : Lead none []
  | sentinel {sentinel mark gap : List Char} (hmark : SameFolded sentinel mark)
    (hgap : allBlank gap = true) : Lead (some sentinel) (mark ++ gap)

/-- Blanks stand here, and behind them a severity as a whole word in any letter case. -/
def SeverityFollows (severities : List (List Char)) (s : List Char) : Prop :=
  ∃ gap severity word behind, s = gap ++ (word ++ behind) ∧ gap ≠ [] ∧ allBlank gap = true ∧
    severity ∈ severities ∧ SameFolded severity word ∧ startsWord behind = false

/-- The text of a marker ends at the end of the line, or where a severity follows. -/
def Ends (severities : List (List Char)) (s : List Char) : Prop :=
  s = [] ∨ SeverityFollows severities s

namespace Pattern

/-- The marker stands at the beginning of the text, and `rest` is what follows its token. -/
def Stands (p : Pattern) (s rest : List Char) : Prop :=
  ∃ lead word, Lead p.sentinel lead ∧ SameFolded p.token word ∧ s = lead ++ (word ++ rest)

/-- The marker stands somewhere in the line. -/
def Occurs (p : Pattern) (line : List Char) : Prop := ∃ s rest, s <:+ line ∧ p.Stands s rest

/-- The text is what the leftmost marker of the line carries: without blanks at its ends, what stands
behind the token and its blanks, up to the first place where it may end. -/
def Captures (p : Pattern) (line text : List Char) : Prop :=
  ∃ s rest carried tail, LongestEnd (fun u => ∃ r, p.Stands u r) line s ∧ p.Stands s rest ∧
    trimStart rest = carried ++ tail ∧ LongestEnd (Ends p.severities) (trimStart rest) tail ∧
    text = trim carried

/-- A pattern of plain words: its token begins with a character that is not blank, and its severities
are words of ASCII letters. -/
structure Plain (p : Pattern) : Prop where
  token : ∃ c ∈ p.token.head?, isBlank c = false
  severities : ∀ severity ∈ p.severities, Alphabetic severity

end Pattern

/-- What stands behind all blanks begins with no blank. -/
private theorem trimStart_gap_append {gap part word : List Char} (hgap : allBlank gap = true)
    (hpart : ∃ c ∈ part.head?, isBlank c = false) (hword : SameFolded part word) (rest : List Char) :
    trimStart (gap ++ (word ++ rest)) = word ++ rest := by
  obtain ⟨c, hc, hblank⟩ := hpart
  have hhead := isBlank_head?_of_sameFolded hword
  rw [Option.mem_def.mp hc, Option.map_some, hblank] at hhead
  rw [trimStart_of_allBlank_append hgap]
  cases word with
  | nil => cases hhead
  | cons d word => exact trimStart_cons_of_not_blank (Option.some.inj hhead) (word ++ rest)

/-- Every end of a line is on one line. -/
private theorem not_mem_of_suffix {c : Char} {s t : List Char} (hs : c ∉ s) (h : t <:+ s) : c ∉ t :=
  fun ht => hs (h.subset ht)

namespace Pattern

variable {p : Pattern} {s text : List Char}

private theorem plain_head {w : List Char} (hw : Alphabetic w) : ∃ c ∈ w.head?, isBlank c = false := by
  have hhead := List.head?_eq_some_head hw.nonempty
  exact ⟨_, hhead, not_blank_of_isAlpha (hw.letters _ (List.head_mem hw.nonempty))⟩

theorem endsHere_iff (hp : ∀ severity ∈ p.severities, Alphabetic severity) :
    p.endsHere s = true ↔ Ends p.severities s := by
  cases s with
  | nil => exact iff_of_true rfl (.inl rfl)
  | cons c s =>
    rw [endsHere, Bool.and_eq_true, Bool.and_eq_true, List.any_eq_true]
    constructor
    · rintro ⟨⟨hc, -⟩, severity, hseverity, hhere⟩
      obtain ⟨word, behind, hword, hsplit, hbehind⟩ := (severityHere_iff (hp _ hseverity)).mp hhere
      refine .inr ⟨(c :: s).takeWhile isBlank, severity, word, behind, ?_, by simp [hc],
        List.all_takeWhile, hseverity, hword, hbehind⟩
      rw [← hsplit, trimStart, List.takeWhile_append_dropWhile]
    · rintro (h | ⟨gap, severity, word, behind, hsplit, hne, hgap, hseverity, hword, hbehind⟩)
      · cases h
      · have hletters := hp severity hseverity
        have hstart := trimStart_gap_append hgap (plain_head hletters) hword behind
        rw [← hsplit] at hstart
        rw [hstart]
        refine ⟨⟨?_, ?_⟩, severity, hseverity,
          (severityHere_iff hletters).mpr ⟨word, behind, hword, rfl, hbehind⟩⟩
        · cases gap with
          | nil => exact absurd rfl hne
          | cons d gap =>
            obtain ⟨rfl, -⟩ := List.cons.inj hsplit
            exact (Bool.and_eq_true_iff.mp hgap).1
        · cases word with
          | nil => exact absurd rfl (hword.ne_nil hletters.nonempty)
          | cons d word =>
            exact isWordChar_of_mem_of_sameFolded hletters hword d List.mem_cons_self

/-- On one line, the text reaches to the first place where it may end. -/
theorem carried_eq_some_iff (hline : '\n' ∉ s) : p.carried s = some text ↔
    ∃ tail, s = text ++ tail ∧ LongestEnd (p.endsHere · = true) s tail := by
  induction s generalizing text with
  | nil =>
    rw [carried]
    constructor
    · rintro ⟨⟩
      exact ⟨[], rfl, longestEnd_self rfl⟩
    · rintro ⟨tail, hsplit, -⟩
      rw [(List.nil_eq_append_iff.mp hsplit).1]
  | cons c s ih =>
    rw [carried, beq_eq_false_iff_ne.mpr (List.ne_of_not_mem_cons hline).symm,
      if_neg Bool.false_ne_true]
    cases hend : p.endsHere (c :: s) with
    | true =>
      rw [if_pos rfl]
      constructor
      · rintro ⟨⟩
        exact ⟨c :: s, rfl, longestEnd_self hend⟩
      · rintro ⟨tail, hsplit, htail⟩
        rw [htail.eq_self hend] at hsplit
        rw [List.self_eq_append_left.mp hsplit]
    | false =>
      have hnot : ¬ p.endsHere (c :: s) = true := by rw [hend]; exact Bool.false_ne_true
      have hrest := List.not_mem_of_not_mem_cons hline
      rw [if_neg Bool.false_ne_true, Option.map_eq_some_iff]
      constructor
      · rintro ⟨text, htext, rfl⟩
        obtain ⟨tail, rfl, htail⟩ := (ih hrest).mp htext
        exact ⟨tail, rfl, (longestEnd_cons_iff hnot).mpr htail⟩
      · rintro ⟨tail, hsplit, htail⟩
        have htail := (longestEnd_cons_iff hnot).mp htail
        rcases List.cons_eq_append_iff.mp hsplit with ⟨-, rfl⟩ | ⟨text, rfl, rfl⟩
        · exact absurd htail.isSuffix.length_le (Nat.not_succ_le_self _)
        · exact ⟨text, (ih hrest).mpr ⟨tail, rfl, htail⟩, rfl⟩

/-- On one line, a text is carried from any place. -/
theorem carried_isSome (hline : '\n' ∉ s) : (p.carried s).isSome := by
  induction s with
  | nil => rfl
  | cons c s ih =>
    rw [carried, beq_eq_false_iff_ne.mpr (List.ne_of_not_mem_cons hline).symm,
      if_neg Bool.false_ne_true]
    split
    · rfl
    · rw [Option.isSome_map]
      exact ih (List.not_mem_of_not_mem_cons hline)

theorem behindToken_eq_some_iff (hline : '\n' ∉ s) : p.behindToken s = some text ↔
    ∃ word rest, SameFolded p.token word ∧ s = word ++ rest ∧
      p.carried (trimStart rest) = some text := by
  have hbehind : ∀ word rest, s = word ++ rest →
      behindBlanks p.carried rest = p.carried (trimStart rest) := by
    rintro word rest rfl
    apply behindBlanks_eq
    intro t ht hnone
    have hsuffix := ((trimStart_suffix_self t).trans ht).trans (List.suffix_append word rest)
    have hsome := carried_isSome (p := p) (not_mem_of_suffix hline hsuffix)
    rw [hnone] at hsome
    cases hsome
  rw [behindToken, behindPart_eq_some_iff]
  refine exists_congr fun word => exists_congr fun rest => and_congr_right' ?_
  exact and_congr_right fun hsplit => by rw [hbehind word rest hsplit]

/-- A token that begins with a blank is not looked for, so all blanks in front of it are skipped. -/
private theorem behindBlanks_behindToken (hp : p.Plain) (hline : '\n' ∉ s) :
    behindBlanks p.behindToken s = p.behindToken (trimStart s) := by
  apply behindBlanks_eq
  intro t ht hnone
  cases htext : p.behindToken t with
  | none => rfl
  | some text =>
    obtain ⟨word, rest, hword, rfl, -⟩ :=
      (behindToken_eq_some_iff (not_mem_of_suffix hline ht)).mp htext
    have hstart := trimStart_gap_append (show allBlank [] = true from rfl) hp.token hword rest
    rw [List.nil_append] at hstart
    rw [hstart, htext] at hnone
    cases hnone

theorem Stands.suffix {rest : List Char} (h : p.Stands s rest) : rest <:+ s := by
  obtain ⟨lead, word, -, -, rfl⟩ := h
  exact (List.suffix_append word rest).trans (List.suffix_append lead _)

theorem stands_iff_of_none (hs : p.sentinel = none) {rest : List Char} :
    p.Stands s rest ↔ ∃ word, SameFolded p.token word ∧ s = word ++ rest := by
  rw [Stands, hs]
  constructor
  · rintro ⟨lead, word, hlead, hword, rfl⟩
    cases hlead
    exact ⟨word, hword, rfl⟩
  · rintro ⟨word, hword, rfl⟩
    exact ⟨[], word, .none, hword, rfl⟩

/-- The blanks behind a sentinel are all those that stand there. -/
theorem stands_iff_of_some (hp : p.Plain) {sentinel : List Char} (hs : p.sentinel = some sentinel)
    {rest : List Char} : p.Stands s rest ↔ ∃ mark t, SameFolded sentinel mark ∧ s = mark ++ t ∧
      ∃ word, SameFolded p.token word ∧ trimStart t = word ++ rest := by
  rw [Stands, hs]
  constructor
  · rintro ⟨lead, word, hlead, hword, rfl⟩
    cases hlead with
    | @sentinel _ mark gap hmark hgap =>
      exact ⟨mark, gap ++ (word ++ rest), hmark, List.append_assoc _ _ _, word, hword,
        trimStart_gap_append hgap hp.token hword rest⟩
  · rintro ⟨mark, t, hmark, rfl, word, hword, hsplit⟩
    refine ⟨mark ++ t.takeWhile isBlank, word, .sentinel hmark List.all_takeWhile, hword, ?_⟩
    rw [← hsplit, List.append_assoc, trimStart, List.takeWhile_append_dropWhile]

/-- A pattern matches where its marker stands, and gives what is carried behind the blanks that follow
the token. -/
theorem here_eq_some_iff (hp : p.Plain) (hline : '\n' ∉ s) : p.here s = some text ↔
    ∃ rest, p.Stands s rest ∧ p.carried (trimStart rest) = some text := by
  rw [here.eq_def]
  cases hs : p.sentinel with
  | none =>
    simp only [stands_iff_of_none hs, behindToken_eq_some_iff hline]
    constructor
    · rintro ⟨word, rest, hword, hsplit, htext⟩
      exact ⟨rest, ⟨word, hword, hsplit⟩, htext⟩
    · rintro ⟨rest, ⟨word, hword, hsplit⟩, htext⟩
      exact ⟨word, rest, hword, hsplit, htext⟩
  | some sentinel =>
    have hbehind : ∀ mark t, s = mark ++ t → (behindBlanks p.behindToken t = some text ↔
        ∃ word rest, SameFolded p.token word ∧ trimStart t = word ++ rest ∧
          p.carried (trimStart rest) = some text) := by
      rintro mark t rfl
      have ht := List.suffix_append mark t
      rw [behindBlanks_behindToken hp (not_mem_of_suffix hline ht),
        behindToken_eq_some_iff (not_mem_of_suffix hline ((trimStart_suffix_self t).trans ht))]
    simp only [stands_iff_of_some hp hs, behindPart_eq_some_iff]
    constructor
    · rintro ⟨mark, t, hmark, hsplit, h⟩
      obtain ⟨word, rest, hword, hrest, htext⟩ := (hbehind mark t hsplit).mp h
      exact ⟨rest, ⟨mark, t, hmark, hsplit, word, hword, hrest⟩, htext⟩
    · rintro ⟨rest, ⟨mark, t, hmark, hsplit, word, hword, hrest⟩, htext⟩
      exact ⟨mark, t, hmark, hsplit, (hbehind mark t hsplit).mpr ⟨word, rest, hword, hrest, htext⟩⟩

theorem here_isSome_iff (hp : p.Plain) (hline : '\n' ∉ s) :
    (p.here s).isSome = true ↔ ∃ rest, p.Stands s rest := by
  rw [Option.isSome_iff_exists]
  constructor
  · rintro ⟨text, htext⟩
    obtain ⟨rest, hrest, -⟩ := (here_eq_some_iff hp hline).mp htext
    exact ⟨rest, hrest⟩
  · rintro ⟨rest, hrest⟩
    have hsuffix := (trimStart_suffix_self rest).trans hrest.suffix
    obtain ⟨text, htext⟩ :=
      Option.isSome_iff_exists.mp (carried_isSome (p := p) (not_mem_of_suffix hline hsuffix))
    exact ⟨text, (here_eq_some_iff hp hline).mpr ⟨rest, hrest, htext⟩⟩

theorem capture_isSome_iff (hp : p.Plain) {line : List Char} (hline : '\n' ∉ line) :
    (p.capture line).isSome = true ↔ p.Occurs line := by
  rw [capture, Option.isSome_map, leftmost_isSome_iff]
  refine exists_congr fun s => ?_
  rw [exists_and_left]
  exact and_congr_right fun hs => here_isSome_iff hp (not_mem_of_suffix hline hs)

/-- A pattern captures where its marker stands first. -/
theorem capture_eq_some_iff_carried (hp : p.Plain) {line : List Char} (hline : '\n' ∉ line) :
    p.capture line = some text ↔ ∃ s rest carried, LongestEnd (fun u => ∃ r, p.Stands u r) line s ∧
      p.Stands s rest ∧ p.carried (trimStart rest) = some carried ∧ text = trim carried := by
  have hplace : ∀ s, LongestEnd (fun u => (p.here u).isSome = true) line s ↔
      LongestEnd (fun u => ∃ r, p.Stands u r) line s := fun s =>
    longestEnd_congr fun u hu => here_isSome_iff hp (not_mem_of_suffix hline hu)
  rw [capture, Option.map_eq_some_iff]
  constructor
  · rintro ⟨carried, hcarried, rfl⟩
    obtain ⟨s, hs, hhere⟩ := leftmost_eq_some_iff.mp hcarried
    obtain ⟨rest, hrest, htext⟩ :=
      (here_eq_some_iff hp (not_mem_of_suffix hline hs.isSuffix)).mp hhere
    exact ⟨s, rest, carried, (hplace s).mp hs, hrest, htext, rfl⟩
  · rintro ⟨s, rest, carried, hs, hrest, htext, rfl⟩
    have hhere := (here_eq_some_iff hp (not_mem_of_suffix hline hs.isSuffix)).mpr ⟨rest, hrest, htext⟩
    exact ⟨carried, leftmost_eq_some_iff.mpr ⟨s, (hplace s).mpr hs, hhere⟩, rfl⟩

/-- A pattern captures from a line what its grammar says. -/
theorem capture_eq_some_iff (hp : p.Plain) {line : List Char} (hline : '\n' ∉ line) :
    p.capture line = some text ↔ p.Captures line text := by
  have hend : ∀ body tail, LongestEnd (p.endsHere · = true) body tail ↔
      LongestEnd (Ends p.severities) body tail := fun body tail =>
    longestEnd_congr fun u _ => endsHere_iff hp.severities
  have hbody : ∀ {s rest : List Char}, s <:+ line → p.Stands s rest → '\n' ∉ trimStart rest :=
    fun hs hrest => not_mem_of_suffix hline
      (((trimStart_suffix_self _).trans hrest.suffix).trans hs)
  rw [capture_eq_some_iff_carried hp hline]
  constructor
  · rintro ⟨s, rest, carried, hs, hrest, htext, htrim⟩
    obtain ⟨tail, hsplit, htail⟩ := (carried_eq_some_iff (hbody hs.isSuffix hrest)).mp htext
    exact ⟨s, rest, carried, tail, hs, hrest, hsplit, (hend _ _).mp htail, htrim⟩
  · rintro ⟨s, rest, carried, tail, hs, hrest, hsplit, htail, htrim⟩
    exact ⟨s, rest, carried, hs, hrest, (carried_eq_some_iff (hbody hs.isSuffix hrest)).mpr
      ⟨tail, hsplit, (hend _ _).mpr htail⟩, htrim⟩

/-- Every line that begins with the token has a marker without a sentinel. -/
theorem occurs_of_prefix (hs : p.sentinel = none) {line : List Char}
    (h : p.token <+: trimStart line) : p.Occurs line := by
  obtain ⟨rest, hrest⟩ := h
  exact ⟨trimStart line, rest, trimStart_suffix_self line, [], p.token, hs ▸ .none, rfl, hrest.symm⟩

end Pattern

theorem Markers.looseParameters?_eq_some_iff {m : Markers} {line text : List Char} :
    m.looseParameters? line = some text ↔ m.looseParameters = true ∧
      m.parametersToken <+: trimStart line ∧ m.loosePattern.capture line = some text := by
  rw [looseParameters?, Option.ite_none_right_eq_some, Bool.and_eq_true,
    List.isPrefixOf_iff_prefix, and_assoc]

/-- The loose form has a marker in every line that begins with the token. -/
theorem Markers.looseParameters?_isSome_iff {m : Markers} (hp : m.loosePattern.Plain)
    {line : List Char} (hline : '\n' ∉ line) : (m.looseParameters? line).isSome = true ↔
      m.looseParameters = true ∧ m.parametersToken <+: trimStart line := by
  constructor
  · intro hsome
    obtain ⟨text, htext⟩ := Option.isSome_iff_exists.mp hsome
    obtain ⟨hon, hstart, -⟩ := looseParameters?_eq_some_iff.mp htext
    exact ⟨hon, hstart⟩
  · rintro ⟨hon, hstart⟩
    have hsome := (Pattern.capture_isSome_iff hp hline).mpr
      (Pattern.occurs_of_prefix rfl hstart)
    obtain ⟨text, htext⟩ := Option.isSome_iff_exists.mp hsome
    exact Option.isSome_of_eq_some (looseParameters?_eq_some_iff.mpr ⟨hon, hstart, htext⟩)

namespace Config

variable {c : Config} {m : Markers}

/-- A configuration of plain words: no token begins with a blank, and the severities are words of
ASCII letters. -/
structure Plain (c : Config) : Prop where
  statementToken : c.statementToken.toList.head?.any isBlank = false
  parametersToken : c.parametersToken.toList.head?.any isBlank = false
  severities : ∀ severity ∈ c.severities, Alphabetic severity.toList

/-- The grammar of a marker with a sentinel. -/
def grammar (c : Config) (token : String) : Pattern :=
  ⟨some c.sentinel.toList, token.toList, c.severities.map String.toList⟩

/-- The grammar of a parameters marker without a sentinel. -/
def looseGrammar (c : Config) : Pattern :=
  ⟨none, c.parametersToken.toList, c.severities.map String.toList⟩

/-- What the markers find in a line is what the grammar of the configuration says. The grammar
without a sentinel counts only if the other one has no place in the line. -/
structure Governs (c : Config) (m : Markers) (line : List Char) : Prop where
  statement_isSome_iff : (m.statement? line).isSome = true ↔
    (c.grammar c.statementToken).Occurs line
  statement_iff : ∀ text, m.statement? line = some text ↔
    (c.grammar c.statementToken).Captures line text
  parameters_isSome_iff : (m.parameters? line).isSome = true ↔
    (c.grammar c.parametersToken).Occurs line ∨
      c.looseParameters = true ∧ c.parametersToken.toList <+: trimStart line
  parameters_iff : ∀ text, m.parameters? line = some text ↔
    (c.grammar c.parametersToken).Captures line text ∨
      ¬ (c.grammar c.parametersToken).Occurs line ∧ c.looseParameters = true ∧
        c.parametersToken.toList <+: trimStart line ∧ c.looseGrammar.Captures line text

/-- A configuration of plain words has no empty severity. -/
private theorem severities_words (hc : c.Plain) :
    c.words.severities = c.severities.map String.toList := by
  have hseverities : c.severities.filter (!·.isEmpty) = c.severities := by
    rw [List.filter_eq_self]
    intro severity hseverity
    rw [Bool.not_eq_true', ← Bool.not_eq_true, String.isEmpty_iff]
    rintro rfl
    exact (hc.severities "" hseverity).nonempty rfl
  rw [words, hseverities]

private theorem exists_head {token : String} (hne : token ≠ "")
    (h : token.toList.head?.any isBlank = false) : ∃ d ∈ token.toList.head?, isBlank d = false := by
  have hhead := List.head?_eq_some_head (mt String.toList_eq_nil_iff.mp hne)
  rw [hhead] at h ⊢
  exact ⟨_, rfl, h⟩

/-- The markers of a configuration with plain words accept exactly their grammar. It does not matter
which patterns are refused, as long as those of the configuration are not. -/
theorem governs_of_plain {refusal? : Pattern → Option String} (h : c.markers refusal? = .ok m)
    (hc : c.Plain) {line : List Char} (hline : '\n' ∉ line) : c.Governs m line := by
  obtain ⟨⟨hstatement, hparameters⟩, -, rfl⟩ := markers_eq_ok_iff.mp h
  have hwords : c.words = ⟨c.sentinel.toList, c.statementToken.toList, c.parametersToken.toList,
      c.severities.map String.toList, c.looseParameters⟩ := by
    rw [← severities_words hc]
    rfl
  rw [hwords]
  have hseverities : ∀ severity ∈ c.severities.map String.toList, Alphabetic severity :=
    List.forall_mem_map.mpr hc.severities
  have hstatement : (c.grammar c.statementToken).Plain :=
    ⟨exists_head hstatement hc.statementToken, hseverities⟩
  have hfull : (c.grammar c.parametersToken).Plain :=
    ⟨exists_head hparameters hc.parametersToken, hseverities⟩
  have hloose : c.looseGrammar.Plain := ⟨exists_head hparameters hc.parametersToken, hseverities⟩
  have hoccurs := Pattern.capture_isSome_iff hfull hline
  refine ⟨Pattern.capture_isSome_iff hstatement hline,
    fun text => Pattern.capture_eq_some_iff hstatement hline, ?_, fun text => ?_⟩
  · rw [Markers.parameters?, Option.isSome_or, Bool.or_eq_true]
    refine or_congr hoccurs (Markers.looseParameters?_isSome_iff ?_ hline)
    exact hloose
  · rw [Markers.parameters?, Option.or_eq_some_iff, Markers.looseParameters?_eq_some_iff,
      ← Option.not_isSome_iff_eq_none]
    exact or_congr (Pattern.capture_eq_some_iff hfull hline) (and_congr (not_congr hoccurs)
      (and_congr_right' (and_congr_right' (Pattern.capture_eq_some_iff hloose hline))))

/-- A line with two markers, in which a severity stands directly behind a token, one is a part of a
longer word, and one ends the text. -/
def crowdedLine : List Char := "app ==>preparing: INFO informed\tInfo ==> Preparing: late".toList

theorem governs_of_plain_crowdedLine :
    standard.markers (fun _ => none) = .ok .standard ∧ standard.Plain ∧ '\n' ∉ crowdedLine ∧
    standard.Governs .standard crowdedLine ∧
    (standard.grammar "Preparing:").Captures crowdedLine "INFO informed".toList := by
  have hmarkers : standard.markers (fun _ => none) = .ok .standard := rfl
  have hplain : standard.Plain := ⟨by decide, by decide, by decide⟩
  have hline : '\n' ∉ crowdedLine := by decide
  have hgoverns := governs_of_plain hmarkers hplain hline
  exact ⟨hmarkers, hplain, hline, hgoverns, (hgoverns.statement_iff _).mp (by decide)⟩

end Config

end SqlRecovery.Marker
