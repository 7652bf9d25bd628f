import SqlRecovery.Proofs.Marker.Grammar

/-! What the standard markers carry in a line that was printed with them. -/
namespace SqlRecovery.Marker
open Text

/-- The sentinel of the standard markers. -/
def arrow : List Char := "==>".toList

/-- The sentinel has no letters, so it is spelled in one way. -/
theorem eq_arrow_of_sameFolded {word : List Char} (h : SameFolded arrow word) : word = arrow := by
  have hword := sameLetters_of_sameFolded (by decide) h
  match word, h.length_eq with
  | [a, b, c], _ =>
    simp only [arrow, sameLetters, beq_iff_eq] at hword
    change ['=', '=', '>'].map Char.toLower = [a, b, c].map Char.toLower at hword
    simp only [List.map_cons, List.map_nil, List.cons.injEq, and_true] at hword
    obtain ⟨ha, hb, hc⟩ := hword
    rw [eq_of_sameLetter rfl (beq_iff_eq.mpr ha), eq_of_sameLetter rfl (beq_iff_eq.mpr hb),
      eq_of_sameLetter rfl (beq_iff_eq.mpr hc)]
    rfl

private theorem dropFolded?_arrow {s rest : List Char} (h : dropFolded? arrow s = some rest) :
    s = arrow ++ rest := by
  obtain ⟨word, hfolded, rfl⟩ := dropFolded?_eq_some_iff.mp h
  rw [eq_arrow_of_sameFolded hfolded]

private theorem behindPart_arrow_eq_none {α : Type} (attempt : List Char → Option α)
    {s : List Char} (h : ¬ arrow <+: s) : behindPart arrow attempt s = none := by
  rw [behindPart]
  cases hs : dropFolded? arrow s with
  | none => rfl
  | some rest => exact absurd ⟨rest, (dropFolded?_arrow hs).symm⟩ h

/-- No marker is found where no sentinel stands. -/
private theorem leftmost_arrow_eq_none {α : Type} (attempt : List Char → Option α) {s : List Char}
    (h : ¬ arrow <:+: s) : leftmost (behindPart arrow attempt) s = none := by
  induction s with
  | nil => exact behindPart_arrow_eq_none attempt fun hs => h hs.isInfix
  | cons c s ih =>
    rw [List.infix_cons_iff, not_or] at h
    rw [leftmost, behindPart_arrow_eq_none attempt h.1, ih h.2]
    rfl

private theorem not_prefix_arrow {s : List Char} {c : Char} (tail : List Char)
    (h : ¬ arrow <:+: c :: s) : ¬ arrow <+: c :: s ++ (arrow ++ tail) := by
  intro hprefix
  match s with
  | [] | [_] => simp [arrow] at hprefix
  | a :: b :: s =>
    refine h (List.IsPrefix.isInfix ?_)
    simpa [arrow] using hprefix

/-- The first sentinel of a line counts. -/
private theorem leftmost_arrow {α : Type} (attempt : List Char → Option α) {origin : List Char}
    (h : ¬ arrow <:+: origin) (tail : List Char) :
    leftmost (behindPart arrow attempt) (origin ++ (arrow ++ tail)) =
      leftmost (behindPart arrow attempt) (arrow ++ tail) := by
  induction origin with
  | nil => rfl
  | cons c origin ih =>
    have hhere := behindPart_arrow_eq_none attempt (not_prefix_arrow tail h)
    rw [List.infix_cons_iff, not_or] at h
    rw [List.cons_append] at hhere ⊢
    rw [leftmost, hhere, ih h.2]
    rfl

/-- A severity stands in the text as a whole word, in any letter case and with a blank before it. -/
def ShowsSeverity (s : List Char) : Prop :=
  ∃ before blank word behind, s = before ++ blank :: (word ++ behind) ∧ isBlank blank = true ∧
    (∃ severity ∈ Markers.standard.severities, sameLetters severity word = true) ∧
    startsWord behind = false

theorem not_showsSeverity {s : List Char} (h : s.any isBlank = false) : ¬ ShowsSeverity s := by
  rintro ⟨before, blank, word, behind, rfl, hblank, -⟩
  simp [hblank] at h

private theorem plain_severities : ∀ severity ∈ Markers.standard.severities,
    Alphabetic severity ∧ severity.all foldsInAscii = true := by
  decide

/-- A severity that ends a text is shown in every line with this end. -/
private theorem showsSeverity_of_follows {s t : List Char} (ht : t <:+ s)
    (h : SeverityFollows Markers.standard.severities t) : ShowsSeverity s := by
  obtain ⟨before, rfl⟩ := ht
  obtain ⟨gap, severity, word, behind, rfl, hne, hgap, hseverity, hword, hbehind⟩ := h
  refine ⟨before ++ gap.dropLast, gap.getLast hne, word, behind, ?_,
    List.all_eq_true.mp hgap _ (List.getLast_mem hne), ⟨severity, hseverity, ?_⟩, hbehind⟩
  · rw [List.append_assoc, List.append_cons, List.dropLast_concat_getLast]
  · exact sameLetters_of_sameFolded (plain_severities severity hseverity).2 hword

/-- A text without a severity is carried to its end. -/
private theorem carried_eq {p : Pattern} (hp : p.severities = Markers.standard.severities)
    {s : List Char} (hline : '\n' ∉ s) (h : ¬ ShowsSeverity s) : p.carried s = some s := by
  refine (Pattern.carried_eq_some_iff hline).mpr
    ⟨[], (List.append_nil s).symm, List.nil_suffix, rfl, ?_⟩
  intro u hu hend
  have hletters : ∀ severity ∈ p.severities, Alphabetic severity := by
    rw [hp]
    exact fun severity hseverity => (plain_severities severity hseverity).1
  rcases (Pattern.endsHere_iff hletters).mp hend with rfl | hfollows
  · exact Nat.le_refl 0
  · rw [hp] at hfollows
    exact absurd (showsSeverity_of_follows hu hfollows) h

private theorem behindBlanks_of_trimStart {α : Type} (attempt : List Char → Option α) {s : List Char}
    (h : trimStart s = s) : behindBlanks attempt s = attempt s := by
  cases s with
  | nil => rfl
  | cons c s => rw [behindBlanks, not_blank_of_trimStart h, if_neg Bool.false_ne_true]

private theorem behindBlanks_space {α : Type} (attempt : List Char → Option α) {s : List Char}
    (h : trimStart s = s) :
    behindBlanks attempt (' ' :: s) = (attempt s).or (attempt (' ' :: s)) := by
  rw [behindBlanks, behindBlanks_of_trimStart attempt h]
  rfl

/-- A text that a marker can carry unchanged. -/
structure Carriable (text : List Char) : Prop where
  trimmed : trim text = text
  line : '\n' ∉ text
  plain : ¬ ShowsSeverity text

namespace Markers

private theorem capture_printed {token origin text : List Char} (ho : ¬ arrow <:+: origin)
    (htoken : trimStart (token ++ ' ' :: text) = token ++ ' ' :: text) (h : Carriable text) :
    (standard.pattern token).capture (origin ++ (arrow ++ ' ' :: (token ++ ' ' :: text))) =
      some text := by
  have hcarried : (standard.pattern token).carried text = some text := carried_eq rfl h.line h.plain
  have hbehind : (standard.pattern token).behindToken (token ++ ' ' :: text) = some text := by
    rw [Pattern.behindToken, behindPart]
    change (dropFolded? token (token ++ ' ' :: text)).bind _ = _
    rw [dropFolded?_append_self, Option.bind_some,
      behindBlanks_space _ (trimStart_of_trim h.trimmed), hcarried, Option.some_or]
  have hhere : behindPart arrow (behindBlanks (standard.pattern token).behindToken)
      (arrow ++ ' ' :: (token ++ ' ' :: text)) = some text := by
    rw [behindPart, dropFolded?_append_self, Option.bind_some, behindBlanks_space _ htoken,
      hbehind, Option.some_or]
  rw [Pattern.capture]
  change (leftmost (behindPart arrow (behindBlanks (standard.pattern token).behindToken)) _).map
    trim = _
  rw [leftmost_arrow _ ho, leftmost_of_eq_some hhere, Option.map_some, h.trimmed]

/-- A line without a sentinel is no marker in full. -/
private theorem capture_eq_none (token : List Char) {line : List Char} (h : ¬ arrow <:+: line) :
    (standard.pattern token).capture line = none := by
  rw [Pattern.capture]
  change (leftmost (behindPart arrow (behindBlanks (standard.pattern token).behindToken)) _).map
    trim = _
  rw [leftmost_arrow_eq_none _ h]
  rfl

theorem statement?_printed {origin text : List Char} (ho : ¬ arrow <:+: origin)
    (h : Carriable text) :
    standard.statement? (origin ++ "==> Preparing: ".toList ++ text) = some text := by
  rw [List.append_assoc]
  exact capture_printed ho rfl h

theorem statement?_eq_none {line : List Char} (h : ¬ arrow <:+: line) :
    standard.statement? line = none :=
  capture_eq_none _ h

theorem parameters?_printed {origin text : List Char} (ho : ¬ arrow <:+: origin)
    (h : Carriable text) :
    standard.parameters? (origin ++ "==> Parameters: ".toList ++ text) = some text := by
  have hcapture : (standard.pattern standard.parametersToken).capture
      (origin ++ "==> Parameters: ".toList ++ text) = some text := by
    rw [List.append_assoc]
    exact capture_printed ho rfl h
  rw [parameters?, hcapture, Option.some_or]

theorem mentionsParameters_iff {line : List Char} :
    standard.mentionsParameters line = true ↔ "Parameters:".toList <:+: line := occursIn_iff

theorem parameters?_eq_none {line : List Char} (h : ¬ arrow <:+: line)
    (htoken : ¬ "Parameters:".toList <:+: line) : standard.parameters? line = none := by
  have hloose : standard.looseParameters? line = none := by
    rw [looseParameters?, if_neg]
    intro hstart
    rw [Bool.and_eq_true, List.isPrefixOf_iff_prefix] at hstart
    exact htoken (hstart.2.isInfix.trans (trimStart_suffix_self line).isInfix)
  rw [parameters?, capture_eq_none _ h, hloose]
  rfl

/-- The parameters marker is no statement marker. -/
theorem statement?_printed_parameters {origin text : List Char} (ho : ¬ arrow <:+: origin)
    (ht : ¬ arrow <:+: text) :
    standard.statement? (origin ++ "==> Parameters: ".toList ++ text) = none := by
  have hrest : ¬ arrow <:+: "=> Parameters: ".toList ++ text := by
    simpa [List.infix_cons_iff, arrow] using ht
  have htoken : (standard.pattern standard.statementToken).behindToken
      ("Parameters: ".toList ++ text) = none := rfl
  have hspace : (standard.pattern standard.statementToken).behindToken
      (" Parameters: ".toList ++ text) = none := rfl
  have hhere : behindPart arrow (behindBlanks (standard.pattern standard.statementToken).behindToken)
      (arrow ++ ' ' :: ("Parameters: ".toList ++ text)) = none := by
    rw [behindPart, dropFolded?_append_self, Option.bind_some, behindBlanks_space _ rfl, htoken,
      Option.none_or]
    exact hspace
  rw [List.append_assoc]
  change (leftmost (behindPart arrow (behindBlanks _))
    (origin ++ (arrow ++ ' ' :: ("Parameters: ".toList ++ text)))).map trim = none
  rw [leftmost_arrow _ ho]
  change ((behindPart arrow _ (arrow ++ ' ' :: ("Parameters: ".toList ++ text))).or
    (leftmost (behindPart arrow _) ("=> Parameters: ".toList ++ text))).map trim = none
  rw [hhere, leftmost_arrow_eq_none _ hrest]
  rfl

end Markers

end SqlRecovery.Marker
