import SqlRecovery.Proofs.Marker.Printed
import SqlRecovery.Proofs.Pairing.Line
import SqlRecovery.Proofs.Stream.Chunking

/-! Statements that were logged, with other output between their lines, are all recovered. -/
namespace SqlRecovery.Stream
open Text Marker LogLine Pairing

/-- A statement as it is logged: what stands before its markers, its first line, its further
lines and its parameters. -/
structure Entry where
  origin : List Char
  first : List Char
  more : List (List Char)
  parameters : List Char

/-- The piece stays within its line and does not look like a sentinel. -/
def Tame (piece : List Char) : Prop := '\n' ∉ piece ∧ ¬ arrow <:+: piece

namespace Entry

/-- The lines in which the entry is logged. -/
def lines (e : Entry) : List (List Char) :=
  (e.origin ++ "==> Preparing: ".toList ++ e.first) ::
    (e.more ++ [e.origin ++ "==> Parameters: ".toList ++ e.parameters])

/-- The statement that was logged. -/
def statement (e : Entry) : Statement :=
  .complete (" ".intercalate ((e.first :: e.more.map trim).map String.ofList))
    (String.ofList e.parameters)

/-- The entry can be told from its lines. -/
structure Legible (e : Entry) : Prop where
  origin : Tame e.origin
  first : Tame e.first ∧ trim e.first = e.first ∧ e.first ≠ [] ∧ ¬ ShowsSeverity e.first
  more : ∀ line ∈ e.more, Tame line ∧ isContinuation (trim line) = true ∧
    ¬ "Parameters:".toList <:+: line
  parameters : Tame e.parameters ∧ trim e.parameters = e.parameters ∧ ¬ ShowsSeverity e.parameters

end Entry

/-- A line between the lines of the entries: it is blank, or it is no marker and does not continue
a statement. -/
def Noise (line : List Char) : Prop :=
  '\n' ∉ line ∧ (allBlank line = true ∨
    (Markers.standard.statement? line = none ∧ Markers.standard.parameters? line = none ∧
      (arrow <+: trim line ∨ isContinuation (trim line) = false)))

/-- The lines in order, with noise inserted anywhere. -/
inductive Interspersed : List (List Char) → List (List Char) → Prop
  | nil : Interspersed [] []
  | keep {lines mixed : List (List Char)} (line : List Char) (h : Interspersed lines mixed) :
    Interspersed (line :: lines) (line :: mixed)
  | insert {lines mixed : List (List Char)} {line : List Char} (hline : Noise line)
    (h : Interspersed lines mixed) : Interspersed lines (line :: mixed)

/-- The lines, each ended by a line feed, with or without a carriage return before it. -/
def written (lines : List (List Char × Bool)) : List Char :=
  lines.flatMap fun line => line.1 ++ if line.2 then ['\r', '\n'] else ['\n']

section
variable {m : Markers}

private theorem cutAt_written {lines : List (List Char × Bool)}
    (h : ∀ line ∈ lines, '\n' ∉ line.1) :
    cutAt '\n' (written lines) =
      (lines.map fun line => line.1 ++ if line.2 then ['\r'] else [], []) := by
  induction lines with
  | nil => rfl
  | cons line lines ih =>
    obtain ⟨text, returned⟩ := line
    have htext : '\n' ∉ text := h _ List.mem_cons_self
    have hrest := ih fun x hx => h x (List.mem_cons_of_mem _ hx)
    have hline : '\n' ∉ text ++ if returned then ['\r'] else [] := by
      cases returned <;> simp [htext]
    have hwritten : written ((text, returned) :: lines) =
        (text ++ if returned then ['\r'] else []) ++ '\n' :: written lines := by
      cases returned <;> simp [written]
    rw [hwritten, cutAt_line hline, hrest]
    rfl

private theorem read_written (hm : m.AvoidedBy '\r') (slot : Slot) (line : List Char × Bool) :
    slot.read m (String.ofList (dropEnd '\r' (line.1 ++ if line.2 then ['\r'] else []))) =
      slot.read m (String.ofList line.1) := by
  obtain ⟨text, returned⟩ := line
  cases returned with
  | false => rw [if_neg Bool.false_ne_true, List.append_nil, read_dropEnd hm]
  | true => rw [if_pos rfl, dropEnd_append]

private theorem statements_congr {α : Type} {f g : α → String}
    (h : ∀ (slot : Slot) (x : α), slot.read m (f x) = slot.read m (g x)) (slot : Slot)
    (xs : List α) : slot.statements m (xs.map f) = slot.statements m (xs.map g) := by
  induction xs generalizing slot with
  | nil => rfl
  | cons x xs ih =>
    rw [List.map_cons, List.map_cons, Slot.statements_cons, Slot.statements_cons, h, ih]

/-- A written text has the lines that were written, however they were ended. -/
private theorem statements_written (hm : m.AvoidedBy '\r') {lines : List (List Char × Bool)}
    (h : ∀ line ∈ lines, '\n' ∉ line.1) (slot : Slot) :
    slot.statements m (textLines (String.ofList (written lines))) =
      slot.statements m ((lines.map (·.1)).map String.ofList) := by
  rw [textLines_eq, String.toList_ofList, cutAt_written h]
  simp only [List.isEmpty_nil, if_true, List.append_nil, List.map_map]
  exact statements_congr (read_written hm) slot lines

end

private theorem takes_noise {line : List Char}
    (h : arrow <+: trim line ∨ isContinuation (trim line) = false) :
    Slot.takes .standard (String.ofList line) = false := by
  rw [Slot.takes, String.toList_ofList]
  rcases h with h | h
  · have hstart : Markers.standard.startsWithSentinel (trim line) = true :=
      List.isPrefixOf_iff_prefix.mpr h
    simp [hstart]
  · simp [h]

private theorem read_noise {line : List Char} (h : Noise line) (slot : Slot) :
    slot.read .standard (String.ofList line) = (none, slot) := by
  rcases h.2 with hb | ⟨hs, hp, htakes⟩
  · rw [Slot.read, String.toList_ofList, if_pos hb]
  · have hsilent : Silent .standard (String.ofList line) := by
      simp [Silent, statementMarker?, parametersMarker?, hs, hp]
    rw [read_of_silent hsilent, Slot.gather, takes_noise htakes, Bool.and_false,
      if_neg Bool.false_ne_true, ite_self]

/-- Noise gives nothing and changes nothing. -/
private theorem statements_interspersed {lines mixed : List (List Char)}
    (h : Interspersed lines mixed) (slot : Slot) :
    slot.statements .standard (mixed.map String.ofList) =
      slot.statements .standard (lines.map String.ofList) := by
  induction h generalizing slot with
  | nil => rfl
  | keep line h ih =>
    rw [List.map_cons, List.map_cons, Slot.statements_cons, Slot.statements_cons, ih]
  | insert hline h ih =>
    rw [List.map_cons, Slot.statements_cons, read_noise hline]
    exact ih slot

namespace Entry

variable {e : Entry}

private theorem statementMarker?_first (h : e.Legible) :
    statementMarker? .standard
      (String.ofList (e.origin ++ "==> Preparing: ".toList ++ e.first)) = some e.first := by
  have hblank : allBlank (e.origin ++ "==> Preparing: ".toList ++ e.first) = false := by
    simp [allBlank, isBlank]
  rw [statementMarker?, String.toList_ofList, hblank, if_neg Bool.false_ne_true]
  exact Markers.statement?_printed h.origin.2 ⟨h.first.2.1, h.first.1.1, h.first.2.2.2⟩

private theorem parametersMarker?_last (h : e.Legible) :
    parametersMarker? .standard
      (String.ofList (e.origin ++ "==> Parameters: ".toList ++ e.parameters)) =
      some e.parameters := by
  have hblank : allBlank (e.origin ++ "==> Parameters: ".toList ++ e.parameters) = false := by
    simp [allBlank, isBlank]
  have hstatement := Markers.statement?_printed_parameters h.origin.2 h.parameters.1.2
  rw [parametersMarker?, String.toList_ofList, hblank, hstatement]
  exact Markers.parameters?_printed h.origin.2
    ⟨h.parameters.2.1, h.parameters.1.1, h.parameters.2.2⟩

private theorem spelled_last :
    Spelled .standard
      (String.ofList (e.origin ++ "==> Parameters: ".toList ++ e.parameters)) := by
  intro _
  rw [String.toList_ofList, Markers.mentionsParameters_iff]
  exact ⟨e.origin ++ "==> ".toList, ' ' :: e.parameters, by simp⟩

private theorem more_silent (h : e.Legible) :
    ∀ line ∈ e.more.map String.ofList, Silent .standard line := by
  intro line hline
  obtain ⟨text, htext, rfl⟩ := List.mem_map.mp hline
  obtain ⟨⟨-, harrow⟩, -, htoken⟩ := h.more text htext
  simp [Silent, statementMarker?, parametersMarker?, Markers.statement?_eq_none harrow,
    Markers.parameters?_eq_none harrow htoken]

private theorem takes_more (h : e.Legible) {text : List Char} (htext : text ∈ e.more) :
    (!allBlank text && Slot.takes .standard (String.ofList text)) = true := by
  obtain ⟨⟨-, harrow⟩, hcontinues, htoken⟩ := h.more text htext
  have hblank : allBlank text = false := by
    rw [← Bool.not_eq_true]
    intro hblank
    rw [trim_of_allBlank hblank] at hcontinues
    cases hcontinues
  have hmentions : Markers.standard.mentionsParameters text = false := by
    rw [← Bool.not_eq_true, Markers.mentionsParameters_iff]
    exact htoken
  have hstart : Markers.standard.startsWithSentinel (trim text) = false := by
    rw [← Bool.not_eq_true]
    intro hstart
    exact harrow ((List.isPrefixOf_iff_prefix.mp hstart).isInfix.trans (trim_infix_self text))
  rw [Slot.takes, String.toList_ofList, hblank, hmentions, hstart, hcontinues]
  rfl

private theorem fragments_more (h : e.Legible) :
    fragments .standard e.first (e.more.map String.ofList) =
      (e.first :: e.more.map trim).map String.ofList := by
  have hall : continuing .standard (e.more.map String.ofList) = e.more.map String.ofList := by
    rw [continuing, List.filter_eq_self]
    intro line hline
    obtain ⟨text, htext, rfl⟩ := List.mem_map.mp hline
    rw [String.toList_ofList]
    exact takes_more h htext
  rw [fragments, hall, List.map_cons, List.map_map, List.map_map]
  simp [Slot.fragment, Function.comp_def]

/-- The lines of an entry give its statement and leave nothing behind. -/
private theorem statements_lines (h : e.Legible) (slot : Slot) (rest : List String) :
    slot.statements .standard (e.lines.map String.ofList ++ rest) =
      e.statement :: Slot.empty.statements .standard rest := by
  have hfirst := read_of_statementMarker (statementMarker?_first h) slot
  have hlast := read_of_parametersMarker (parametersMarker?_last h) spelled_last
    (holding (fragments .standard e.first (e.more.map String.ofList)))
  have honly : Slot.only (String.ofList e.first) = holding (fragments .standard e.first []) := by
    simp [Slot.only, holding, fragments, continuing]
  obtain ⟨hmore, hafter⟩ := holding_of_silent (more_silent h) e.first []
  rw [List.nil_append] at hafter
  rw [lines, List.map_cons, List.map_append, List.cons_append, Slot.statements_cons, hfirst, honly,
    List.append_assoc, Slot.statements_append, hmore, hafter, List.map_singleton,
    List.singleton_append, Slot.statements_cons, hlast, fragments_more h]
  rfl

end Entry

private theorem statements_entries {entries : List Entry} (h : ∀ e ∈ entries, e.Legible)
    (slot : Slot) :
    slot.statements .standard ((entries.flatMap Entry.lines).map String.ofList) =
      entries.map Entry.statement := by
  induction entries generalizing slot with
  | nil => rfl
  | cons e entries ih =>
    rw [List.flatMap_cons, List.map_append, Entry.statements_lines (h e List.mem_cons_self),
      ih (fun x hx => h x (List.mem_cons_of_mem e hx)), List.map_cons]

private theorem newline_not_mem {lines mixed : List (List Char)} (h : Interspersed lines mixed)
    (hlines : ∀ line ∈ lines, '\n' ∉ line) : ∀ line ∈ mixed, '\n' ∉ line := by
  induction h with
  | nil => exact hlines
  | keep line h ih =>
    rw [List.forall_mem_cons] at hlines ⊢
    exact ⟨hlines.1, ih hlines.2⟩
  | insert hline h ih =>
    rw [List.forall_mem_cons]
    exact ⟨hline.1, ih hlines⟩

private theorem Entry.newline_not_mem_lines {e : Entry} (h : e.Legible) :
    ∀ line ∈ e.lines, '\n' ∉ line := by
  intro line hline
  rw [lines, List.mem_cons, List.mem_append, List.mem_singleton] at hline
  rcases hline with rfl | hline | rfl
  · simp [h.origin.1, h.first.1.1]
  · exact (h.more line hline).1.1
  · simp [h.origin.1, h.parameters.1.1]

/-- What was logged is recovered: a text with the lines of several entries in order, with any noise
between them and with line feeds of either kind, gives exactly the statements of the entries. -/
theorem ofText_transcript (entries : List Entry) (lines : List (List Char × Bool))
    (hentries : ∀ e ∈ entries, e.Legible)
    (hlines : Interspersed (entries.flatMap Entry.lines) (lines.map (·.1))) :
    (ofText .standard (String.ofList (written lines)) .quiet .empty).value =
      .ok (entries.map Entry.statement) := by
  have hfeeds : ∀ line ∈ lines, '\n' ∉ line.1 := by
    intro line hline
    refine newline_not_mem hlines ?_ line.1 (List.mem_map_of_mem hline)
    intro text htext
    obtain ⟨e, he, htext⟩ := List.mem_flatMap.mp htext
    exact Entry.newline_not_mem_lines (hentries e he) text htext
  rw [(ofText_gives .standard _ .empty).value_eq,
    statements_written Markers.standard_avoids_return hfeeds, statements_interspersed hlines,
    statements_entries hentries]

/-- A deletion on two lines. -/
def shortEntry : Entry :=
  ⟨"DEBUG ".toList, "DELETE".toList, ["FROM t".toList], "1(Integer)".toList⟩

/-- The deletion with noise between its lines and behind them. -/
def shortTranscript : List (List Char × Bool) :=
  [("DEBUG ==> Preparing: DELETE".toList, true), ("<== Total: 1".toList, false),
    ("FROM t".toList, false), ("DEBUG ==> Parameters: 1(Integer)".toList, true), ([], false)]

private theorem legible_shortEntry : shortEntry.Legible where
  origin := by unfold Tame; decide +kernel
  first := ⟨by unfold Tame; decide +kernel, rfl, by decide, not_showsSeverity (by decide)⟩
  more := by unfold Tame; decide +kernel
  parameters := ⟨by unfold Tame; decide +kernel, rfl, not_showsSeverity (by decide)⟩

private theorem interspersed_shortTranscript :
    Interspersed ([shortEntry].flatMap Entry.lines) (shortTranscript.map (·.1)) := by
  have hlines : [shortEntry].flatMap Entry.lines = ["DEBUG ==> Preparing: DELETE".toList,
      "FROM t".toList, "DEBUG ==> Parameters: 1(Integer)".toList] := by decide
  have hmixed : shortTranscript.map (·.1) = ["DEBUG ==> Preparing: DELETE".toList,
      "<== Total: 1".toList, "FROM t".toList, "DEBUG ==> Parameters: 1(Integer)".toList, []] := rfl
  rw [hlines, hmixed]
  exact .keep _ <| .insert (by unfold Noise; decide +kernel) <| .keep _ <| .keep _ <|
    .insert (by unfold Noise; decide +kernel) .nil

theorem ofText_transcript_deletion :
    (∀ e ∈ [shortEntry], e.Legible) ∧
    Interspersed ([shortEntry].flatMap Entry.lines) (shortTranscript.map (·.1)) ∧
    (ofText .standard (String.ofList (written shortTranscript)) .quiet .empty).value =
      .ok ([shortEntry].map Entry.statement) := by
  have hentries : ∀ e ∈ [shortEntry], e.Legible := by
    intro e he
    obtain rfl := List.mem_singleton.mp he
    exact legible_shortEntry
  exact ⟨hentries, interspersed_shortTranscript, ofText_transcript [shortEntry] shortTranscript
    hentries interspersed_shortTranscript⟩

end SqlRecovery.Stream
