import SqlRecovery.Proofs.Pairing.Step

/-! What the several kinds of lines do to the waiting statement. -/
namespace SqlRecovery.Pairing
open Text Marker

/-- The text of a line that counts as a statement marker. -/
def statementMarker? (m : Markers) (line : String) : Option (List Char) :=
  if allBlank line.toList then none else m.statement? line.toList

/-- The text of a line that counts as a parameters marker. -/
def parametersMarker? (m : Markers) (line : String) : Option (List Char) :=
  if allBlank line.toList || (m.statement? line.toList).isSome then none
  else m.parameters? line.toList

/-- The line is no marker. -/
def Silent (m : Markers) (line : String) : Prop :=
  statementMarker? m line = none ∧ parametersMarker? m line = none

/-- The lines that continue a statement. -/
def continuing (m : Markers) (lines : List String) : List String :=
  lines.filter fun line => !allBlank line.toList && Slot.takes m line

/-- The fragments of a statement that begins with `sql`, if these lines follow. -/
def fragments (m : Markers) (sql : List Char) (lines : List String) : List String :=
  String.ofList sql :: (continuing m lines).map Slot.fragment

variable {m : Markers}

/-- The parameters token stands in a line that is a parameters marker, letter for letter. -/
def Spelled (m : Markers) (line : String) : Prop :=
  (parametersMarker? m line).isSome → m.mentionsParameters line.toList = true

/-- A line that begins a statement carries no parameters. -/
theorem parametersMarker?_of_statementMarker {line : String} {sql : List Char}
    (h : statementMarker? m line = some sql) : parametersMarker? m line = none := by
  rw [statementMarker?] at h
  split at h
  · cases h
  · rw [parametersMarker?, h, Option.isSome_some, Bool.or_true, if_pos rfl]

theorem read_of_statementMarker {line : String} {sql : List Char}
    (h : statementMarker? m line = some sql) (slot : Slot) :
    slot.read m line = (none, .only (String.ofList sql)) := by
  rw [statementMarker?] at h
  split at h
  · cases h
  · rw [Slot.read, if_neg ‹_›, h]

/-- The text of a parameters marker goes to the waiting statement, which may have been extended by
the same line. -/
theorem read_of_marked {line : String} {text : List Char}
    (h : parametersMarker? m line = some text) (slot : Slot) :
    slot.read m line = (slot.gather m line).settle (some text) := by
  rw [parametersMarker?] at h
  split at h
  case isTrue => cases h
  case isFalse hno =>
    rw [Bool.or_eq_true, not_or, Bool.not_eq_true, Bool.not_eq_true,
      Option.isSome_eq_false_iff, Option.isNone_iff_eq_none] at hno
    rw [Slot.read, hno.1, hno.2, h, if_neg Bool.false_ne_true]

theorem read_of_parametersMarker {line : String} {text : List Char}
    (h : parametersMarker? m line = some text) (hline : Spelled m line) (slot : Slot) :
    slot.read m line = slot.settle (some text) := by
  have hmentions : m.mentionsParameters line.toList = true := hline (by rw [h]; rfl)
  have hgather : slot.gather m line = slot := by simp [Slot.gather, Slot.takes, hmentions]
  rw [read_of_marked h, hgather]

private theorem settle_none (slot : Slot) : slot.settle none = (none, slot) := by
  rcases slot with ⟨_ | sql, fragments⟩ <;> rfl

theorem settle_of_pending_eq_none {slot : Slot} (h : slot.pending = none)
    (parameters : Option (List Char)) : slot.settle parameters = (none, slot) := by
  rcases slot with ⟨_ | sql, fragments⟩
  · rfl
  · cases h

theorem read_of_silent {line : String} (h : Silent m line) (slot : Slot) :
    slot.read m line =
      (none, if allBlank line.toList then slot else slot.gather m line) := by
  rw [Slot.read]
  split
  case isTrue => rfl
  case isFalse hb =>
    obtain ⟨hs, hp⟩ := h
    rw [statementMarker?, if_neg hb] at hs
    rw [parametersMarker?, hs, if_neg (by simpa using hb)] at hp
    rw [hs, hp]
    exact settle_none _

/-- The slot in which a statement of these fragments waits. -/
def holding (fragments : List String) : Slot :=
  ⟨some (" ".intercalate fragments), fragments⟩

theorem holding_read_of_silent {line : String} (h : Silent m line) (sql : List Char)
    (lines : List String) :
    (holding (fragments m sql lines)).read m line =
      (none, holding (fragments m sql (lines ++ [line]))) := by
  have hmore : fragments m sql (lines ++ [line]) =
      fragments m sql lines ++ (continuing m [line]).map Slot.fragment := by
    simp [fragments, continuing]
  rw [read_of_silent h, hmore]
  cases hb : allBlank line.toList with
  | true => simp [continuing, hb]
  | false =>
    cases ht : Slot.takes m line with
    | true => simp [continuing, hb, ht, Slot.gather, holding, Slot.extend]
    | false => simp [continuing, hb, ht, Slot.gather]

/-- Lines that are no markers give nothing, and those that continue the statement are kept. -/
theorem holding_of_silent {lines : List String} (h : ∀ line ∈ lines, Silent m line)
    (sql : List Char) (before : List String) :
    (holding (fragments m sql before)).statements m lines = [] ∧
      (holding (fragments m sql before)).afterLines m lines =
        holding (fragments m sql (before ++ lines)) := by
  induction lines generalizing before with
  | nil => exact ⟨rfl, by rw [List.append_nil]; rfl⟩
  | cons line lines ih =>
    have hline := holding_read_of_silent (h line List.mem_cons_self) sql before
    obtain ⟨hstatements, hafter⟩ :=
      ih (fun x hx => h x (List.mem_cons_of_mem line hx)) (before ++ [line])
    constructor
    · rw [Slot.statements_cons, hline, hstatements]
      rfl
    · rw [List.append_cons, ← hafter, Slot.afterLines, List.foldl_cons, hline]
      rfl

end SqlRecovery.Pairing
