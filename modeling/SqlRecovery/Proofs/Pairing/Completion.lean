import SqlRecovery.Proofs.Pairing.Representation

/-! What a parameters marker completes. The waiting statement is given as it waits, unless the
marker line is taken for its continuation first: that happens if the line spells the token in
another letter case and does not begin with the sentinel. -/
namespace SqlRecovery.Pairing
open Text Marker Logged

/-- The slots that lines lead to, from the empty one on. A slot that is emptied begins anew. -/
inductive Reachable (m : Markers) : Slot → Prop
  | fresh : Reachable m .empty
  | line {slot : Slot} (line : String) (h : Reachable m slot) :
    Reachable m (readLine m line .quiet slot).state

variable {m : Markers} {slot : Slot}

private theorem Reachable.represents (h : Reachable m slot) : slot.Represents m := by
  induction h with
  | fresh => exact Slot.represents_empty m
  | line line _ ih =>
    rw [(readLine_gives m line _).state_eq]
    exact ih.read line

/-- A line that continues the waiting statement is put behind it. -/
private theorem pending_gather (h : Reachable m slot) {sql : String} (hsql : slot.pending = some sql)
    (line : String) : (slot.gather m line).pending =
      some (if Slot.takes m line then sql ++ " " ++ Slot.fragment line else sql) := by
  have hwaits : slot.pending.isSome := by rw [hsql]; rfl
  cases ht : Slot.takes m line with
  | true =>
    have hmore := String.intercalate_append_of_ne_nil (s := " ")
      (h.represents.fragments_ne_nil hwaits) (List.cons_ne_nil (Slot.fragment line) [])
    rw [String.intercalate_singleton, ← h.represents.joined sql hsql] at hmore
    rw [Slot.gather, ht, hwaits, Bool.and_self, if_pos rfl, if_pos rfl, ← hmore]
    rfl
  | false =>
    rw [Slot.gather, ht, Bool.and_false, if_neg Bool.false_ne_true, if_neg Bool.false_ne_true,
      hsql]

private theorem settle_of_pending_eq_some {sql : String} (h : slot.pending = some sql)
    (text : List Char) :
    slot.settle (some text) = (some (.complete sql (String.ofList text)), .empty) := by
  simp only [Slot.settle, h]

/-- A parameters marker completes what waits, and the marker line itself may be the last part of it. -/
private theorem readLine_marked_gives {sql line : String} {text : List Char} (h : Reachable m slot)
    (hsql : slot.pending = some sql) (hline : parametersMarker? m line = some text) :
    (readLine m line).Gives slot (some (.complete
      (if Slot.takes m line then sql ++ " " ++ Slot.fragment line else sql) (String.ofList text)))
      .empty := by
  have hgives := readLine_gives m line slot
  rwa [read_of_marked hline, settle_of_pending_eq_some (pending_gather h hsql line)] at hgives

private theorem append_ne_self (sql more : String) : sql ++ " " ++ more ≠ sql := by
  intro h
  have hlength := congrArg String.length h
  rw [String.length_append, String.length_append] at hlength
  change sql.length + 1 + more.length = sql.length at hlength
  omega

/-- A parameters marker completes the waiting statement and empties the slot. The statement is given
as it waits if and only if the marker line is not taken for a continuation: it spells the token as
it is configured, or begins with the sentinel, or does not continue a statement. Otherwise the line
stands at its end. -/
theorem readLine_completes {sql line : String} {text : List Char} (h : Reachable m slot)
    (hsql : slot.pending = some sql) (hline : parametersMarker? m line = some text) :
    ∃ statement, (readLine m line .quiet slot).value = .ok (some statement) ∧
      (readLine m line .quiet slot).state = .empty ∧
      statement.parameters = Parameter.readAll (String.ofList text) ∧
      statement.logged = (if Slot.takes m line then sql ++ " " ++ Slot.fragment line else sql) ∧
      (statement.logged = sql ↔ Slot.takes m line = false) := by
  have hgives := readLine_marked_gives h hsql hline
  refine ⟨_, hgives.value_eq, hgives.state_eq, rfl, rfl, ?_⟩
  change (if Slot.takes m line then sql ++ " " ++ Slot.fragment line else sql) = sql ↔ _
  cases Slot.takes m line with
  | true => exact iff_of_false (append_ne_self sql _) Bool.noConfusion
  | false => exact iff_of_true rfl rfl

/-- The slot behind a statement marker. -/
def openSlot : Slot := .only "select ?"

private theorem reachable_openSlot : Reachable .standard openSlot := by
  have h := Reachable.line (m := .standard) "==> preparing: select ?" .fresh
  rwa [(readLine_gives _ _ _).state_eq] at h

theorem readLine_completes_openSlot :
    Reachable .standard openSlot ∧ openSlot.pending = some "select ?" ∧
    parametersMarker? .standard "app ==> Parameters: 1(Integer)" = some "1(Integer)".toList ∧
    ∃ statement, (readLine .standard "app ==> Parameters: 1(Integer)" .quiet openSlot).value =
        .ok (some statement) ∧
      (readLine .standard "app ==> Parameters: 1(Integer)" .quiet openSlot).state = .empty ∧
      statement.parameters = Parameter.readAll (String.ofList "1(Integer)".toList) ∧
      statement.logged = (if Slot.takes .standard "app ==> Parameters: 1(Integer)" then
        "select ?" ++ " " ++ Slot.fragment "app ==> Parameters: 1(Integer)" else "select ?") ∧
      (statement.logged = "select ?" ↔
        Slot.takes .standard "app ==> Parameters: 1(Integer)" = false) := by
  have hline : parametersMarker? .standard "app ==> Parameters: 1(Integer)" =
      some "1(Integer)".toList := by decide
  exact ⟨reachable_openSlot, rfl, hline, readLine_completes reachable_openSlot rfl hline⟩

/-- A marker whose token is not in its configured letter case may become a part of the statement that
it completes. -/
theorem not_completes_as_it_waits : ¬ ∀ (m : Markers) (slot : Slot) (sql line : String)
    (text : List Char), Reachable m slot → slot.pending = some sql →
      parametersMarker? m line = some text →
      ∃ statement, (readLine m line .quiet slot).value = .ok (some statement) ∧
        statement.logged = sql ∧ statement.parameters = Parameter.readAll (String.ofList text) := by
  intro h
  have hline : parametersMarker? .standard "app ==> parameters: 1(Integer)" =
      some "1(Integer)".toList := by decide
  have htakes : Slot.takes .standard "app ==> parameters: 1(Integer)" = true := by decide
  obtain ⟨statement, hvalue, hlogged, -⟩ := h _ _ _ _ _ reachable_openSlot rfl hline
  rw [(readLine_marked_gives reachable_openSlot rfl hline).value_eq, htakes] at hvalue
  obtain rfl := Option.some.inj (Except.ok.inj hvalue)
  exact append_ne_self "select ?" _ hlogged

end SqlRecovery.Pairing
