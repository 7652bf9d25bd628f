import Mathlib.Data.List.Forall2
import Mathlib.Data.List.ReduceOption
import SqlRecovery.Proofs.Journal.Fault
import SqlRecovery.Proofs.Pairing.History

/-! Lines on which recording fails. Wherever in the line that happens, the line gives nothing, the
slot is empty behind it, and the lines that follow are read as if they were the first. -/
namespace SqlRecovery.Pairing
open Text Marker LogLine Logged

/-- A line as it is read: by a slot, under a recorder. -/
structure Reading where
  recorder : Recorder
  line : String
  slot : Slot

namespace Reading

/-- What the line comes to. -/
def outcome (m : Markers) (r : Reading) : Outcome Slot (Option Statement) :=
  guardedLine m r.line r.recorder r.slot

/-- The words with which the line fails behind its guard, if it does. -/
def failure? (m : Markers) (r : Reading) : Option String :=
  match (readLine m r.line r.recorder r.slot).value with
  | .ok _ => none
  | .error words => some words

end Reading

/-- Lines that are read one after the other, each under its own recorder. -/
def readings (m : Markers) : Slot → List (Recorder × String) → List Reading
  | _, [] => []
  | slot, (recorder, line) :: entries =>
    ⟨recorder, line, slot⟩ :: readings m (guardedLine m line recorder slot).state entries

section
variable (m : Markers) (line : String)

private theorem take_plain : take.Plain :=
  plain_get.bind fun _ => (plain_modify _).bind fun _ => plain_pure _

private theorem start_plain (sql : String) : (start sql).Plain := by
  have hend : ∀ _ : Unit, (do log .debug ("Preparing: " ++ sql); modify fun _ => Slot.only sql :
      Logged Slot Unit).Plain :=
    fun _ => (plain_log (by decide) _).bind fun _ => plain_modify _
  refine take_plain.bind fun previous => ?_
  cases previous with
  | none => exact (plain_pure ()).bind hend
  | some previous => exact (plain_log (by decide) _).bind hend

private theorem collect_plain : (collect m line).Plain := by
  simp only [collect]
  split
  · exact plain_log (by decide) _
  · split
    · exact (plain_log (by decide) _).bind fun _ => plain_modify _
    · exact plain_log (by decide) _

private theorem finish_plain (text : String) : (finish line text).Plain := by
  refine take_plain.bind fun sql => ?_
  cases sql with
  | none => exact (plain_log (by decide) _).bind fun _ => plain_pure _
  | some sql =>
    exact (plain_modify _).bind fun _ => (plain_log (by decide) _).bind fun _ => plain_pure _

private theorem readOn_plain : (readOn m line).Plain := by
  refine plain_get.bind fun slot => ?_
  generalize m.parameters? line.toList = captured
  have hend : ∀ _ : Unit, (captured.elim (pure none) fun text =>
      finish line (String.ofList text) : Logged Slot (Option Statement)).Plain := by
    intro _
    cases captured with
    | none => exact plain_pure none
    | some text => exact finish_plain line _
  cases captured <;> cases mayContinue m slot line
  case none.true | some.true => exact (collect_plain m line).bind hend
  case none.false | some.false => exact hend ()

theorem readLine_plain : (readLine m line).Plain := by
  rw [readLine]
  split
  · exact plain_pure none
  · cases m.statement? line.toList with
    | some sql => exact (start_plain _).bind fun _ => plain_pure none
    | none => exact readOn_plain m line

end

namespace Reading
variable {m : Markers} {r : Reading}

/-- A line that no record fails is read as if recording never failed. -/
private theorem outcome_of_sound (h : r.failure? m = none) :
    (r.outcome m).value = .ok (r.slot.read m r.line).1 ∧
      (r.outcome m).state = (r.slot.read m r.line).2 := by
  rw [failure?] at h
  rw [outcome, guardedLine, recover]
  rcases hread : readLine m r.line r.recorder r.slot with ⟨words | given, slot, written⟩
  · rw [hread] at h
    cases h
  · have hquiet := (readLine_plain m r.line).agrees _ _ _ _ _ hread
    have hgives := readLine_gives m r.line r.slot
    have hvalue := hgives.value_eq
    have hstate := hgives.state_eq
    rw [hquiet] at hvalue hstate
    exact ⟨hvalue, hstate⟩

/-- A line that a record fails. -/
private theorem outcome_of_failure {words : String} (h : r.failure? m = some words)
    (hr : ∀ message, r.recorder ⟨.error, message⟩ = none) :
    (r.outcome m).value = .ok none ∧ (r.outcome m).state = .empty ∧
      (r.outcome m).records.filter (·.level = .error) =
        [⟨.error, "解析日志行失败: " ++ words ++ " (" ++ r.line ++ ")"⟩] := by
  rw [failure?] at h
  have hmild := (readLine_plain m r.line).mild r.recorder r.slot
  rw [outcome, guardedLine, recover]
  rcases hread : readLine m r.line r.recorder r.slot with ⟨cause | given, slot, written⟩
  · rw [hread] at h hmild
    obtain rfl := Option.some.inj h
    have hnone : written.filter (·.level = .error) = [] :=
      List.filter_eq_nil_iff.mpr fun record hrecord => by simpa using hmild record hrecord
    have hhandler : (do
        log .error ("解析日志行失败: " ++ cause ++ " (" ++ r.line ++ ")")
        Logged.modify fun _ => .empty
        return none : Logged Slot (Option Statement)) r.recorder slot =
        ⟨.ok none, .empty, [⟨.error, "解析日志行失败: " ++ cause ++ " (" ++ r.line ++ ")"⟩]⟩ := by
      rw [bind_apply, andThen, log, hr]
      rfl
    dsimp only
    rw [hhandler]
    refine ⟨rfl, rfl, ?_⟩
    rw [List.filter_append, hnone]
    rfl
  · rw [hread] at h
    cases h

/-- What the line gives: nothing, if a record fails it. -/
private def given (m : Markers) (r : Reading) : Option Statement :=
  if (r.failure? m).isSome then none else (r.slot.read m r.line).1

/-- The slot behind the line. -/
private def next (m : Markers) (r : Reading) : Slot :=
  if (r.failure? m).isSome then .empty else (r.slot.read m r.line).2

private theorem outcome_eq (hr : ∀ message, r.recorder ⟨.error, message⟩ = none) :
    (r.outcome m).value = .ok (r.given m) ∧ (r.outcome m).state = r.next m := by
  rw [given, next]
  cases h : r.failure? m with
  | none => exact outcome_of_sound h
  | some words =>
    obtain ⟨hvalue, hstate, -⟩ := outcome_of_failure h hr
    exact ⟨hvalue, hstate⟩

end Reading

variable {m : Markers}

private theorem exists_entry {entries : List (Recorder × String)} {slot : Slot} {r : Reading}
    (h : r ∈ readings m slot entries) : ∃ entry ∈ entries, r.recorder = entry.1 := by
  induction entries generalizing slot with
  | nil => exact absurd h List.not_mem_nil
  | cons entry entries ih =>
    rcases List.mem_cons.mp h with rfl | h
    · exact ⟨entry, List.mem_cons_self, rfl⟩
    · obtain ⟨other, hother, hr⟩ := ih h
      exact ⟨other, List.mem_cons_of_mem entry hother, hr⟩

/-- The statements of a slot and of empty slots that take over from it, each for a stretch of
lines. -/
private def overStretches (m : Markers) (slot : Slot) : List (List Reading) → List Statement
  | [] => []
  | first :: others => slot.statements m (first.map Reading.line) ++
      others.flatMap fun stretch => Slot.empty.statements m (stretch.map Reading.line)

private theorem overStretches_empty (stretches : List (List Reading)) :
    overStretches m .empty stretches =
      stretches.flatMap fun stretch => Slot.empty.statements m (stretch.map Reading.line) := by
  cases stretches <;> rfl

private theorem overStretches_modifyHead (r : Reading) {stretches : List (List Reading)}
    (h : stretches ≠ []) :
    overStretches m r.slot (stretches.modifyHead (List.cons r)) =
      (r.slot.read m r.line).1.toList ++ overStretches m (r.slot.read m r.line).2 stretches := by
  cases stretches with
  | nil => exact absurd rfl h
  | cons first others =>
    rw [List.modifyHead_cons, overStretches, overStretches, List.map_cons, Slot.statements_cons,
      List.append_assoc]

/-- What the lines give is what each stretch between failures gives by itself. -/
private theorem given_eq_overStretches (entries : List (Recorder × String))
    (h : ∀ entry ∈ entries, ∀ message, entry.1 ⟨.error, message⟩ = none) (slot : Slot) :
    ((readings m slot entries).map (Reading.given m)).reduceOption =
      overStretches m slot
        ((readings m slot entries).splitOnP fun r => (r.failure? m).isSome) := by
  induction entries generalizing slot with
  | nil => rfl
  | cons entry entries ih =>
    obtain ⟨recorder, line⟩ := entry
    rw [List.forall_mem_cons] at h
    let r : Reading := ⟨recorder, line, slot⟩
    have hnext : (r.outcome m).state = r.next m := (r.outcome_eq h.1).2
    have hrest := ih h.2 (r.outcome m).state
    change ((r :: readings m (r.outcome m).state entries).map (Reading.given m)).reduceOption =
      overStretches m r.slot
        ((r :: readings m (r.outcome m).state entries).splitOnP fun r => (r.failure? m).isSome)
    rw [List.map_cons, List.splitOnP_cons_eq_if_modifyHead]
    rw [hnext] at hrest ⊢
    cases hf : (r.failure? m).isSome with
    | true =>
      -- The slot behind the failure is the one that begins the next stretch.
      have hgiven : r.given m = none := by rw [Reading.given, if_pos hf]
      have hempty : r.next m = .empty := by rw [Reading.next, if_pos hf]
      rw [hempty] at hrest ⊢
      rw [hgiven, List.reduceOption_cons_of_none, hrest, overStretches_empty, if_pos rfl]
      rfl
    | false =>
      have hgiven : r.given m = (r.slot.read m r.line).1 := by
        rw [Reading.given, hf, if_neg Bool.false_ne_true]
      have hread : r.next m = (r.slot.read m r.line).2 := by
        rw [Reading.next, hf, if_neg Bool.false_ne_true]
      rw [if_neg Bool.false_ne_true, overStretches_modifyHead r (List.splitOnP_ne_nil _ _),
        ← hread, ← hrest, hgiven]
      cases (r.slot.read m r.line).1 with
      | none => rfl
      | some statement => rfl

/-- A line on which recording fails gives nothing, empties the slot, and is reported by one record
of an error, as long as recording that one does not fail. The lines in all give the statements that
each stretch of lines between such failures gives if it is read by itself from the beginning. -/
theorem guarded_stretches (m : Markers) (entries : List (Recorder × String))
    (h : ∀ entry ∈ entries, ∀ message, entry.1 ⟨.error, message⟩ = none) :
    (∀ r ∈ readings m .empty entries, ∀ words, r.failure? m = some words →
      (r.outcome m).value = .ok none ∧ (r.outcome m).state = .empty ∧
      (r.outcome m).records.filter (·.level = .error) =
        [⟨.error, "解析日志行失败: " ++ words ++ " (" ++ r.line ++ ")"⟩]) ∧
    ∃ (given : List (Option Statement)) (parts : List (List (Option Statement))),
      (readings m .empty entries).map (fun r => (r.outcome m).value) = given.map .ok ∧
      List.Forall₂ (fun stretch results =>
          (readLines m (stretch.map Reading.line) .quiet .empty).value = .ok results)
        ((readings m .empty entries).splitOnP fun r => (r.failure? m).isSome) parts ∧
      given.reduceOption = parts.flatMap List.reduceOption := by
  have hrecorder : ∀ r ∈ readings m .empty entries, ∀ message,
      r.recorder ⟨.error, message⟩ = none := by
    intro r hr message
    obtain ⟨entry, hentry, heq⟩ := exists_entry hr
    rw [heq, h entry hentry message]
  refine ⟨fun r hr words hwords => r.outcome_of_failure hwords (hrecorder r hr),
    (readings m .empty entries).map (Reading.given m),
    ((readings m .empty entries).splitOnP fun r => (r.failure? m).isSome).map fun stretch =>
      Slot.empty.results m (stretch.map Reading.line), ?_, ?_, ?_⟩
  · rw [List.map_map]
    exact List.map_congr_left fun r hr => (r.outcome_eq (hrecorder r hr)).1
  · rw [List.forall₂_map_right_iff, List.forall₂_same]
    exact fun stretch _ => (readLines_gives _ _).value_eq
  · rw [given_eq_overStretches entries h, overStretches_empty, List.flatMap_map]
    rfl

/-- Two statements. The record of the first one's completion fails. -/
def brokenRun : List (Recorder × String) :=
  [(.quiet, "==> Preparing: select 1"),
    (fun record => if record.level = .info then some "disk full" else none, "==> Parameters: "),
    (.quiet, "==> Preparing: select 2"), (.quiet, "==> Parameters: ")]

theorem guarded_stretches_brokenRun :
    (readings .standard .empty brokenRun).map (Reading.failure? .standard) =
      [none, some "disk full", none, none] ∧
    (∀ entry ∈ brokenRun, ∀ message, entry.1 ⟨.error, message⟩ = none) ∧
    (∀ r ∈ readings .standard .empty brokenRun, ∀ words, r.failure? .standard = some words →
      (r.outcome .standard).value = .ok none ∧ (r.outcome .standard).state = .empty ∧
      (r.outcome .standard).records.filter (·.level = .error) =
        [⟨.error, "解析日志行失败: " ++ words ++ " (" ++ r.line ++ ")"⟩]) ∧
    ∃ (given : List (Option Statement)) (parts : List (List (Option Statement))),
      (readings .standard .empty brokenRun).map (fun r => (r.outcome .standard).value) =
        given.map .ok ∧
      List.Forall₂ (fun stretch results =>
          (readLines .standard (stretch.map Reading.line) .quiet .empty).value = .ok results)
        ((readings .standard .empty brokenRun).splitOnP fun r => (r.failure? .standard).isSome)
        parts ∧
      given.reduceOption = parts.flatMap List.reduceOption := by
  have h : ∀ entry ∈ brokenRun, ∀ message, entry.1 ⟨.error, message⟩ = none := by
    simp [brokenRun, Recorder.quiet]
  exact ⟨by decide +kernel, h, guarded_stretches .standard brokenRun h⟩

end SqlRecovery.Pairing
