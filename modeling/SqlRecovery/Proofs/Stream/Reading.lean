import SqlRecovery.Proofs.Stream.Delivery
import SqlRecovery.Stream.Reader

/-! Reading from a reader some of whose reads fail. An interrupted read makes no difference. Any other
failure ends the reading: the statements of the finished lines have been handed over by then, and the
unfinished line is left as it is. -/
namespace SqlRecovery.Stream
open Marker Logged

namespace ReadEvent

/-- The bytes that the read returns. -/
def bytes : ReadEvent → List UInt8
  | .chunk bytes => bytes
  | .interrupted | .failed _ => []

/-- There is no read behind this one: it fails for good, or returns nothing. -/
def isLast : ReadEvent → Bool
  | .chunk bytes => bytes.isEmpty
  | .interrupted => false
  | .failed _ => true

/-- The reason for which the read fails for good. -/
def fault? : ReadEvent → Option IoFault
  | .chunk _ | .interrupted => none
  | .failed reason => some reason

end ReadEvent

/-- The bytes that arrive before the last read. -/
def arrived (events : List ReadEvent) : List UInt8 :=
  (events.takeWhile (!·.isLast)).flatMap ReadEvent.bytes

/-- The reason for which the last read fails, if it does. -/
def fault? (events : List ReadEvent) : Option IoFault :=
  (events.find? ReadEvent.isLast).bind ReadEvent.fault?

/-- The line feed, which ends a line. -/
def lineFeed : UInt8 := 0x0A

/-- The unfinished line at the end of a stream, if there is one. -/
def unfinished (rest : List UInt8) : List String := if rest.isEmpty then [] else [lineText rest]

theorem ofLines_gives (m : Markers) (lines : List String) (slot : Slot) :
    (ofLines m lines).Gives slot (slot.statements m lines) (slot.afterLines m lines) := by
  induction lines generalizing slot with
  | nil => exact gives_pure _ _
  | cons line lines ih =>
    rw [Slot.statements_cons]
    exact (Pairing.guardedLine_gives m line slot).bind ((ih _).bind (gives_pure _ _))

private theorem remaining_empty (bytes : List UInt8) :
    LineAssembly.empty.remaining bytes =
      (cutAt lineFeed bytes).1.map lineText ++ unfinished (cutAt lineFeed bytes).2 := by
  have hlast : (LineAssembly.empty.push bytes).last?.toList =
      unfinished (cutAt lineFeed bytes).2 := by
    change Option.toList (if (cutAt lineFeed bytes).2.isEmpty then none else _) = _
    rw [unfinished]
    split <;> rfl
  rw [LineAssembly.remaining, hlast]
  rfl

/-- An interrupted read is as if it had not been tried. -/
theorem readEvents_interrupted {σ : Type} (m : Markers) (accept : Sink σ)
    (before after : List ReadEvent) :
    readEvents m accept (before ++ .interrupted :: after) = readEvents m accept (before ++ after) := by
  induction before with
  | nil => rfl
  | cons event before ih =>
    cases event with
    | interrupted => exact ih
    | failed reason => rfl
    | chunk bytes =>
      cases bytes with
      | nil => rfl
      | cons b bytes =>
        rw [List.cons_append, readEvents, ih]
        rfl

namespace Session
variable {σ : Type} (m : Markers) (receive : σ → Statement → σ) {s : Session σ}

/-- Between two reads no finished line is left over. -/
private theorem pastChunk_nil {before : List UInt8} (hs : s.lines = .push .empty before) :
    s.pastChunk m receive [] = s := by
  obtain ⟨lines, slot, sink⟩ := s
  obtain rfl : lines = .push .empty before := hs
  rw [pastChunk, LineAssembly.push_push_nil, LineAssembly.completed_push_nil]
  rfl

theorem pastChunk_lines {before : List UInt8} (hs : s.lines = .push .empty before)
    (chunk : List UInt8) : (s.pastChunk m receive chunk).lines = .push .empty (before ++ chunk) := by
  rw [LineAssembly.push_append, ← hs]
  rfl

/-- The end of the stream behind a chunk is the end behind all lines that are still to come. -/
theorem pastEnd_pastChunk (s : Session σ) (chunk : List UInt8) :
    (s.pastChunk m receive chunk).pastEnd m receive =
      { s with lines := .empty }.past m receive (s.lines.remaining chunk) := by
  rw [LineAssembly.remaining, past_append]
  rfl

/-- The statements of a stream are those of the lines that its beginning completes, and those of the
lines that remain behind it. -/
theorem length_past_remaining (s : Session σ) (first second : List UInt8) :
    (s.slot.statements m (s.lines.remaining (first ++ second))).length =
      (s.slot.statements m (s.lines.completed first)).length +
        ((s.pastChunk m receive first).slot.statements m
          ((s.pastChunk m receive first).lines.remaining second)).length := by
  rw [LineAssembly.remaining_append, Slot.statements_append, List.length_append]
  rfl

end Session

section
variable {σ : Type} (m : Markers) (receive : σ → Statement → σ)

/-- What reading comes to, by the bytes that arrive and by how it ends. -/
def ending (s : Session σ) (bytes : List UInt8) :
    Option IoFault → Except Failure Nat × Session σ
  | some reason => (.error (.io reason), s.pastChunk m receive bytes)
  | none => (.ok (s.slot.statements m (s.lines.remaining bytes)).length,
      (s.pastChunk m receive bytes).pastEnd m receive)

private theorem ending_append (s : Session σ) (first second : List UInt8) (reason? : Option IoFault) :
    ending m receive s (first ++ second) reason? =
      ((ending m receive (s.pastChunk m receive first) second reason?).1.map
          ((s.slot.statements m (s.lines.completed first)).length + ·),
        (ending m receive (s.pastChunk m receive first) second reason?).2) := by
  cases reason? with
  | some reason => rw [ending, Session.pastChunk_append]; rfl
  | none =>
    rw [ending, Session.pastChunk_append, Session.length_past_remaining m receive s first second]
    rfl

variable {m receive}

private theorem finish_ending {accept : Sink σ} (h : accept.Receives receive) {s : Session σ}
    {before : List UInt8} (hs : s.lines = .push .empty before) :
    (do return .ok (← Session.finish m accept) : Logged (Session σ) (Except Failure Nat)).Gives s
      (ending m receive s [] none).1 (ending m receive s [] none).2 := by
  rw [ending, Session.pastChunk_nil _ _ hs, hs, LineAssembly.remaining_push_nil, ← hs]
  exact (Session.finish_gives h s).bind (gives_pure _ _)

/-- The bytes that arrive before the last read are all that counts, and how that read ends. -/
theorem readEvents_ending {accept : Sink σ} (h : accept.Receives receive)
    (events : List ReadEvent) (s : Session σ) (before : List UInt8)
    (hs : s.lines = .push .empty before) :
    (readEvents m accept events).Gives s (ending m receive s (arrived events) (fault? events)).1
      (ending m receive s (arrived events) (fault? events)).2 := by
  -- The session stands anywhere in the stream; `before` are the bytes that it has seen.
  induction events generalizing before s with
  | nil => exact finish_ending h hs
  | cons event events ih =>
    cases event with
    | interrupted => exact ih s before hs
    | failed reason =>
      have hend : ending m receive s [] (some reason) = (.error (.io reason), s) := by
        rw [ending, Session.pastChunk_nil _ _ hs]
      have hevents : ending m receive s (arrived (.failed reason :: events))
          (fault? (.failed reason :: events)) = ending m receive s [] (some reason) := rfl
      rw [hevents, hend]
      exact gives_pure _ _
    | chunk bytes =>
      cases bytes with
      | nil => exact finish_ending h hs
      | cons b bytes =>
        have hevents : ending m receive s (arrived (.chunk (b :: bytes) :: events))
            (fault? (.chunk (b :: bytes) :: events)) =
            ending m receive s ((b :: bytes) ++ arrived events) (fault? events) := rfl
        rw [hevents, ending_append]
        exact (Session.feed_gives h (b :: bytes) s).bind
          ((ih _ _ (Session.pastChunk_lines m receive hs (b :: bytes))).bind (gives_pure _ _))

/-- Collecting gives what the sink has kept when reading ends well. -/
private theorem collectEvents_reached {events : List ReadEvent} {s t : Session (List Statement)}
    {reached : Except Failure Nat} (h : (readEvents m Sink.collect events).Gives s reached t) :
    (collectEvents m events).Gives s (reached.map fun _ => t.sink) t := by
  cases reached with
  | error failure => exact h.bind (gives_pure _ _)
  | ok count => exact h.bind ((gives_get t).bind (gives_pure _ _))

/-- Collecting ends with the failure that ended reading. -/
theorem collectEvents_failed {events : List ReadEvent} {reason : IoFault}
    (h : fault? events = some reason) :
    (collectEvents m events).Gives (.fresh []) (.error (.io reason))
      ((Session.fresh []).pastChunk m Sink.keep (arrived events)) := by
  have hread := readEvents_ending (m := m) Sink.collect_receives events (.fresh []) [] rfl
  rw [h] at hread
  exact collectEvents_reached hread

/-- Collecting gives the statements of all lines, the unfinished one included. -/
theorem collectEvents_whole {events : List ReadEvent} (h : fault? events = none) :
    (collectEvents m events).Gives (.fresh [])
      (.ok (Slot.empty.statements m (LineAssembly.empty.remaining (arrived events))))
      ((Session.fresh []).past m Sink.keep (LineAssembly.empty.remaining (arrived events))) := by
  have hread := readEvents_ending (m := m) Sink.collect_receives events (.fresh []) [] rfl
  rw [h, ending, Session.pastEnd_pastChunk] at hread
  have hcollect := collectEvents_reached hread
  rw [Session.past, Sink.foldl_keep] at hcollect
  rw [Session.past, Sink.foldl_keep]
  exact hcollect

end

/-- A reader is read up to the first read that fails for good or returns nothing; interrupted reads
make no difference. The bytes that arrive before are finished lines and the rest behind the last line
feed. After a failure the sink has received the statements of the finished lines, in order, the rest
still waits, and the failure is what reading comes to. At the end of the stream the rest is a line too,
and reading comes to the number of statements. Collecting gives these statements, or the failure. -/
theorem reading_gives_finished {σ : Type} (m : Markers) {accept : Sink σ}
    {receive : σ → Statement → σ} (h : accept.Receives receive) (sink : σ)
    (events : List ReadEvent) :
    (∀ before after, events = before ++ .interrupted :: after →
      readEvents m accept events = readEvents m accept (before ++ after)) ∧
    ∃ (finished : List (List UInt8)) (rest : List UInt8),
      arrived events = finished.flatMap (· ++ [lineFeed]) ++ rest ∧
      (∀ line ∈ finished, lineFeed ∉ line) ∧ lineFeed ∉ rest ∧
      match fault? events with
      | some reason => ∃ statements slot,
        (ofLines m (finished.map lineText)).Gives .empty statements slot ∧
        (readEvents m accept events).Gives (.fresh sink) (.error (.io reason))
          ⟨⟨rest⟩, slot, statements.foldl receive sink⟩ ∧
        (collectEvents m events .quiet (.fresh [])).value = .ok (.error (.io reason))
      | none => ∃ statements slot,
        (ofLines m (finished.map lineText ++ unfinished rest)).Gives .empty statements slot ∧
        (readEvents m accept events).Gives (.fresh sink) (.ok statements.length)
          ⟨.empty, slot, statements.foldl receive sink⟩ ∧
        (collectEvents m events .quiet (.fresh [])).value = .ok (.ok statements) := by
  refine ⟨?_, (cutAt lineFeed (arrived events)).1, (cutAt lineFeed (arrived events)).2,
    (flatMap_cutAt _ _).symm, (not_mem_cutAt _ _).1, (not_mem_cutAt _ _).2, ?_⟩
  · rintro before after rfl
    exact readEvents_interrupted m accept before after
  · have hread := readEvents_ending (m := m) h events (.fresh sink) [] rfl
    cases hfault : fault? events with
    | some reason =>
      rw [hfault] at hread
      exact ⟨_, _, ofLines_gives m _ .empty, hread, (collectEvents_failed hfault).value_eq⟩
    | none =>
      rw [hfault, ending, Session.pastEnd_pastChunk] at hread
      rw [← remaining_empty]
      exact ⟨_, _, ofLines_gives m _ .empty, hread, (collectEvents_whole hfault).value_eq⟩

/-- The first statement's parameters marker comes in two pieces, with an interruption between them.
A second statement has just begun when a read fails; what could be read behind is out of reach. -/
def brokenOff : List ReadEvent :=
  [.chunk "==> Preparing: select 1\n==> Para".toUTF8.data.toList, .interrupted,
    .chunk "meters: \n==> Prep".toUTF8.data.toList, .failed (.other "boom"),
    .chunk "aring: select 2\n==> Parameters: \n".toUTF8.data.toList]

theorem reading_gives_finished_brokenOff :
    Sink.collect.Receives Sink.keep ∧ fault? brokenOff = some (.other "boom") ∧
    (cutAt lineFeed (arrived brokenOff)).1.map lineText =
      ["==> Preparing: select 1", "==> Parameters: "] ∧
    (∀ before after, brokenOff = before ++ .interrupted :: after →
      readEvents .standard Sink.collect brokenOff =
        readEvents .standard Sink.collect (before ++ after)) ∧
    ∃ (finished : List (List UInt8)) (rest : List UInt8),
      arrived brokenOff = finished.flatMap (· ++ [lineFeed]) ++ rest ∧
      (∀ line ∈ finished, lineFeed ∉ line) ∧ lineFeed ∉ rest ∧
      ∃ statements slot,
        (ofLines .standard (finished.map lineText)).Gives .empty statements slot ∧
        (readEvents .standard Sink.collect brokenOff).Gives (.fresh [])
          (.error (.io (.other "boom"))) ⟨⟨rest⟩, slot, statements.foldl Sink.keep []⟩ ∧
        (collectEvents .standard brokenOff .quiet (.fresh [])).value =
          .ok (.error (.io (.other "boom"))) :=
  ⟨Sink.collect_receives, by decide, by decide,
    reading_gives_finished .standard Sink.collect_receives [] brokenOff⟩

end SqlRecovery.Stream
