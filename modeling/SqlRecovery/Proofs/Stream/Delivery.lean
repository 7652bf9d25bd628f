import SqlRecovery.Proofs.Pairing.Step
import SqlRecovery.Proofs.Stream.Lines
import SqlRecovery.Stream.Session

/-! What the calls of a session come to whose sink takes every statement: the slot goes through the
lines, and the sink through the statements that they give. -/
namespace SqlRecovery.Stream
open Marker Logged
variable {σ : Type}

/-- The sink never fails. A statement takes it from one state to the next as `receive` says. -/
def Sink.Receives (accept : Sink σ) (receive : σ → Statement → σ) : Prop :=
  ∀ statement sink, (accept statement).Gives sink () (receive sink statement)

/-- The statements received, with one more. -/
def Sink.keep (received : List Statement) (statement : Statement) : List Statement :=
  received ++ [statement]

theorem Sink.collect_receives : collect.Receives keep := fun _ _ => gives_modify _ _

theorem Sink.foldl_keep (statements received : List Statement) :
    statements.foldl keep received = received ++ statements := by
  induction statements generalizing received with
  | nil => exact (List.append_nil _).symm
  | cons statement statements ih =>
    rw [List.foldl_cons, ih, keep, List.append_assoc, List.singleton_append]

namespace Session

theorem onSlot_gives {α : Type} {x : Logged Slot α} {s : Session σ} {a : α} {slot : Slot}
    (h : x.Gives s.slot a slot) : (onSlot x).Gives s a { s with slot } :=
  h.onPart fun slot (session : Session σ) => { session with slot }

theorem onSink_gives {α : Type} {x : Logged σ α} {s : Session σ} {a : α} {sink : σ}
    (h : x.Gives s.sink a sink) : (onSink x).Gives s a { s with sink } :=
  h.onPart fun sink (session : Session σ) => { session with sink }

theorem onSink_stops {α : Type} {x : Logged σ α} {s : Session σ} {words : String} {sink : σ}
    (h : x.Stops s.sink words sink) : (onSink x).Stops s words { s with sink } :=
  h.onPart fun sink (session : Session σ) => { session with sink }

variable (m : Markers) (receive : σ → Statement → σ)

/-- The session behind these lines. -/
def past (s : Session σ) (lines : List String) : Session σ :=
  { s with
    slot := s.slot.afterLines m lines
    sink := (s.slot.statements m lines).foldl receive s.sink }

theorem past_append (s : Session σ) (first second : List String) :
    s.past m receive (first ++ second) = (s.past m receive first).past m receive second := by
  simp only [past, Slot.statements_append, Slot.afterLines_append, List.foldl_append]

theorem past_cons (s : Session σ) (line : String) (lines : List String) :
    s.past m receive (line :: lines) = (s.past m receive [line]).past m receive lines :=
  past_append m receive s [line] lines

/-- The session behind a chunk. -/
def pastChunk (s : Session σ) (chunk : List UInt8) : Session σ :=
  { s with lines := s.lines.push chunk }.past m receive (s.lines.completed chunk)

/-- The session behind the end of the stream. -/
def pastEnd (s : Session σ) : Session σ :=
  { s with lines := .empty }.past m receive s.lines.last?.toList

/-- A chunk that is cut in two leaves what the whole chunk leaves. -/
theorem pastChunk_append (s : Session σ) (first second : List UInt8) :
    s.pastChunk m receive (first ++ second) =
      (s.pastChunk m receive first).pastChunk m receive second := by
  simp only [pastChunk, LineAssembly.completed_append, past_append, LineAssembly.push_append]
  rfl

variable {m receive} {accept : Sink σ}

private theorem deliverLine_gives (h : accept.Receives receive) (line : String) (s : Session σ) :
    (deliverLine m accept line).Gives s (s.slot.statements m [line]).length
      (s.past m receive [line]) := by
  refine (onSlot_gives (Pairing.guardedLine_gives m line s.slot)).bind ?_
  rw [past, Slot.statements_cons]
  cases (s.slot.read m line).1 with
  | none => exact gives_pure _ _
  | some statement => exact (onSink_gives (h statement _)).bind (gives_pure 1 _)

theorem deliver_gives (h : accept.Receives receive) (lines : List String) (s : Session σ) :
    (deliver m accept lines).Gives s (s.slot.statements m lines).length
      (s.past m receive lines) := by
  induction lines generalizing s with
  | nil => exact gives_pure _ _
  | cons line lines ih =>
    rw [past_cons, Slot.length_statements_cons]
    exact (deliverLine_gives h line s).bind ((ih _).bind (gives_pure _ _))

theorem feed_gives (h : accept.Receives receive) (chunk : List UInt8) (s : Session σ) :
    (feed m accept chunk).Gives s (s.slot.statements m (s.lines.completed chunk)).length
      (s.pastChunk m receive chunk) :=
  (gives_get s).bind ((gives_modify _ _).bind (deliver_gives h _ _))

theorem finish_gives (h : accept.Receives receive) (s : Session σ) :
    (finish m accept).Gives s (s.slot.statements m s.lines.last?.toList).length
      (s.pastEnd m receive) :=
  (gives_get s).bind ((gives_modify _ _).bind (deliver_gives h _ _))

end Session

end SqlRecovery.Stream
