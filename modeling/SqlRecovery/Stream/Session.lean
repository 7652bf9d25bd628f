import SqlRecovery.Pairing
import SqlRecovery.Stream.Lines

/-! A session reads a stream chunk by chunk and hands every recovered statement to a sink. Lines are
taken off the stream before any of them is read, so a sink that fails loses the other lines of its
chunk and nothing else. -/
namespace SqlRecovery.Stream
open Marker Logged

/-- What a session keeps: the unfinished line, the waiting statement, and the state of the sink. -/
structure Session (σ : Type) where
  lines : LineAssembly
  slot : Slot
  sink : σ

/-- A sink takes statements one by one. -/
abbrev Sink (σ : Type) := Statement → Logged σ Unit

/-- The sink that keeps every statement. -/
def Sink.collect : Sink (List Statement) := fun statement => modify (· ++ [statement])

namespace Session
variable {σ : Type}

/-- A session at the beginning of a stream. -/
def fresh (sink : σ) : Session σ := ⟨.empty, .empty, sink⟩

/-- A step on the waiting statement. -/
def onSlot {α : Type} (x : Logged Slot α) : Logged (Session σ) α :=
  x.onPart Session.slot fun slot session => { session with slot }

/-- A step on the sink. -/
def onSink {α : Type} (x : Logged σ α) : Logged (Session σ) α :=
  x.onPart Session.sink fun sink session => { session with sink }

/-- Read a line and hand over the statement that it completes. The number of statements that were
handed over. -/
def deliverLine (m : Markers) (accept : Sink σ) (line : String) : Logged (Session σ) Nat := do
  match ← onSlot (Pairing.guardedLine m line) with
  | some statement =>
    onSink (accept statement)
    return 1
  | none => return 0

/-- Read lines in order. -/
def deliver (m : Markers) (accept : Sink σ) : List String → Logged (Session σ) Nat
  | [] => pure 0
  | line :: lines => do
    let first ← deliverLine m accept line
    let others ← deliver m accept lines
    return first + others

/-- A chunk of the stream arrives. -/
def feed (m : Markers) (accept : Sink σ) (chunk : List UInt8) : Logged (Session σ) Nat := do
  let session ← get
  modify fun session => { session with lines := session.lines.push chunk }
  deliver m accept (session.lines.completed chunk)

/-- The stream ends, and so does its unfinished line. -/
def finish (m : Markers) (accept : Sink σ) : Logged (Session σ) Nat := do
  let session ← get
  modify fun session => { session with lines := .empty }
  deliver m accept session.lines.last?.toList

end Session

end SqlRecovery.Stream
