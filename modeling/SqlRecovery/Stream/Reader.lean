import SqlRecovery.Failure
import SqlRecovery.Stream.Session

/-! Recovery from a whole text and from a reader that returns one chunk after the other. -/
namespace SqlRecovery.Stream
open Marker Logged

/-- What one read comes to. -/
inductive ReadEvent where
  | chunk (bytes : List UInt8)
  | interrupted
  | failed (reason : IoFault)

/-- The statements of a text, read line by line. -/
def ofLines (m : Markers) : List String → Logged Slot (List Statement)
  | [] => pure []
  | line :: lines => do
    let first ← Pairing.guardedLine m line
    let others ← ofLines m lines
    return first.toList ++ others

/-- The statements of a whole text. -/
def ofText (m : Markers) (text : String) : Logged Slot (List Statement) :=
  ofLines m (textLines text)

/-- Read to the end of the stream, which an empty chunk announces, or up to a read that fails. An
interrupted read is tried again. The number of statements that were handed over. -/
def readEvents {σ : Type} (m : Markers) (accept : Sink σ) :
    List ReadEvent → Logged (Session σ) (Except Failure Nat)
  | [] | .chunk [] :: _ => do return .ok (← Session.finish m accept)
  | .interrupted :: events => readEvents m accept events
  | .failed reason :: _ => return .error (.io reason)
  | .chunk (b :: bytes) :: events => do
    let first ← Session.feed m accept (b :: bytes)
    return (← readEvents m accept events).map (first + ·)

/-- The statements of a reader, or the failure that ended it. -/
def collectEvents (m : Markers) (events : List ReadEvent) :
    Logged (Session (List Statement)) (Except Failure (List Statement)) := do
  match ← readEvents m Sink.collect events with
  | .ok _ => return .ok (← get).sink
  | .error failure => return .error failure

end SqlRecovery.Stream
