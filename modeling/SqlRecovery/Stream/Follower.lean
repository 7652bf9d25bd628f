import SqlRecovery.Failure
import SqlRecovery.Stream.Session

/-! Following a file that grows. A follower remembers how many bytes it has read; a file that has
become shorter is read again from its beginning as a new stream. -/
namespace SqlRecovery.Stream
open Marker Logged

/-- A file being followed: where reading goes on, and the session that reads it. -/
structure Follower (σ : Type) where
  path : String
  position : Nat
  session : Session σ

/-- What surrounds a follower that waits for changes: the present bytes of the file, if there is
one, and the next notice of a change, taken from those that have arrived. -/
structure Surroundings (σ : Type) where
  contents : σ → Option (List UInt8)
  notice : σ → Option σ

namespace Follower
variable {σ : Type}

/-- Begin at the end of the file. -/
def open? (path : String) (contents : Option (List UInt8)) (sink : σ) :
    Except Failure (Follower σ) :=
  match contents with
  | none => .error (.inaccessible path .noSuchFile)
  | some bytes => .ok ⟨path, bytes.length, .fresh sink⟩

/-- Go on reading at the beginning of the file. -/
def fromBeginning (f : Follower σ) : Follower σ := { f with position := 0 }

/-- Forget the stream so far and go on at the beginning of the file. -/
def restart (f : Follower σ) : Follower σ :=
  { f with position := 0, session := .fresh f.session.sink }

/-- A step of the session. -/
def onSession {α : Type} (x : Logged (Session σ) α) : Logged (Follower σ) α :=
  x.onPart Follower.session fun session f => { f with session }

/-- Start again if the file is shorter than what was read of it. -/
def notice (length : Nat) : Logged (Follower σ) Unit := do
  let f ← get
  if length < f.position then
    log .warn (f.path ++ " 被截断，从头重新读取")
    modify restart

/-- Read what is new in the file. The number of statements that were handed over. -/
def poll (m : Markers) (accept : Sink σ) (contents : Option (List UInt8)) :
    Logged (Follower σ) (Except Failure Nat) :=
  match contents with
  | none => pure (.error (.io .noSuchFile))
  | some bytes => do
    notice bytes.length
    let f ← get
    let fresh := bytes.drop f.position
    modify fun f => { f with position := f.position + fresh.length }
    return .ok (← onSession (Session.feed m accept fresh))

/-- Read the unfinished line as the last one. -/
def flush (m : Markers) (accept : Sink σ) : Logged (Follower σ) Nat :=
  onSession (Session.finish m accept)

/-- Poll once for every notice, up to a number of them. A poll that fails is reported. -/
def heed (m : Markers) (accept : Sink σ) (around : Surroundings σ) : Nat → Logged (Follower σ) Nat
  | 0 => pure 0
  | n + 1 => do
    match around.notice (← get).session.sink with
    | none => return 0
    | some sink =>
      modify fun f => { f with session := { f.session with sink } }
      match ← poll m accept (around.contents sink) with
      | .ok first => return first + (← heed m accept around n)
      | .error failure =>
        log .error ("读取文件失败: " ++ failure.message)
        heed m accept around n

/-- Follow the file for a time: poll, poll again for every notice that arrives, and read the
unfinished line at the end. -/
def watch (m : Markers) (accept : Sink σ) (around : Surroundings σ) (milliseconds notices : Nat) :
    Logged (Follower σ) (Except Failure Nat) := do
  let f ← get
  if (around.contents f.session.sink).isNone then return .error (.unwatchable f.path)
  log .info ("开始监控文件 " ++ f.path ++ ", 持续 " ++ toString milliseconds ++ " 毫秒")
  match ← poll m accept (around.contents f.session.sink) with
  | .error failure => return .error failure
  | .ok first =>
    let later ← heed m accept around (if milliseconds = 0 then 0 else notices)
    let last ← flush m accept
    log .info ("监控结束，共还原 " ++ toString (first + later + last) ++ " 条 SQL")
    return .ok (first + later + last)

end Follower

end SqlRecovery.Stream
