import SqlRecovery.Proofs.Stream.Delivery
import SqlRecovery.Stream.Follower

/-! What the calls of a follower come to whose sink takes every statement. -/
namespace SqlRecovery.Stream.Follower
open Marker Logged
variable {σ : Type} (m : Markers) (receive : σ → Statement → σ)

/-- Begin at the end of the file, or at its beginning. -/
def begin? (path : String) (contents : Option (List UInt8)) (whole : Bool) (sink : σ) :
    Except Failure (Follower σ) :=
  (open? path contents sink).map fun f => if whole then f.fromBeginning else f

/-- The follower that has noticed the length of the file. -/
def noticed (length : Nat) (f : Follower σ) : Follower σ :=
  if length < f.position then f.restart else f

/-- The statements that end behind the position. -/
def further (contents : List UInt8) (f : Follower σ) : List Statement :=
  f.session.slot.statements m (f.session.lines.completed (contents.drop f.position))

/-- The follower that has read what stands behind its position. -/
def caughtUp (contents : List UInt8) (f : Follower σ) : Follower σ :=
  { f with
    position := contents.length
    session := f.session.pastChunk m receive (contents.drop f.position) }

/-- The statements that end with the unfinished line. -/
def final (f : Follower σ) : List Statement :=
  f.session.slot.statements m f.session.lines.last?.toList

theorem sink_caughtUp (contents : List UInt8) (f : Follower σ) :
    (f.caughtUp m receive contents).session.sink =
      (f.further m contents).foldl receive f.session.sink := rfl

theorem noticed_of_le {length : Nat} {f : Follower σ} (h : f.position ≤ length) :
    f.noticed length = f := if_neg (Nat.not_lt.mpr h)

private theorem position_noticed_le (length : Nat) (f : Follower σ) :
    (f.noticed length).position ≤ length := by
  rw [noticed]
  split
  · exact Nat.zero_le _
  · omega

variable {m receive} {accept : Sink σ}

private theorem notice_gives (length : Nat) (f : Follower σ) :
    (notice length).Gives f () (f.noticed length) := by
  refine (gives_get f).bind ?_
  rw [noticed]
  split
  · exact (gives_log _ _ _).bind (gives_modify _ _)
  · exact gives_pure _ _

private theorem onSession_gives {α : Type} {x : Logged (Session σ) α} {f : Follower σ} {a : α}
    {session : Session σ} (h : x.Gives f.session a session) :
    (onSession x).Gives f a { f with session } :=
  h.onPart fun session (f : Follower σ) => { f with session }

/-- A poll reads all that is new in the file, and the whole file if it became shorter. -/
theorem poll_gives (h : accept.Receives receive) (contents : List UInt8) (f : Follower σ) :
    (poll m accept (some contents)).Gives f
      (.ok ((f.noticed contents.length).further m contents).length)
      ((f.noticed contents.length).caughtUp m receive contents) := by
  refine (notice_gives contents.length f).bind ((gives_get _).bind ?_)
  have hle := position_noticed_le contents.length f
  generalize f.noticed contents.length = g at hle
  have hlength : g.position + (contents.drop g.position).length = contents.length := by
    rw [List.length_drop]
    omega
  rw [caughtUp, ← hlength]
  exact (gives_modify _ _).bind ((onSession_gives (Session.feed_gives h _ _)).bind (gives_pure _ _))

theorem flush_gives (h : accept.Receives receive) (f : Follower σ) :
    (flush m accept).Gives f (f.final m).length
      { f with session := f.session.pastEnd m receive } :=
  onSession_gives (Session.finish_gives h f.session)

end SqlRecovery.Stream.Follower
