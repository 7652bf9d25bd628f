import SqlRecovery.Proofs.Stream.Chunking
import SqlRecovery.Proofs.Stream.Polling

/-! Following a file that only grows. Wherever the polls fall between the writes, and wherever the
writes cut the text, the follower reads one stream: from where it began up to the last poll. -/
namespace SqlRecovery.Stream
open Marker Logged

/-- A file that grows: what it holds, what is still to be appended before each further notice of a
change, and the statements that were recovered from it. -/
structure Growing where
  contents : List UInt8
  coming : List (List UInt8)
  received : List Statement

namespace Growing

/-- The file has more bytes at its end. -/
def append (bytes : List UInt8) (g : Growing) : Growing :=
  { g with contents := g.contents ++ bytes }

/-- One more statement was recovered. -/
def receive (g : Growing) (statement : Statement) : Growing :=
  { g with received := g.received ++ [statement] }

/-- The sink that keeps the statements beside the file. -/
def accept : Sink Growing := fun statement => modify (·.receive statement)

/-- The file as the surroundings of its follower. -/
def surroundings : Surroundings Growing where
  contents g := some g.contents
  notice g := match g.coming with
    | [] => none
    | bytes :: coming => some ({ g with coming }.append bytes)

theorem accept_receives : accept.Receives receive := fun _ _ => gives_modify _ _

theorem foldl_receive (statements : List Statement) (g : Growing) :
    statements.foldl receive g = { g with received := g.received ++ statements } := by
  induction statements generalizing g with
  | nil => exact congrArg (Growing.mk g.contents g.coming) (List.append_nil _).symm
  | cons statement statements ih =>
    rw [List.foldl_cons, ih, receive, List.append_assoc, List.singleton_append]

end Growing

/-- What happens to a followed file: something is appended to it, or it is polled. -/
inductive Happening where
  | append (bytes : List UInt8)
  | poll

/-- The contents of a file at the last of its polls, or `seen` if there is none. -/
def lastPolled (contents seen : List UInt8) : List Happening → List UInt8
  | [] => seen
  | .append bytes :: happenings => lastPolled (contents ++ bytes) seen happenings
  | .poll :: happenings => lastPolled contents contents happenings

/-- The statements of a stream that arrives in one piece and then ends. -/
def inOnePiece (m : Markers) (bytes : List UInt8) : List Statement :=
  (Session.feedAll m Sink.collect [bytes] .quiet (.fresh [])).state.sink

/-- The session with no more of its sink than the statements received. -/
def Session.plain (s : Session Growing) : Session (List Statement) :=
  ⟨s.lines, s.slot, s.sink.received⟩

namespace Follower

/-- The file that the follower reads. -/
abbrev file (f : Follower Growing) : Growing := f.session.sink

/-- What becomes of a follower and its file. -/
def undergo (m : Markers) (f : Follower Growing) : Happening → Follower Growing
  | .append bytes => { f with session := { f.session with sink := f.file.append bytes } }
  | .poll => (poll m Growing.accept (some f.file.contents) .quiet f).state

end Follower

section
variable (m : Markers)

private theorem plain_past (s : Session Growing) (lines : List String) :
    (s.past m Growing.receive lines).plain = s.plain.past m Sink.keep lines := by
  simp only [Session.plain, Session.past, Growing.foldl_receive, Sink.foldl_keep]

private theorem plain_pastChunk (s : Session Growing) (chunk : List UInt8) :
    (s.pastChunk m Growing.receive chunk).plain = s.plain.pastChunk m Sink.keep chunk :=
  plain_past m { s with lines := s.lines.push chunk } _

private theorem plain_pastEnd (s : Session Growing) :
    (s.pastEnd m Growing.receive).plain = s.plain.pastEnd m Sink.keep :=
  plain_past m { s with lines := .empty } _

private theorem inOnePiece_eq (bytes : List UInt8) :
    inOnePiece m bytes =
      (((Session.fresh []).pastChunk m Sink.keep bytes).pastEnd m Sink.keep).sink := by
  have hfeed := Session.feed_gives (m := m) Sink.collect_receives bytes (.fresh [])
  have hfinish := Session.finish_gives (m := m) Sink.collect_receives
    ((Session.fresh []).pastChunk m Sink.keep bytes)
  have hall : (Session.feedAll m Sink.collect [bytes]).Gives (.fresh []) _ _ :=
    hfeed.bind ((hfinish.bind (gives_pure [_] _)).bind (gives_pure (_ :: _) _))
  rw [inOnePiece, hall.state_eq]

end

namespace Follower

/-- The follower has read the bytes of the file from its start up to what it has seen. -/
private structure Caught (m : Markers) (start : Nat) (seen : List UInt8) (f : Follower Growing) :
    Prop where
  started : start ≤ seen.length
  position : f.position = seen.length
  session : f.session.plain = (Session.fresh []).pastChunk m Sink.keep (seen.drop start)

variable {m : Markers} {start : Nat} {seen : List UInt8} {f : Follower Growing}

private theorem Caught.caughtUp (h : Caught m start seen f) (more : List UInt8) :
    Caught m start (seen ++ more) (f.caughtUp m Growing.receive (seen ++ more)) where
  started := by
    rw [List.length_append]
    exact Nat.le_add_right_of_le h.started
  position := rfl
  session := by
    rw [Follower.caughtUp, plain_pastChunk, h.session, h.position, List.drop_left,
      ← Session.pastChunk_append, List.drop_append_of_le_length h.started]

/-- A poll hands over what ends behind the position, and counts it. -/
private theorem Caught.poll_gives (h : Caught m start seen f) (more : List UInt8) :
    ∃ handed next, (poll m Growing.accept (some (seen ++ more))).Gives f (.ok handed.length) next ∧
      Caught m start (seen ++ more) next ∧
      next.file = { f.file with received := f.file.received ++ handed } := by
  have hle : f.position ≤ (seen ++ more).length := by
    rw [h.position, List.length_append]
    exact Nat.le_add_right _ _
  have hgives := Follower.poll_gives (m := m) Growing.accept_receives (seen ++ more) f
  rw [noticed_of_le hle] at hgives
  refine ⟨_, _, hgives, h.caughtUp more, ?_⟩
  rw [file, sink_caughtUp, Growing.foldl_receive]

/-- Every notice is followed by a poll. -/
private theorem Caught.heed_gives (n : Nat) (h : Caught m start seen f)
    (hfile : f.file.contents = seen) :
    ∃ handed next,
      (heed m Growing.accept Growing.surroundings n).Gives f handed.length next ∧
      Caught m start (seen ++ (f.file.coming.take n).flatten) next ∧
      next.file.received = f.file.received ++ handed := by
  induction n generalizing f seen with
  | zero =>
    refine ⟨[], f, gives_pure _ _, ?_, (List.append_nil _).symm⟩
    rw [List.take_zero, List.flatten_nil, List.append_nil]
    exact h
  | succ n ih =>
    obtain ⟨path, position, ⟨lines, slot, ⟨contents, coming, received⟩⟩⟩ := f
    obtain rfl : contents = seen := hfile
    cases coming with
    | nil =>
      refine ⟨[], _, (gives_get _).bind (gives_pure _ _), ?_, (List.append_nil _).symm⟩
      rw [List.take_nil, List.flatten_nil, List.append_nil]
      exact h
    | cons bytes coming =>
      let g : Follower Growing :=
        ⟨path, position, ⟨lines, slot, ⟨contents ++ bytes, coming, received⟩⟩⟩
      have hg : Caught m start contents g := ⟨h.started, h.position, h.session⟩
      obtain ⟨first, next, hpoll, hnext, hsink⟩ := hg.poll_gives bytes
      obtain ⟨others, last, hheed, hlast, hreceived⟩ := ih hnext (by rw [hsink])
      refine ⟨first ++ others, last, ?_, ?_, ?_⟩
      · rw [List.length_append]
        exact (gives_get _).bind ((gives_modify _ _).bind
          (hpoll.bind (hheed.bind (gives_pure _ _))))
      · rw [hsink] at hlast
        rw [List.take_succ_cons, List.flatten_cons, ← List.append_assoc]
        exact hlast
      · rw [hreceived, hsink, List.append_assoc]

/-- Behind the unfinished line all is received that the bytes give in one piece. -/
private theorem Caught.flush_gives (h : Caught m start seen f) :
    ∃ handed next, (flush m Growing.accept).Gives f handed.length next ∧
      next.position = seen.length ∧
      next.file.received = f.file.received ++ handed ∧
      next.file.received = inOnePiece m (seen.drop start) := by
  refine ⟨_, _, Follower.flush_gives Growing.accept_receives f, h.position, ?_, ?_⟩
  · change ((f.final m).foldl Growing.receive f.file).received = _
    rw [Growing.foldl_receive]
  · rw [inOnePiece_eq, ← h.session, ← plain_pastEnd]
    rfl

private theorem Caught.watch_gives (milliseconds notices : Nat) (h : Caught m start seen f)
    (hfile : seen <+: f.file.contents) :
    ∃ handed next,
      (watch m Growing.accept Growing.surroundings milliseconds notices).Gives f
        (.ok handed.length) next ∧
      next.position = (f.file.contents ++ (f.file.coming.take
        (if milliseconds = 0 then 0 else notices)).flatten).length ∧
      next.file.received = f.file.received ++ handed ∧
      next.file.received = inOnePiece m ((f.file.contents ++
        (f.file.coming.take (if milliseconds = 0 then 0 else notices)).flatten).drop start)
      := by
  obtain ⟨more, hmore⟩ := hfile
  obtain ⟨first, second, hpoll, hsecond, hsink⟩ := h.poll_gives more
  rw [hmore] at hpoll hsecond
  obtain ⟨later, third, hheed, hthird, hlater⟩ :=
    hsecond.heed_gives (if milliseconds = 0 then 0 else notices) (by rw [hsink])
  obtain ⟨last, next, hflush, hposition, hlast, hall⟩ := hthird.flush_gives
  rw [hsink] at hlater hposition hall
  refine ⟨first ++ later ++ last, next, ?_, hposition, ?_, hall⟩
  · rw [List.length_append, List.length_append]
    exact (gives_get f).bind ((gives_log _ _ _).bind (hpoll.bind (hheed.bind
      (hflush.bind ((gives_log _ _ _).bind (gives_pure _ _))))))
  · rw [hlast, hlater, List.append_assoc, List.append_assoc, List.append_assoc]

private theorem Caught.undergo (h : Caught m start seen f)
    (hfile : seen <+: f.file.contents) (happenings : List Happening) :
    Caught m start (lastPolled f.file.contents seen happenings)
        (happenings.foldl (Follower.undergo m) f) ∧
      lastPolled f.file.contents seen happenings <+:
        (happenings.foldl (Follower.undergo m) f).session.sink.contents ∧
      (happenings.foldl (Follower.undergo m) f).session.sink.coming = f.file.coming := by
  induction happenings generalizing f seen with
  | nil => exact ⟨h, hfile, rfl⟩
  | cons happening happenings ih =>
    cases happening with
    | append bytes =>
      have hnext : Caught m start seen (f.undergo m (.append bytes)) :=
        ⟨h.started, h.position, h.session⟩
      exact ih hnext (hfile.trans (List.prefix_append _ _))
    | poll =>
      obtain ⟨more, hmore⟩ := hfile
      obtain ⟨handed, next, hpoll, hnext, hsink⟩ := h.poll_gives more
      rw [hmore] at hpoll hnext
      have hundergo : f.undergo m .poll = next := hpoll.state_eq
      have hcontents : next.file.contents = f.file.contents := by rw [hsink]
      have hcoming : next.file.coming = f.file.coming := by rw [hsink]
      have hall : f.file.contents <+: next.file.contents :=
        ⟨[], by rw [List.append_nil, hcontents]⟩
      have hrest := ih hnext hall
      rw [hcontents, hcoming] at hrest
      rw [List.foldl_cons, hundergo]
      exact hrest

private theorem begin?_caught (m : Markers) (path : String) (content : List UInt8) (whole : Bool)
    (coming : List (List UInt8)) :
    ∃ begun, begin? path (some content) whole ⟨content, coming, []⟩ = .ok begun ∧
      begun.file = ⟨content, coming, []⟩ ∧
      Caught m (if whole then 0 else content.length)
        (content.take (if whole then 0 else content.length)) begun := by
  cases whole with
  | true => exact ⟨_, rfl, rfl, Nat.zero_le _, rfl, rfl⟩
  | false =>
    refine ⟨_, rfl, rfl, Nat.le_of_eq ?_, ?_, ?_⟩
    · rw [if_neg Bool.false_ne_true, List.take_length]
    · rw [if_neg Bool.false_ne_true, List.take_length]
      rfl
    · rw [if_neg Bool.false_ne_true, List.take_length, List.drop_length]
      rfl

/-- A follower begins at the end of a file or at its beginning, and from then on the file only
grows. A poll reads up to the end of the file, and every call counts the statements that it hands
over. Once the unfinished line is flushed, all statements are received that the bytes from the start
up to the last poll give in one piece. So it is when notices of changes lead to the polls. -/
theorem reads_growing_file (m : Markers) (path : String) (content : List UInt8) (whole : Bool)
    (coming : List (List UInt8)) (happenings : List Happening) :
    ∃ begun, begin? path (some content) whole ⟨content, coming, []⟩ = .ok begun ∧
      let start := if whole then 0 else content.length
      let f := happenings.foldl (undergo m) begun
      (∃ handed next,
        (poll m Growing.accept (some f.file.contents)).Gives f (.ok handed.length) next ∧
        next.position = f.file.contents.length ∧
        next.file.received = f.file.received ++ handed) ∧
      (∃ handed next,
        (flush m Growing.accept).Gives f handed.length next ∧
        next.file.received = f.file.received ++ handed ∧
        next.file.received =
          inOnePiece m ((lastPolled content (content.take start) happenings).drop start)) ∧
      ∀ milliseconds notices,
        let seen := f.file.contents ++
          (coming.take (if milliseconds = 0 then 0 else notices)).flatten
        ∃ handed next,
          (watch m Growing.accept Growing.surroundings milliseconds notices).Gives f
            (.ok handed.length) next ∧
          next.position = seen.length ∧
          next.file.received = f.file.received ++ handed ∧
          next.file.received = inOnePiece m (seen.drop start) := by
  obtain ⟨begun, hbegin, hfile, hbegun⟩ := begin?_caught m path content whole coming
  have hseen : content.take (if whole then 0 else content.length) <+: begun.file.contents := by
    rw [hfile]
    exact List.take_prefix _ _
  obtain ⟨hcaught, ⟨more, hmore⟩, hcoming⟩ := hbegun.undergo hseen happenings
  rw [hfile] at hcaught hmore hcoming
  refine ⟨begun, hbegin, ?_, ?_, ?_⟩
  · obtain ⟨handed, next, hgives, hnext, hsink⟩ := hcaught.poll_gives more
    rw [hmore] at hgives hnext
    exact ⟨handed, next, hgives, hnext.position, by rw [hsink]⟩
  · obtain ⟨handed, next, hgives, -, hreceived⟩ := hcaught.flush_gives
    exact ⟨handed, next, hgives, hreceived⟩
  · intro milliseconds notices
    have hwatch := hcaught.watch_gives milliseconds notices ⟨more, hmore⟩
    rw [hcoming] at hwatch
    exact hwatch

end Follower

end SqlRecovery.Stream
