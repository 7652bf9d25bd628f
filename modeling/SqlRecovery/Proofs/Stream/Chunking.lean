import Mathlib.Algebra.GroupWithZero.Nat
import SqlRecovery.Proofs.Stream.Reading

/-! However the bytes of a text arrive, the same statements are recovered from them: from the whole
text, from a reader that returns it in chunks, and from a session that is fed in chunks. -/
namespace SqlRecovery.Stream
open Text Marker Logged

/-- The bytes that a reader returns up to the end of the stream, if no read fails. -/
def supplied : List ReadEvent → Option (List UInt8)
  | [] | .chunk [] :: _ => some []
  | .interrupted :: events => supplied events
  | .failed _ :: _ => none
  | .chunk (b :: bytes) :: events => (supplied events).map ((b :: bytes) ++ ·)

/-- Feed the chunks in order and end the stream. The numbers that the calls return. -/
def Session.feedAll {σ : Type} (m : Markers) (accept : Sink σ) :
    List (List UInt8) → Logged (Session σ) (List Nat)
  | [] => do return [← finish m accept]
  | chunk :: chunks => do
    let first ← feed m accept chunk
    return first :: (← feedAll m accept chunks)

namespace Session
variable (m : Markers)

/-- The session behind these lines, if its sink keeps every statement. -/
def behind (s : Session (List Statement)) (lines : List String) : Session (List Statement) :=
  { s with
    slot := s.slot.afterLines m lines
    sink := s.sink ++ s.slot.statements m lines }

private theorem past_keep (s : Session (List Statement)) (lines : List String) :
    s.past m Sink.keep lines = s.behind m lines := by
  rw [past, Sink.foldl_keep, behind]

private theorem behind_append (s : Session (List Statement)) (first second : List String) :
    s.behind m (first ++ second) = (s.behind m first).behind m second := by
  simp only [behind, Slot.statements_append, Slot.afterLines_append, List.append_assoc]

/-- The session behind a chunk. -/
def fed (s : Session (List Statement)) (chunk : List UInt8) : Session (List Statement) :=
  { s with lines := s.lines.push chunk }.behind m (s.lines.completed chunk)

private theorem pastChunk_keep (s : Session (List Statement)) (chunk : List UInt8) :
    s.pastChunk m Sink.keep chunk = s.fed m chunk := past_keep m _ _

private theorem feed_collect_gives (chunk : List UInt8) (s : Session (List Statement)) :
    (feed m Sink.collect chunk).Gives s (s.slot.statements m (s.lines.completed chunk)).length
      (s.fed m chunk) := by
  rw [← pastChunk_keep]
  exact feed_gives Sink.collect_receives chunk s

private theorem finish_collect_gives (s : Session (List Statement)) :
    (finish m Sink.collect).Gives s (s.slot.statements m s.lines.last?.toList).length
      ({ s with lines := .empty }.behind m s.lines.last?.toList) := by
  rw [← past_keep]
  exact finish_gives Sink.collect_receives s

/-- The session at the end of a stream of which these bytes were still to come. -/
def atEnd (s : Session (List Statement)) (bytes : List UInt8) : Session (List Statement) :=
  { s with lines := .empty }.behind m (s.lines.remaining bytes)

private theorem atEnd_append (s : Session (List Statement)) (first second : List UInt8) :
    s.atEnd m (first ++ second) = (s.fed m first).atEnd m second := by
  rw [atEnd, LineAssembly.remaining_append, behind_append]
  rfl

/-- Fed in any chunks, the stream is read as the lines of all its bytes. -/
private theorem feedAll_gives (chunks : List (List UInt8)) (before : List UInt8)
    (s : Session (List Statement)) (hs : s.lines = .push .empty before) :
    ∃ counts, (feedAll m Sink.collect chunks).Gives s counts (s.atEnd m chunks.flatten) ∧
      counts.sum = (s.slot.statements m (s.lines.remaining chunks.flatten)).length := by
  induction chunks generalizing before s with
  | nil =>
    have hrest : s.lines.remaining [] = s.lines.last?.toList := by
      rw [hs, LineAssembly.remaining_push_nil]
    refine ⟨[(s.slot.statements m (s.lines.remaining [])).length], ?_, List.sum_singleton⟩
    rw [List.flatten_nil, atEnd, hrest]
    exact (finish_collect_gives m s).bind (gives_pure _ _)
  | cons chunk chunks ih =>
    have hlines := pastChunk_lines m Sink.keep hs chunk
    rw [pastChunk_keep] at hlines
    obtain ⟨counts, hgives, hsum⟩ := ih (before ++ chunk) (s.fed m chunk) hlines
    refine ⟨(s.slot.statements m (s.lines.completed chunk)).length :: counts, ?_, ?_⟩
    · rw [List.flatten_cons, atEnd_append]
      exact (feed_collect_gives m chunk s).bind (hgives.bind (gives_pure _ _))
    · rw [List.sum_cons, hsum, List.flatten_cons, length_past_remaining m Sink.keep,
        pastChunk_keep]

end Session

private theorem arrived_of_supplied {events : List ReadEvent} {bytes : List UInt8}
    (h : supplied events = some bytes) : arrived events = bytes ∧ fault? events = none := by
  fun_induction supplied events generalizing bytes
  case case1 => exact ⟨Option.some.inj h, rfl⟩
  case case2 => exact ⟨Option.some.inj h, rfl⟩
  case case3 events ih => exact ih h
  case case4 => cases h
  case case5 b chunk events ih =>
    obtain ⟨rest, hrest, rfl⟩ := Option.map_eq_some_iff.mp h
    obtain ⟨harrived, hfault⟩ := ih hrest
    exact ⟨congrArg ((b :: chunk) ++ ·) harrived, hfault⟩

/-- A reader is read as the lines of all bytes that it supplies. -/
private theorem collectEvents_gives (m : Markers) (events : List ReadEvent) (bytes : List UInt8)
    (h : supplied events = some bytes) :
    (collectEvents m events).Gives (.fresh [])
      (.ok (Slot.empty.statements m (LineAssembly.empty.remaining bytes)))
      ((Session.fresh []).atEnd m bytes) := by
  obtain ⟨rfl, hfault⟩ := arrived_of_supplied h
  rw [Session.atEnd, ← Session.past_keep]
  exact collectEvents_whole hfault

/-- A text gives the statements of its lines. -/
theorem ofText_gives (m : Markers) (text : String) (slot : Slot) :
    (ofText m text).Gives slot (slot.statements m (textLines text))
      (slot.afterLines m (textLines text)) :=
  ofLines_gives m (textLines text) slot

/-- A line is read the same without a carriage return at its end. -/
theorem read_dropEnd {m : Markers} (hm : m.AvoidedBy '\r') (slot : Slot) (line : List Char) :
    slot.read m (String.ofList (dropEnd '\r' line)) = slot.read m (String.ofList line) := by
  rcases dropEnd_cases '\r' line with h | h
  · rw [h]
  · conv => rhs; rw [h]
    rw [Slot.read_append_blank trailing_return hm]

/-- The lines of a text and of its bytes give the same statements: the carriage return that they
may differ in is a blank at the end of the last line. -/
theorem statements_remaining {m : Markers} (hm : m.AvoidedBy '\r') (text : String) :
    Slot.empty.statements m (LineAssembly.empty.remaining text.toUTF8.data.toList) =
      Slot.empty.statements m (textLines text) := by
  rw [Utf8.data_toUTF8, remaining_encode, textLines_eq, Slot.statements_append,
    Slot.statements_append]
  congr 1
  split
  case isTrue => rfl
  case isFalse => rw [Slot.statements_cons, Slot.statements_cons, read_dropEnd hm]

/-- However the bytes of a text are cut, the whole text, a reader that returns the pieces with
interruptions between them, and a session that is fed with pieces and then ended give the same
statements in the same order. The calls of the session return their number in all. -/
theorem chunking_immaterial (text : String) (events : List ReadEvent) (chunks : List (List UInt8))
    (hevents : supplied events = some text.toUTF8.data.toList)
    (hchunks : chunks.flatten = text.toUTF8.data.toList) :
    ∃ statements counts,
      (ofText .standard text .quiet .empty).value = .ok statements ∧
      (collectEvents .standard events .quiet (.fresh [])).value = .ok (.ok statements) ∧
      (Session.feedAll .standard Sink.collect chunks .quiet (.fresh [])).value = .ok counts ∧
      (Session.feedAll .standard Sink.collect chunks .quiet (.fresh [])).state.sink = statements ∧
      counts.sum = statements.length := by
  have hlines := statements_remaining Markers.standard_avoids_return text
  have hreader := collectEvents_gives .standard events _ hevents
  obtain ⟨counts, hsession, hsum⟩ :=
    Session.feedAll_gives .standard chunks [] (.fresh []) rfl
  rw [hlines] at hreader
  rw [hchunks] at hsession hsum
  refine ⟨_, counts, (ofText_gives .standard text .empty).value_eq, hreader.value_eq,
    hsession.value_eq, ?_, ?_⟩
  · rw [hsession.state_eq]
    exact hlines
  · rw [hsum]
    exact congrArg List.length hlines

/-- A statement of one character that takes two bytes, and a carriage return at the very end. -/
def shortLog : String := "==> Preparing: é\r\n==> Parameters:\r"

def shortBytes : List UInt8 := shortLog.toUTF8.data.toList

/-- The cuts go through the character and between the carriage return and the line feed. -/
def shortChunks : List (List UInt8) :=
  [shortBytes.take 16, (shortBytes.drop 16).take 2, shortBytes.drop 18]

def shortEvents : List ReadEvent :=
  shortChunks.flatMap fun chunk => [.interrupted, .chunk chunk]

theorem chunking_immaterial_through_character :
    supplied shortEvents = some shortLog.toUTF8.data.toList ∧
    shortChunks.flatten = shortLog.toUTF8.data.toList ∧
    ∃ statements counts,
      (ofText .standard shortLog .quiet .empty).value = .ok statements ∧
      (collectEvents .standard shortEvents .quiet (.fresh [])).value = .ok (.ok statements) ∧
      (Session.feedAll .standard Sink.collect shortChunks .quiet (.fresh [])).value = .ok counts ∧
      (Session.feedAll .standard Sink.collect shortChunks .quiet (.fresh [])).state.sink =
        statements ∧
      counts.sum = statements.length :=
  ⟨by decide, by decide, chunking_immaterial _ _ _ (by decide) (by decide)⟩

end SqlRecovery.Stream
