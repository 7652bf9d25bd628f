import Mathlib.Data.List.Forall2
import SqlRecovery.Proofs.Journal
import SqlRecovery.Proofs.Stream.Lines
import SqlRecovery.Proofs.Text.Replacement
import SqlRecovery.Stream.Session

/-! Lines of a stream that are handed out as its chunks arrive. However the stream is cut, they are
the lines of all its bytes, and what remains is the bytes behind the last line feed. A chunk's lines
are taken off the stream before any of them is handed out, so none is handed out twice, whatever
fails on the way. -/
namespace SqlRecovery.Stream
open Logged Marker Text

/-- The lines of a stream as they are handed out: what has arrived and is unfinished, the lines
handed out since the stream began, and the state of whoever takes them. -/
structure Handing (τ : Type) where
  lines : LineAssembly
  handed : List String
  taker : τ

/-- A chunk, and what is done with each line that it completes, which may fail. -/
structure Arrival (τ : Type) where
  chunk : List UInt8
  take : String → Logged τ Unit

/-- What a stream is asked to do. -/
inductive Request (τ : Type) where
  | push (arrival : Arrival τ)
  | flush

namespace Handing
variable {τ : Type}

/-- Hand out a line. It is handed out also if taking it fails. -/
def handOut (take : String → Logged τ Unit) (line : String) : Logged (Handing τ) Unit := do
  modify fun s => { s with handed := s.handed ++ [line] }
  (take line).onPart Handing.taker fun taker s => { s with taker }

/-- Hand out lines in order, up to one that fails. -/
def handOutAll (take : String → Logged τ Unit) : List String → Logged (Handing τ) Unit
  | [] => pure ()
  | line :: lines => do
    handOut take line
    handOutAll take lines

/-- A chunk arrives. Its lines are taken off the stream before they are handed out. -/
def push (arrival : Arrival τ) : Logged (Handing τ) Unit := do
  let s ← get
  modify fun s => { s with lines := s.lines.push arrival.chunk }
  handOutAll arrival.take (s.lines.completed arrival.chunk)

/-- The stream ends, and another one begins. The answer is the unfinished line, if there is one. -/
def flush : Logged (Handing τ) (Option String) := do
  let s ← get
  modify fun s => { s with lines := .empty, handed := [] }
  return s.lines.last?

variable (recorder : Recorder)

/-- What a request leaves, also if it fails. -/
def behind (s : Handing τ) : Request τ → Handing τ
  | .push arrival => (push arrival recorder s).state
  | .flush => (flush recorder s).state

/-- What requests leave, from the beginning on. -/
def after (taker : τ) (requests : List (Request τ)) : Handing τ :=
  requests.foldl (behind recorder) ⟨.empty, [], taker⟩

end Handing

/-- The bytes that have arrived since the stream began. -/
def Handing.arrived {τ : Type} (requests : List (Request τ)) : List UInt8 :=
  requests.foldl (fun bytes request => match request with
    | .push arrival => bytes ++ arrival.chunk
    | .flush => []) []

/-- The bytes are segments, each with a line feed behind it, and a rest without one. -/
structure Segmented (bytes : List UInt8) (segments : List (List UInt8)) (rest : List UInt8) :
    Prop where
  whole : bytes = segments.flatMap (· ++ [0x0A]) ++ rest
  unbroken : ∀ segment ∈ segments, 0x0A ∉ segment
  unfinished : 0x0A ∉ rest

theorem segmented_cutAt (bytes : List UInt8) :
    Segmented bytes (cutAt 0x0A bytes).1 (cutAt 0x0A bytes).2 :=
  ⟨(flatMap_cutAt _ _).symm, (not_mem_cutAt _ _).1, (not_mem_cutAt _ _).2⟩

/-- The bytes of a line have this text. They are read as a whole, without the carriage return at their
end if there is one. -/
inductive IsText : List UInt8 → String → Prop
  | returned {bytes : List UInt8} {s : List Char} (h : Utf8.Reads bytes s) :
    IsText (bytes ++ [0x0D]) (String.ofList s)
  | plain {bytes : List UInt8} {s : List Char} (h : Utf8.Reads bytes s)
    (hend : bytes.getLast? ≠ some 0x0D) : IsText bytes (String.ofList s)

theorem isText_lineText (bytes : List UInt8) : IsText bytes (lineText bytes) := by
  rw [lineText]
  by_cases hend : bytes.getLast? = some 0x0D
  · obtain ⟨bytes, rfl⟩ := List.getLast?_eq_some_iff.mp hend
    rw [dropEnd_append]
    exact .returned (Utf8.reads_decode bytes)
  · rw [dropEnd_of_getLast?_ne hend]
    exact .plain (Utf8.reads_decode bytes) hend

theorem forall₂_isText (segments : List (List UInt8)) :
    List.Forall₂ IsText segments (segments.map lineText) :=
  List.forall₂_map_right_iff.mpr (List.forall₂_same.mpr fun segment _ => isText_lineText segment)

/-- What ends a stream that leaves these bytes: nothing if there are none, and otherwise their text. -/
inductive IsLast : List UInt8 → Option String → Prop
  | nothing : IsLast [] none
  | unfinished {rest : List UInt8} {line : String} (hne : rest ≠ []) (h : IsText rest line) :
    IsLast rest (some line)

theorem isLast_last? (rest : List UInt8) : IsLast rest (LineAssembly.last? ⟨rest⟩) := by
  cases rest with
  | nil => exact .nothing
  | cons b rest => exact .unfinished (List.cons_ne_nil b rest) (isText_lineText _)

namespace Handing
variable {τ : Type}

/-- What handing out lines comes to: these of them are handed out, in order, and all if nothing
fails. If taking a line fails, that line is the last one. What is unfinished does not change. -/
structure HandsOut (take : String → Logged τ Unit) (recorder : Recorder) (s : Handing τ)
    (lines given : List String) (outcome : Outcome (Handing τ) Unit) : Prop where
  unfinished : outcome.state.lines = s.lines
  handed : outcome.state.handed = s.handed ++ given
  inOrder : given <+: lines
  all : outcome.value = .ok () → given = lines
  failed : ∀ words, outcome.value = .error words → ∃ earlier line taker,
    given = earlier ++ [line] ∧ (take line recorder taker).value = .error words

theorem handOut_apply (take : String → Logged τ Unit) (line : String) (recorder : Recorder)
    (s : Handing τ) :
    handOut take line recorder s =
      ⟨(take line recorder s.taker).value,
        ⟨s.lines, s.handed ++ [line], (take line recorder s.taker).state⟩,
        (take line recorder s.taker).records⟩ := rfl

theorem exists_handsOut (take : String → Logged τ Unit) (recorder : Recorder)
    (lines : List String) (s : Handing τ) :
    ∃ given, HandsOut take recorder s lines given (handOutAll take lines recorder s) := by
  -- Whoever takes the lines may be in any state when the next one is handed out.
  induction lines generalizing s with
  | nil =>
    exact ⟨[], rfl, (List.append_nil _).symm, List.prefix_rfl, fun _ => rfl, nofun⟩
  | cons line lines ih =>
    rw [handOutAll, bind_apply, andThen, handOut_apply]
    rcases htake : take line recorder s.taker with ⟨words | _, taker, written⟩
    · refine ⟨[line], rfl, rfl, List.prefix_append [line] lines, nofun, ?_⟩
      intro words' hwords
      obtain rfl := Except.error.inj hwords
      exact ⟨[], line, s.taker, rfl, by rw [htake]⟩
    · obtain ⟨given, hgiven⟩ := ih ⟨s.lines, s.handed ++ [line], taker⟩
      refine ⟨line :: given, hgiven.unfinished, ?_, ?_, ?_, ?_⟩
      · exact hgiven.handed.trans (List.append_assoc _ _ _)
      · exact List.prefix_cons_inj line |>.mpr hgiven.inOrder
      · exact fun h => congrArg (line :: ·) (hgiven.all h)
      · intro words hwords
        obtain ⟨earlier, last, taker, rfl, hlast⟩ := hgiven.failed words hwords
        exact ⟨line :: earlier, last, taker, rfl, hlast⟩

/-- A chunk's lines are handed out from what it leaves unfinished. -/
theorem exists_handsOut_push (arrival : Arrival τ) (recorder : Recorder) (s : Handing τ) :
    ∃ given, HandsOut arrival.take recorder { s with lines := s.lines.push arrival.chunk }
      (s.lines.completed arrival.chunk) given (push arrival recorder s) :=
  exists_handsOut arrival.take recorder _ _

/-- What a session does with a line: it reads it, and it hands over the statement that the line
completes. -/
def reading {σ : Type} (m : Markers) (accept : Sink σ) (line : String) : Logged (Session σ) Unit := do
  let _ ← Session.deliverLine m accept line
  return

/-- Reading lines is handing them out to the session. -/
private theorem handOutAll_reading {σ : Type} (m : Markers) (accept : Sink σ) (recorder : Recorder)
    (lines : List String) (s : Handing (Session σ)) :
    (handOutAll (reading m accept) lines recorder s).state.taker =
        (Session.deliver m accept lines recorder s.taker).state ∧
      (handOutAll (reading m accept) lines recorder s).value =
        (Session.deliver m accept lines recorder s.taker).value.map fun _ => () := by
  induction lines generalizing s with
  | nil => exact ⟨rfl, rfl⟩
  | cons line lines ih =>
    rw [handOutAll, bind_apply, andThen, handOut_apply, reading, bind_apply, andThen,
      Session.deliver, bind_apply, andThen]
    rcases Session.deliverLine m accept line recorder s.taker with ⟨words | _, session, written⟩
    · exact ⟨rfl, rfl⟩
    · obtain ⟨hstate, hvalue⟩ := ih ⟨s.lines, s.handed ++ [line], session⟩
      dsimp only [pure_apply]
      rw [hstate, hvalue, bind_apply, andThen]
      rcases Session.deliver m accept lines recorder session with ⟨words | _, session, written⟩
      · exact ⟨rfl, rfl⟩
      · exact ⟨rfl, rfl⟩

private theorem keeps_deliverLine {σ : Type} (m : Markers) (accept : Sink σ) (line : String) :
    (Session.deliverLine m accept line).Keeps Session.lines := by
  refine .bind (fun _ _ => rfl) fun given => ?_
  cases given with
  | none => exact keeps_pure _ _
  | some statement => exact .bind (fun _ _ => rfl) fun _ => keeps_pure _ _

/-- Reading lines does not touch what is unfinished, also if it fails. -/
private theorem keeps_deliver {σ : Type} (m : Markers) (accept : Sink σ) (lines : List String) :
    (Session.deliver m accept lines).Keeps Session.lines := by
  induction lines with
  | nil => exact keeps_pure _ _
  | cons line lines ih =>
    exact (keeps_deliverLine m accept line).bind fun _ => ih.bind fun _ => keeps_pure _ _

/-- A chunk arrives, completes these lines and leaves these bytes. Whoever takes the lines is handed
them one by one, also a session that is fed the chunk; and what is then kept is what the chunk
leaves, also if a line fails. -/
structure Brings (recorder : Recorder) (s : Handing τ) (chunk : List UInt8) (lines : List String)
    (next : List UInt8) : Prop where
  handed : ∀ take, ∃ given, HandsOut take recorder { s with lines := ⟨next⟩ } lines given
    (push ⟨chunk, take⟩ recorder s)
  fed : ∀ {σ : Type} (m : Markers) (accept : Sink σ) (session : Session σ),
    session.lines = s.lines →
    let fed := Session.feed m accept chunk recorder session
    let pushed := push ⟨chunk, reading m accept⟩ recorder
      ⟨session.lines, [], { session with lines := ⟨next⟩ }⟩
    (∃ given, HandsOut (reading m accept) recorder
        ⟨⟨next⟩, [], { session with lines := ⟨next⟩ }⟩ lines given pushed) ∧
      fed.state = pushed.state.taker ∧ fed.value.map (fun _ => ()) = pushed.value ∧
      fed.state.lines = ⟨next⟩

theorem brings_push (recorder : Recorder) (s : Handing τ) (chunk : List UInt8) :
    Brings recorder s chunk (s.lines.completed chunk) (s.lines.push chunk).rest where
  handed take := exists_handsOut_push ⟨chunk, take⟩ recorder s
  fed m accept session hlines := by
    rw [← hlines]
    have ⟨hstate, hvalue⟩ := handOutAll_reading m accept recorder (session.lines.completed chunk)
      ⟨session.lines.push chunk, [], { session with lines := session.lines.push chunk }⟩
    exact ⟨exists_handsOut_push ⟨chunk, reading m accept⟩ recorder ⟨session.lines, [], _⟩,
      hstate.symm, hvalue.symm, keeps_deliver m accept _ recorder _⟩

/-- The stream ends with this unfinished line, if there is one, and nothing is kept. A session that is
finished reads this line. -/
structure Closes (recorder : Recorder) (s : Handing τ) (last : Option String) : Prop where
  flushed : flush recorder s = ⟨.ok last, ⟨⟨[]⟩, [], s.taker⟩, []⟩
  finished : ∀ {σ : Type} (m : Markers) (accept : Sink σ) (session : Session σ),
    session.lines = s.lines → Session.finish m accept recorder session =
      Session.deliver m accept last.toList recorder { session with lines := ⟨[]⟩ }

theorem closes_last? (recorder : Recorder) (s : Handing τ) : Closes recorder s s.lines.last? where
  flushed := rfl
  finished m accept session hlines := by
    rw [← hlines]
    rfl

variable {recorder : Recorder} {taker : τ} {requests : List (Request τ)}

theorem after_append (request : Request τ) :
    after recorder taker (requests ++ [request]) =
      behind recorder (after recorder taker requests) request :=
  List.foldl_append

theorem arrived_push (arrival : Arrival τ) :
    arrived (requests ++ [.push arrival]) = arrived requests ++ arrival.chunk :=
  List.foldl_append

theorem arrived_flush : arrived (requests ++ [.flush]) = [] := List.foldl_append

/-- What is unfinished depends on the bytes alone. -/
private theorem lines_after (recorder : Recorder) (taker : τ) (requests : List (Request τ)) :
    (after recorder taker requests).lines = .push .empty (arrived requests) := by
  induction requests using List.reverseRecOn with
  | nil => rfl
  | append_singleton requests request ih =>
    rw [after_append]
    cases request with
    | push arrival =>
      obtain ⟨given, hgiven⟩ := exists_handsOut_push arrival recorder (after recorder taker requests)
      rw [behind, hgiven.unfinished, ih, arrived_push, LineAssembly.push_append]
    | flush =>
      rw [arrived_flush]
      rfl

/-- The lines of a chunk come behind those of the bytes before it. -/
private theorem completed_push (recorder : Recorder) (taker : τ) (requests : List (Request τ))
    (arrival : Arrival τ) :
    LineAssembly.empty.completed (arrived (requests ++ [.push arrival])) =
      LineAssembly.empty.completed (arrived requests) ++
        (after recorder taker requests).lines.completed arrival.chunk := by
  rw [arrived_push, LineAssembly.completed_append, lines_after]

/-- Whatever fails, the lines are handed out in order and none of them twice. -/
private theorem handed_sublist (recorder : Recorder) (taker : τ) (requests : List (Request τ)) :
    (after recorder taker requests).handed.Sublist
      (LineAssembly.empty.completed (arrived requests)) := by
  induction requests using List.reverseRecOn with
  | nil => exact List.Sublist.refl []
  | append_singleton requests request ih =>
    rw [after_append]
    cases request with
    | push arrival =>
      obtain ⟨given, hgiven⟩ := exists_handsOut_push arrival recorder (after recorder taker requests)
      rw [behind, hgiven.handed, completed_push recorder taker]
      exact ih.append hgiven.inOrder.sublist
    | flush => exact List.nil_sublist _

/-- No chunk that has arrived since the stream began brought a line on which taking it failed. -/
def Undisturbed (recorder : Recorder) (taker : τ) (requests : List (Request τ)) : Prop :=
  ∀ earlier arrival later, requests = earlier ++ .push arrival :: later → .flush ∉ later →
    (push arrival recorder (after recorder taker earlier)).value = .ok ()

/-- Lines that are taken without a failure disturb nothing. -/
theorem undisturbed_of_take (h : ∀ arrival, .push arrival ∈ requests → ∀ line state,
    (arrival.take line recorder state).value = .ok ()) : Undisturbed recorder taker requests := by
  rintro earlier arrival later rfl -
  obtain ⟨given, hgiven⟩ := exists_handsOut_push arrival recorder (after recorder taker earlier)
  rcases hvalue : (push arrival recorder (after recorder taker earlier)).value with words | _
  · obtain ⟨-, line, state, -, hfailed⟩ := hgiven.failed words hvalue
    rw [h arrival (by simp) line state] at hfailed
    cases hfailed
  · rfl

/-- If nothing fails, all lines are handed out. -/
private theorem handed_of_undisturbed (h : Undisturbed recorder taker requests) :
    (after recorder taker requests).handed = LineAssembly.empty.completed (arrived requests) := by
  induction requests using List.reverseRecOn with
  | nil => rfl
  | append_singleton requests request ih =>
    rw [after_append]
    cases request with
    | push arrival =>
      have hlast := h requests arrival [] rfl List.not_mem_nil
      have hearlier : Undisturbed recorder taker requests := by
        rintro earlier other later rfl hlater
        refine h earlier other (later ++ [.push arrival]) (List.append_assoc _ _ _) ?_
        simpa using hlater
      obtain ⟨given, hgiven⟩ := exists_handsOut_push arrival recorder (after recorder taker requests)
      rw [behind, hgiven.handed, hgiven.all hlast, ih hearlier, completed_push recorder taker]
    | flush =>
      rw [arrived_flush]
      rfl

/-- However chunks and ends of streams follow each other, and whatever is done with the lines: the
bytes that have arrived since the stream began are segments, each with a line feed behind it, and a
rest without one. This rest is what is kept. The lines handed out are the texts of the segments, each
read as a whole and without a carriage return at its end; they are in order, and all of them unless
taking one failed. Ending the stream gives the text of the rest, if it is not empty, and leaves
nothing. The next chunk only brings lines of segments that it ends. Also when taking one of them
fails, what is kept is then what remains behind the chunk, and the lines handed out end with that
one. A session that keeps the same rest reads the same lines. -/
theorem hands_out_segments (recorder : Recorder) (taker : τ) (requests : List (Request τ)) :
    ∃ segments rest lines, Segmented (arrived requests) segments rest ∧
      List.Forall₂ IsText segments lines ∧
      (after recorder taker requests).lines = ⟨rest⟩ ∧
      (after recorder taker requests).handed.Sublist lines ∧
      (Undisturbed recorder taker requests → (after recorder taker requests).handed = lines) ∧
      (∃ last, IsLast rest last ∧ Closes recorder (after recorder taker requests) last) ∧
      ∀ chunk, ∃ more next fresh, Segmented (arrived requests ++ chunk) (segments ++ more) next ∧
        List.Forall₂ IsText more fresh ∧
        Brings recorder (after recorder taker requests) chunk fresh next := by
  have hlines := lines_after recorder taker requests
  have hcloses := closes_last? recorder (after recorder taker requests)
  have hbrings := brings_push recorder (after recorder taker requests)
  rw [hlines] at hcloses hbrings
  refine ⟨_, _, _, segmented_cutAt (arrived requests), forall₂_isText _, hlines,
    handed_sublist recorder taker requests, handed_of_undisturbed,
    ⟨_, isLast_last? _, hcloses⟩, fun chunk => ?_⟩
  have hsegments := segmented_cutAt (arrived requests ++ chunk)
  rw [cutAt_append] at hsegments
  exact ⟨_, _, _, hsegments, forall₂_isText _, hbrings chunk⟩

/-- A character cut between two chunks in a line with a carriage return at its end, a byte that is no
character in a line with two of them, and an unfinished line. -/
def brokenBytes : List (Request Unit) := [
  .push ⟨[0x61, 0xE5, 0x90], fun _ => pure ()⟩,
  .push ⟨[0x8D, 0x0D, 0x0A, 0xFF, 0x0D, 0x0D, 0x0A, 0x62], fun _ => pure ()⟩]

theorem hands_out_segments_brokenBytes :
    (after .quiet () brokenBytes).handed = ["a名", "\uFFFD\r"] ∧
      (after .quiet () brokenBytes).lines = ⟨[0x62]⟩ ∧
      flush .quiet (after .quiet () brokenBytes) = ⟨.ok (some "b"), ⟨⟨[]⟩, [], ()⟩, []⟩ ∧
      ∃ segments, Segmented (arrived brokenBytes) segments [0x62] ∧
        List.Forall₂ IsText segments ["a名", "\uFFFD\r"] := by
  obtain ⟨segments, rest, lines, hsegments, htexts, hkept, -, hall, -⟩ :=
    hands_out_segments .quiet () brokenBytes
  have hundisturbed : Undisturbed .quiet () brokenBytes := by
    apply undisturbed_of_take
    intro arrival h line state
    simp only [brokenBytes, List.mem_cons, Request.push.injEq, List.not_mem_nil, or_false] at h
    rcases h with rfl | rfl <;> rfl
  have hhanded : (after .quiet () brokenBytes).handed = ["a名", "\uFFFD\r"] := by decide
  have hlines : (after .quiet () brokenBytes).lines = ⟨[0x62]⟩ := by decide
  obtain rfl : ["a名", "\uFFFD\r"] = lines := hhanded.symm.trans (hall hundisturbed)
  obtain rfl : [0x62] = rest := congrArg LineAssembly.rest (hlines.symm.trans hkept)
  exact ⟨hhanded, hlines, rfl, segments, hsegments, htexts⟩

end Handing

end SqlRecovery.Stream
