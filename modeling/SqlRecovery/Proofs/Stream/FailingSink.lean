import SqlRecovery.Proofs.Stream.Chunking

/-! Sessions whose sink fails now and then. A failure loses the other lines of its chunk, and the
session goes on as one that never met them. -/
namespace SqlRecovery.Stream
open Marker Logged

/-- The sink that keeps every statement, and then fails on some of its calls. Each call has its
number, counted from one, and the words with which it fails, if it does. -/
def Sink.failing (fails : Nat → Option String) : Sink (List Statement) := fun statement => do
  modify (· ++ [statement])
  match fails (← get).length with
  | none => pure ()
  | some words => fail words

/-- None of the calls behind the first `earlier` fails, up to the last one. -/
def Sink.Spares (fails : Nat → Option String) (earlier last : Nat) : Prop :=
  ∀ n, earlier < n → n ≤ last → fails n = none

/-- A call of a session. -/
inductive Call where
  | feed (chunk : List UInt8)
  | finish

/-- A call, and the session that it meets. -/
structure Turn where
  before : Session (List Statement)
  call : Call

namespace Session

/-- Make a call. -/
def answer {σ : Type} (m : Markers) (accept : Sink σ) : Call → Logged (Session σ) Nat
  | .feed chunk => feed m accept chunk
  | .finish => finish m accept

/-- The session behind these lines, if its sink never fails. -/
def unfailing (m : Markers) (s : Session (List Statement)) (lines : List String) :
    Session (List Statement) :=
  (deliver m Sink.collect lines .quiet s).state

end Session

section
variable (m : Markers) (fails : Nat → Option String)

namespace Turn

/-- The lines that the call takes off the stream. -/
def lines (t : Turn) : List String :=
  match t.call with
  | .feed chunk => t.before.lines.completed chunk
  | .finish => t.before.lines.last?.toList

/-- The bytes behind the last line feed. At the end of the stream there are none. -/
def rest (t : Turn) : List UInt8 :=
  match t.call with
  | .feed chunk => (t.before.lines.rest ++ chunk).rtakeWhile (· != 0x0A)
  | .finish => []

/-- What the call comes to. -/
def outcome (t : Turn) : Outcome (Session (List Statement)) Nat :=
  Session.answer m (Sink.failing fails) t.call .quiet t.before

/-- Of its lines the call reads these. They are all of them, unless the sink fails: then they end
with the line of the statement that it failed on, and no statement waits. Either way the session is
what a sink that never fails would leave behind these lines, and holds the unfinished line. -/
structure Reads (t : Turn) (read : List String) : Prop where
  inOrder : read <+: t.lines
  rest : (t.outcome m fails).state.lines.rest = t.rest
  slot : (t.outcome m fails).state.slot = (t.before.unfailing m read).slot
  sink : (t.outcome m fails).state.sink = (t.before.unfailing m read).sink
  sound : ∀ count, (t.outcome m fails).value = .ok count → read = t.lines ∧
    (t.outcome m fails).state.sink.length = t.before.sink.length + count ∧
    Sink.Spares fails t.before.sink.length (t.before.sink.length + count)
  failed : ∀ words, (t.outcome m fails).value = .error words →
    (t.outcome m fails).state.slot = .empty ∧
    ∃ earlier line statement, read = earlier ++ [line] ∧
      (t.outcome m fails).state.sink = (t.before.unfailing m earlier).sink ++ [statement] ∧
      Sink.Spares fails t.before.sink.length (t.before.unfailing m earlier).sink.length ∧
      fails ((t.before.unfailing m earlier).sink.length + 1) = some words

end Turn

/-- The turns of several calls. Each call meets the session that the one before it left, also when
that one failed. -/
def turns : Session (List Statement) → List Call → List Turn
  | _, [] => []
  | s, call :: calls => ⟨s, call⟩ :: turns (Turn.outcome m fails ⟨s, call⟩).state calls

/-- The session behind several calls. -/
def Session.afterCalls (s : Session (List Statement)) (calls : List Call) :
    Session (List Statement) :=
  calls.foldl (fun s call => (Turn.outcome m fails ⟨s, call⟩).state) s

end

variable {m : Markers} {fails : Nat → Option String}

theorem Sink.Spares.trans {first second third : Nat} (h : Spares fails first second)
    (h' : Spares fails second third) : Spares fails first third := by
  intro n hfirst hthird
  rcases Nat.lt_or_ge second n with hn | hn
  · exact h' n hn hthird
  · exact h n hfirst hn

theorem Sink.spares_self (n : Nat) : Spares fails n n :=
  fun _ hn hle => absurd hn (Nat.not_lt.mpr hle)

theorem Sink.failing_gives {statement : Statement} {received : List Statement}
    (h : fails (received.length + 1) = none) :
    (failing fails statement).Gives received () (received ++ [statement]) := by
  have hlength : fails (received ++ [statement]).length = none := by
    rw [List.length_append]
    exact h
  refine (gives_modify _ _).bind ((gives_get _).bind ?_)
  rw [hlength]
  exact gives_pure _ _

theorem Sink.failing_stops {statement : Statement} {received : List Statement} {words : String}
    (h : fails (received.length + 1) = some words) :
    (failing fails statement).Stops received words (received ++ [statement]) := by
  have hlength : fails (received ++ [statement]).length = some words := by
    rw [List.length_append]
    exact h
  refine (gives_modify _ _).bind_stops ((gives_get _).bind_stops ?_)
  rw [hlength]
  exact stops_fail _ _

namespace Session

theorem unfailing_eq (s : Session (List Statement)) (lines : List String) :
    s.unfailing m lines = s.past m Sink.keep lines :=
  (deliver_gives Sink.collect_receives lines s).state_eq

private theorem length_sink_past (s : Session (List Statement)) (lines : List String) :
    (s.past m Sink.keep lines).sink.length =
      s.sink.length + (s.slot.statements m lines).length := by
  rw [past, Sink.foldl_keep, List.length_append]

/-- The line completes a statement, and the sink fails on it. -/
private structure FailsOn (m : Markers) (fails : Nat → Option String)
    (s : Session (List Statement)) (line words : String) : Prop where
  completes : ∃ statement, (s.past m Sink.keep [line]).sink = s.sink ++ [statement]
  clears : (s.past m Sink.keep [line]).slot = .empty
  fails : fails (s.sink.length + 1) = some words

/-- A line is read as if the sink never failed, also when the sink fails on its statement. -/
private theorem deliverLine_cases (line : String) (s : Session (List Statement)) :
    ((deliverLine m (Sink.failing fails) line).Gives s (s.slot.statements m [line]).length
        (s.past m Sink.keep [line]) ∧
      Sink.Spares fails s.sink.length (s.past m Sink.keep [line]).sink.length) ∨
    ∃ words, s.FailsOn m fails line words ∧
      (deliverLine m (Sink.failing fails) line).Stops s words (s.past m Sink.keep [line]) := by
  have hslot := onSlot_gives (Pairing.guardedLine_gives m line s.slot)
  have hstatements : s.slot.statements m [line] = (s.slot.read m line).1.toList := by
    rw [Slot.statements_cons]
    exact List.append_nil _
  cases hread : (s.slot.read m line).1 with
  | none =>
    rw [hread] at hslot hstatements
    have hpast : s.past m Sink.keep [line] = { s with slot := (s.slot.read m line).2 } := by
      rw [past, hstatements]
      rfl
    rw [hstatements, hpast]
    exact .inl ⟨hslot.bind (gives_pure 0 _), Sink.spares_self _⟩
  | some statement =>
    rw [hread] at hslot hstatements
    have hpast : s.past m Sink.keep [line] =
        { s with slot := (s.slot.read m line).2, sink := s.sink ++ [statement] } := by
      rw [past, hstatements]
      rfl
    let waiting : Session (List Statement) := { s with slot := (s.slot.read m line).2 }
    cases hfails : fails (s.sink.length + 1) with
    | none =>
      have haccept : (onSink (Sink.failing fails statement)).Gives waiting () _ :=
        onSink_gives (Sink.failing_gives hfails)
      rw [hstatements, hpast]
      refine .inl ⟨hslot.bind (haccept.bind (gives_pure 1 _)), fun n hn hle => ?_⟩
      obtain rfl : n = s.sink.length + 1 := by
        rw [List.length_append, List.length_singleton] at hle
        omega
      exact hfails
    | some words =>
      have haccept : (onSink (Sink.failing fails statement)).Stops waiting words _ :=
        onSink_stops (Sink.failing_stops hfails)
      refine .inr ⟨words, ⟨⟨statement, by rw [hpast]⟩, ?_, hfails⟩, ?_⟩
      · rw [hpast]
        exact Slot.read_eq_empty hread
      · rw [hpast]
        exact hslot.bind_stops (haccept.bind _)

/-- Lines are read as if the sink never failed, up to the one that completes the statement on which
it fails. -/
private theorem deliver_cases (m : Markers) (fails : Nat → Option String) (lines : List String)
    (s : Session (List Statement)) :
    ((deliver m (Sink.failing fails) lines).Gives s (s.slot.statements m lines).length
        (s.past m Sink.keep lines) ∧
      Sink.Spares fails s.sink.length (s.past m Sink.keep lines).sink.length) ∨
    ∃ earlier line words, earlier ++ [line] <+: lines ∧
      Sink.Spares fails s.sink.length (s.past m Sink.keep earlier).sink.length ∧
      (s.past m Sink.keep earlier).FailsOn m fails line words ∧
      (deliver m (Sink.failing fails) lines).Stops s words
        (s.past m Sink.keep (earlier ++ [line])) := by
  induction lines generalizing s with
  | nil => exact .inl ⟨gives_pure _ _, Sink.spares_self _⟩
  | cons line lines ih =>
    rcases deliverLine_cases line s with ⟨hfirst, hspares⟩ | ⟨words, hfails, hstops⟩
    · rcases ih (s.past m Sink.keep [line]) with ⟨hothers, hspares'⟩ |
        ⟨earlier, last, words, hread, hspares', hfails, hstops⟩
      · rw [past_cons, Slot.length_statements_cons]
        exact .inl ⟨hfirst.bind (hothers.bind (gives_pure _ _)), hspares.trans hspares'⟩
      · rw [← past_cons] at hspares' hfails hstops
        exact .inr ⟨line :: earlier, last, words, List.prefix_cons_inj line |>.mpr hread,
          hspares.trans hspares', hfails, hfirst.bind_stops (hstops.bind _)⟩
    · exact .inr ⟨[], line, words, List.prefix_append [line] lines, Sink.spares_self _, hfails,
        hstops.bind _⟩

end Session

namespace Turn

/-- A call takes its lines off the stream before it reads any of them. -/
private theorem outcome_eq (t : Turn) :
    t.outcome m fails =
      Session.deliver m (Sink.failing fails) t.lines .quiet { t.before with lines := ⟨t.rest⟩ } := by
  obtain ⟨s, chunk | _⟩ := t
  · have hrest : s.lines.push chunk = ⟨rest ⟨s, .feed chunk⟩⟩ := s.lines.push_eq chunk
    rw [← hrest]
    rfl
  · rfl

private theorem exists_reads (m : Markers) (fails : Nat → Option String) (t : Turn) :
    ∃ read, t.Reads m fails read := by
  rcases Session.deliver_cases m fails t.lines { t.before with lines := ⟨t.rest⟩ } with
    ⟨hgives, hspares⟩ | ⟨earlier, line, words, hread, hspares, hfails, hstops⟩
  · have hvalue : (t.outcome m fails).value = .ok (t.before.slot.statements m t.lines).length := by
      rw [outcome_eq, hgives.value_eq]
    have hstate : (t.outcome m fails).state =
        { t.before.past m Sink.keep t.lines with lines := ⟨t.rest⟩ } := by
      rw [outcome_eq, hgives.state_eq]
      rfl
    refine ⟨t.lines, List.prefix_rfl, by rw [hstate], by rw [hstate, Session.unfailing_eq],
      by rw [hstate, Session.unfailing_eq], ?_, ?_⟩
    · intro count hcount
      obtain rfl := Except.ok.inj (hvalue.symm.trans hcount)
      rw [Session.length_sink_past] at hspares
      refine ⟨rfl, ?_, hspares⟩
      rw [hstate]
      exact Session.length_sink_past _ _
    · intro words hwords
      cases hvalue.symm.trans hwords
  · have hvalue : (t.outcome m fails).value = .error words := by rw [outcome_eq, hstops.value_eq]
    have hstate : (t.outcome m fails).state =
        { t.before.past m Sink.keep (earlier ++ [line]) with lines := ⟨t.rest⟩ } := by
      rw [outcome_eq, hstops.state_eq]
      rfl
    refine ⟨earlier ++ [line], hread, by rw [hstate], by rw [hstate, Session.unfailing_eq],
      by rw [hstate, Session.unfailing_eq], ?_, ?_⟩
    · intro count hcount
      cases hvalue.symm.trans hcount
    · intro words' hwords
      obtain rfl := Except.error.inj (hvalue.symm.trans hwords)
      obtain ⟨statement, hsink⟩ := hfails.completes
      have hclears := hfails.clears
      rw [← Session.past_append] at hsink hclears
      rw [hstate]
      refine ⟨hclears, earlier, line, statement, rfl, ?_⟩
      rw [Session.unfailing_eq]
      exact ⟨hsink, hspares, hfails.fails⟩

private theorem Reads.state_eq {t : Turn} {read : List String} (h : t.Reads m fails read) :
    (t.outcome m fails).state = { t.before.past m Sink.keep read with lines := ⟨t.rest⟩ } := by
  have hrest := h.rest
  have hslot := h.slot
  have hsink := h.sink
  rw [Session.unfailing_eq] at hslot hsink
  generalize (t.outcome m fails).state = after at hrest hslot hsink
  obtain ⟨⟨rest⟩, slot, sink⟩ := after
  obtain rfl : rest = t.rest := hrest
  obtain rfl : slot = _ := hslot
  obtain rfl : sink = _ := hsink
  rfl

end Turn

/-- The calls of a run read the lines that they do not lose. -/
private theorem exists_reads_turns (m : Markers) (fails : Nat → Option String) (calls : List Call)
    (s : Session (List Statement)) :
    ∃ reads, List.Forall₂ (Turn.Reads m fails) (turns m fails s calls) reads ∧
      s.afterCalls m fails calls =
        { s.past m Sink.keep reads.flatten with lines := (s.afterCalls m fails calls).lines } := by
  induction calls generalizing s with
  | nil => exact ⟨[], .nil, rfl⟩
  | cons call calls ih =>
    obtain ⟨read, hread⟩ := Turn.exists_reads m fails ⟨s, call⟩
    obtain ⟨reads, hreads, hafter⟩ := ih (Turn.outcome m fails ⟨s, call⟩).state
    refine ⟨read :: reads, .cons hread hreads, ?_⟩
    rw [Session.afterCalls, List.foldl_cons, List.flatten_cons, Session.past_append]
    rw [hread.state_eq] at hafter ⊢
    exact hafter

/-- The calls take all lines of the stream, each of them once. -/
private theorem lines_turns (m : Markers) (fails : Nat → Option String) (chunks : List (List UInt8))
    (before : List UInt8) (s : Session (List Statement)) (hs : s.lines = .push .empty before) :
    (turns m fails s (chunks.map .feed ++ [.finish])).flatMap Turn.lines =
      s.lines.remaining chunks.flatten := by
  induction chunks generalizing before s with
  | nil =>
    rw [hs, List.flatten_nil, LineAssembly.remaining_push_nil, ← hs]
    exact List.append_nil _
  | cons chunk chunks ih =>
    let t : Turn := ⟨s, .feed chunk⟩
    obtain ⟨read, hread⟩ := t.exists_reads m fails
    have hnext : (t.outcome m fails).state.lines = s.lines.push chunk := by
      rw [hread.state_eq]
      exact (s.lines.push_eq chunk).symm
    have hlines : (t.outcome m fails).state.lines = .push .empty (before ++ chunk) := by
      rw [hnext, hs, LineAssembly.push_append]
    have hrest := ih (before ++ chunk) (t.outcome m fails).state hlines
    rw [hnext] at hrest
    rw [List.map_cons, List.cons_append, turns, List.flatMap_cons, hrest, List.flatten_cons,
      LineAssembly.remaining_append]
    rfl

/-- A sink that fails loses the other lines of its chunk and nothing else, whichever of its calls
fail. Each call of the session reads its lines in order up to such a line, and the whole run leaves
the session as a sink that never fails leaves it behind the lines that were read: the sink was
called once for each statement that these lines give, in order. -/
theorem failing_sink_loses_rest_of_chunk (m : Markers) (fails : Nat → Option String)
    (chunks : List (List UInt8)) :
    let calls := chunks.map .feed ++ [.finish]
    ∃ reads : List (List String),
      List.Forall₂ (Turn.Reads m fails) (turns m fails (.fresh []) calls) reads ∧
      (turns m fails (.fresh []) calls).flatMap Turn.lines =
        LineAssembly.empty.remaining chunks.flatten ∧
      (Session.fresh []).afterCalls m fails calls =
        (Session.fresh []).unfailing m reads.flatten ∧
      (ofLines m reads.flatten .quiet .empty).value =
        .ok ((Session.fresh []).afterCalls m fails calls).sink := by
  intro calls
  obtain ⟨reads, hreads, hafter⟩ := exists_reads_turns m fails calls (.fresh [])
  have hended : ((Session.fresh []).afterCalls m fails calls).lines = .empty := by
    rw [Session.afterCalls, List.foldl_append, List.foldl_cons, List.foldl_nil]
    obtain ⟨read, hread⟩ := Turn.exists_reads m fails
      ⟨(chunks.map Call.feed).foldl (fun s call => (Turn.outcome m fails ⟨s, call⟩).state)
        (.fresh []), .finish⟩
    rw [hread.state_eq]
    rfl
  have hall : (Session.fresh []).afterCalls m fails calls =
      (Session.fresh []).past m Sink.keep reads.flatten := by
    rw [hafter, hended]
    rfl
  refine ⟨reads, hreads, lines_turns m fails chunks [] (.fresh []) rfl, ?_, ?_⟩
  · rw [hall, Session.unfailing_eq]
  · rw [(ofLines_gives m reads.flatten .empty).value_eq, hall, Session.past, Sink.foldl_keep]
    rfl

/-- The lines of a statement without parameters. -/
private def twoLines (sql : String) : List UInt8 :=
  ("==> Preparing: " ++ sql ++ "\n==> Parameters: \n").toUTF8.data.toList

/-- The second call fails. -/
private def second (n : Nat) : Option String := if n = 2 then some "sink failed" else none

-- The third statement comes in the same chunk as the one on which the sink fails.
example : ((turns .standard second (.fresh [])
      [.feed (twoLines "select 1" ++ twoLines "select 2" ++ twoLines "select 3"),
        .feed (twoLines "select 4"), .finish]).map
      fun t => (t.outcome .standard second).state.sink.map Statement.logged) =
    [["select 1", "select 2"], ["select 1", "select 2", "select 4"],
      ["select 1", "select 2", "select 4"]] := by
  decide +kernel

end SqlRecovery.Stream
