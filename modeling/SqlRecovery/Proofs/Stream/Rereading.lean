import SqlRecovery.Proofs.Pairing.Representation
import SqlRecovery.Proofs.Stream.Rotation

/-! Going back to the beginning of a file. Only the position is moved, so the file is read as what
comes behind the unfinished line and the waiting statement. If there is neither, it is read as by a
follower that begins with it. -/
namespace SqlRecovery.Stream.Follower
open Marker Logged

/-- The followers that calls lead to, whatever these find of the file. -/
inductive Reached (m : Markers) : Follower (List Statement) → Prop
  | begun {path : String} {contents : Option (List UInt8)} {whole : Bool}
    {f : Follower (List Statement)} (h : begin? path contents whole [] = .ok f) : Reached m f
  | called {f : Follower (List Statement)} (v : Visit) (h : Reached m f) :
    Reached m (visit m Sink.collect v .quiet f).state
  | rewound {f : Follower (List Statement)} (h : Reached m f) : Reached m f.fromBeginning

/-- A poll of the whole file, and the unfinished line at its end. -/
def reading (contents : List UInt8) : List Visit := [.poll (some contents), .flush]

variable {m : Markers} {f : Follower (List Statement)}

private theorem represents_visit (h : f.session.slot.Represents m) (v : Visit) :
    (visit m Sink.collect v .quiet f).state.session.slot.Represents m := by
  cases v with
  | poll contents =>
    cases contents with
    | none => exact h
    | some contents =>
      have hnoticed : (f.noticed contents.length).session.slot.Represents m := by
        rw [noticed]
        split
        · exact Slot.represents_empty m
        · exact h
      rw [visit, (poll_gives Sink.collect_receives contents f).state_eq]
      exact hnoticed.afterLines _
  | flush =>
    have hflush : (visit m Sink.collect .flush).Gives f _ _ :=
      (flush_gives Sink.collect_receives f).bind (gives_pure _ _)
    rw [hflush.state_eq]
    exact h.afterLines _

private theorem Reached.represents (h : Reached m f) : f.session.slot.Represents m := by
  induction h with
  | @begun path contents whole f h =>
    cases contents with
    | none => cases h
    | some contents =>
      cases whole with
      | true => obtain rfl := Except.ok.inj h; exact Slot.represents_empty m
      | false => obtain rfl := Except.ok.inj h; exact Slot.represents_empty m
  | called v _ ih => exact represents_visit ih v
  | rewound _ ih => exact ih

private theorem Reached.tidy (h : Reached m f) (hpending : f.session.slot.pending = none) :
    f.session.slot = .empty :=
  h.represents.eq_empty hpending

/-- From its position zero on a follower reads the file as the rest of the stream that its unfinished
line belongs to. -/
private theorem reading_gives (f : Follower (List Statement)) (contents : List UInt8) :
    ∃ polled flushed next,
      (visits m Sink.collect (reading contents)).Gives f.fromBeginning [.ok polled, .ok flushed]
        next ∧
      polled + flushed =
        (f.session.slot.statements m (f.session.lines.remaining contents)).length ∧
      next.position = contents.length ∧
      next.session.sink = f.session.sink ++
        f.session.slot.statements m (f.session.lines.remaining contents) := by
  have hpoll := poll_gives (m := m) Sink.collect_receives contents f.fromBeginning
  rw [noticed_of_le (Nat.zero_le _)] at hpoll
  have hflush := flush_gives (m := m) Sink.collect_receives
    (f.fromBeginning.caughtUp m Sink.keep contents)
  have hsum : f.session.slot.statements m (f.session.lines.remaining contents) =
      f.fromBeginning.further m contents ++
        (f.fromBeginning.caughtUp m Sink.keep contents).final m := Slot.statements_append m _ _ _
  have hvisit : (visit m Sink.collect .flush).Gives _ _ _ := hflush.bind (gives_pure _ _)
  have hlast : (visits m Sink.collect [.flush]).Gives _ _ _ :=
    hvisit.bind ((gives_pure [] _).bind (gives_pure _ _))
  have hrun : (visits m Sink.collect (reading contents)).Gives f.fromBeginning _ _ :=
    hpoll.bind (hlast.bind (gives_pure _ _))
  refine ⟨_, _, _, hrun, ?_, rfl, ?_⟩
  · rw [hsum, List.length_append]
  · change List.foldl _ (List.foldl _ _ _) _ = _
    rw [hsum, Sink.foldl_keep, Sink.foldl_keep, List.append_assoc]
    rfl

/-- A follower goes back to the beginning of the file. Nothing of the stream so far is forgotten: the
file is read as what comes behind the unfinished line, by a slot in which the waiting statement still
waits. If no line is unfinished and no statement waits, all calls answer and hand over what they do
for a follower that begins with this file. -/
theorem fromBeginning_reads_on (h : Reached m f) (contents : List UInt8) :
    ∃ statements polled flushed next,
      (ofLines m (LineAssembly.empty.remaining (f.session.lines.rest ++ contents)) .quiet
        f.session.slot).value = .ok statements ∧
      (visits m Sink.collect (reading contents)).Gives f.fromBeginning [.ok polled, .ok flushed]
        next ∧
      polled + flushed = statements.length ∧
      next.position = contents.length ∧
      next.session.sink = f.session.sink ++ statements ∧
      (f.session.lines = .empty → f.session.slot.pending = none →
        ∃ begun last, begin? f.path (some contents) true [] = .ok begun ∧
          (visits m Sink.collect (reading contents)).Gives begun [.ok polled, .ok flushed] last ∧
          next = last.behind f.session.sink) := by
  obtain ⟨polled, flushed, next, hgives, hcount, hposition, hsink⟩ := reading_gives (m := m) f contents
  refine ⟨_, polled, flushed, next, (ofLines_gives m _ _).value_eq, hgives, hcount, hposition, hsink,
    ?_⟩
  intro hlines hpending
  have hslot := h.tidy hpending
  let begun : Follower (List Statement) := ⟨f.path, 0, .fresh []⟩
  have hbegun : f.fromBeginning = begun.behind f.session.sink := by
    obtain ⟨path, position, ⟨lines, slot, sink⟩⟩ := f
    obtain rfl : lines = .empty := hlines
    obtain rfl : slot = .empty := hslot
    exact congrArg (fun sink => (⟨path, 0, .fresh sink⟩ : Follower _)) (List.append_nil _).symm
  obtain ⟨answers, last, hfresh, hbehind⟩ := visits_behind (m := m) f.session.sink begun
    (reading contents)
  rw [← hbegun] at hbehind
  obtain rfl : answers = [.ok polled, .ok flushed] :=
    Except.ok.inj (hbehind.value_eq.symm.trans hgives.value_eq)
  exact ⟨begun, last, rfl, hfresh, hgives.state_eq.symm.trans hbehind.state_eq⟩

/-- The follower of a file that was empty, behind a poll of these bytes. -/
def grown (contents : List UInt8) : Follower (List Statement) :=
  caughtUp .standard Sink.keep contents ⟨"app.log", 0, .fresh []⟩

private theorem reached_grown (contents : List UInt8) : Reached .standard (grown contents) := by
  let begun : Follower (List Statement) := ⟨"app.log", 0, .fresh []⟩
  have hbegun : begin? "app.log" (some []) false [] = .ok begun := rfl
  have hnoticed : begun.noticed contents.length = begun := noticed_of_le (Nat.zero_le _)
  have h := Reached.called (m := .standard) (.poll (some contents)) (.begun hbegun)
  rwa [visit, (poll_gives Sink.collect_receives contents begun).state_eq, hnoticed] at h

/-- A statement with its parameters. -/
def whole : List UInt8 :=
  "==> Preparing: select ?\n==> Parameters: 1(Integer)\n".toUTF8.data.toList

theorem fromBeginning_reads_on_whole :
    Reached .standard (grown whole) ∧ (grown whole).session.lines = .empty ∧
    (grown whole).session.slot.pending = none ∧
    ∃ begun polled flushed last next,
      begin? "app.log" (some whole) true [] = .ok begun ∧
      (visits .standard Sink.collect (reading whole)).Gives begun [.ok polled, .ok flushed] last ∧
      (visits .standard Sink.collect (reading whole)).Gives (grown whole).fromBeginning
        [.ok polled, .ok flushed] next ∧
      next = last.behind (grown whole).session.sink := by
  have hlines : (grown whole).session.lines = .empty := by decide +kernel
  have hpending : (grown whole).session.slot.pending = none := by decide +kernel
  obtain ⟨_, polled, flushed, next, _, hnext, _, _, _, hfresh⟩ :=
    fromBeginning_reads_on (reached_grown whole) whole
  obtain ⟨begun, last, hbegun, hlast, heq⟩ := hfresh hlines hpending
  exact ⟨reached_grown whole, hlines, hpending, begun, polled, flushed, last, next, hbegun, hlast,
    hnext, heq⟩

/-- The end of one statement, and the beginning of another. -/
def torn : List UInt8 :=
  "==> Parameters: 1(Integer)\n==> Preparing: select ?\n".toUTF8.data.toList

/-- A statement that waits when its follower goes back takes the parameters of another one, which
stand before it in the file. -/
theorem not_fromBeginning_as_begun : ¬ ∀ (m : Markers) (f : Follower (List Statement))
    (contents : List UInt8), Reached m f →
      ∃ begun answers last, begin? f.path (some contents) true [] = .ok begun ∧
        (visits m Sink.collect (reading contents)).Gives begun answers last ∧
        (visits m Sink.collect (reading contents)).Gives f.fromBeginning answers
          (last.behind f.session.sink) := by
  intro h
  obtain ⟨begun, answers, last, hbegun, hlast, hbehind⟩ := h _ _ torn (reached_grown torn)
  obtain rfl := Except.ok.inj hbegun
  obtain ⟨polled, flushed, _, hfresh, hcount, _⟩ := reading_gives (m := .standard)
    (⟨"app.log", 0, .fresh []⟩ : Follower _) torn
  obtain ⟨polled', flushed', _, hagain, hcount', _⟩ := reading_gives (m := .standard) (grown torn) torn
  have hnone : ((Slot.empty).statements .standard
      (LineAssembly.empty.remaining torn)).length = 0 := by decide +kernel
  have hone : ((grown torn).session.slot.statements .standard
      ((grown torn).session.lines.remaining torn)).length = 1 := by decide +kernel
  have hanswers : answers = [.ok polled, .ok flushed] :=
    Except.ok.inj (hlast.value_eq.symm.trans hfresh.value_eq)
  have hanswers' : answers = [.ok polled', .ok flushed'] :=
    Except.ok.inj (hbehind.value_eq.symm.trans hagain.value_eq)
  obtain ⟨rfl, rfl⟩ : polled = polled' ∧ flushed = flushed' := by simpa [hanswers] using hanswers'
  rw [hone, hcount.trans hnone] at hcount'
  cases hcount'

end SqlRecovery.Stream.Follower
