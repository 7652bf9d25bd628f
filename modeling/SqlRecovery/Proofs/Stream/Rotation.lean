import SqlRecovery.Proofs.Stream.Chunking
import SqlRecovery.Proofs.Stream.Polling

/-! A file that is replaced by a shorter one, or is missing for some time. The follower reads the
new file as one that follows only it, and polls that find no file leave no trace. -/
namespace SqlRecovery.Stream
open Marker Logged

/-- A call of a follower: it polls, and finds these contents of the file or no file, or it reads
the unfinished line. -/
inductive Visit where
  | poll (contents : Option (List UInt8))
  | flush

/-- The call does not miss the file. -/
def Visit.succeeds : Visit → Bool
  | .poll none => false
  | _ => true

namespace Follower

/-- Make a call. -/
def visit {σ : Type} (m : Markers) (accept : Sink σ) :
    Visit → Logged (Follower σ) (Except Failure Nat)
  | .poll contents => poll m accept contents
  | .flush => do return .ok (← flush m accept)

/-- Make several calls. What each of them returns. -/
def visits {σ : Type} (m : Markers) (accept : Sink σ) :
    List Visit → Logged (Follower σ) (List (Except Failure Nat))
  | [] => pure []
  | v :: vs => do
    let first ← visit m accept v
    return first :: (← visits m accept vs)

/-- The follower whose sink had received these statements before. -/
def behind (earlier : List Statement) (f : Follower (List Statement)) :
    Follower (List Statement) :=
  { f with session := { f.session with sink := earlier ++ f.session.sink } }

variable {m : Markers} (earlier : List Statement) (f : Follower (List Statement))

private theorem noticed_behind (length : Nat) :
    (f.behind earlier).noticed length = (f.noticed length).behind earlier := by
  rw [noticed, noticed]
  change (if length < f.position then (f.behind earlier).restart else f.behind earlier) = _
  split <;> rfl

private theorem caughtUp_behind (contents : List UInt8) :
    (f.behind earlier).caughtUp m Sink.keep contents =
      (f.caughtUp m Sink.keep contents).behind earlier := by
  simp only [caughtUp, behind, Session.pastChunk, Session.past, Sink.foldl_keep,
    List.append_assoc]

/-- What a call returns and hands over does not depend on what was received before. -/
private theorem visit_behind (v : Visit) :
    ∃ answer next, (visit m Sink.collect v).Gives f answer next ∧
      (visit m Sink.collect v).Gives (f.behind earlier) answer (next.behind earlier) := by
  cases v with
  | poll contents =>
    cases contents with
    | none => exact ⟨_, _, gives_pure _ _, gives_pure _ _⟩
    | some contents =>
      have hlater := poll_gives (m := m) Sink.collect_receives contents (f.behind earlier)
      rw [noticed_behind, caughtUp_behind] at hlater
      exact ⟨_, _, poll_gives Sink.collect_receives contents f, hlater⟩
  | flush =>
    have hlater := flush_gives (m := m) Sink.collect_receives (f.behind earlier)
    have hend : (f.behind earlier).session.pastEnd m Sink.keep =
        ({ f with session := f.session.pastEnd m Sink.keep }.behind earlier).session := by
      simp only [behind, Session.pastEnd, Session.past, Sink.foldl_keep, List.append_assoc]
    rw [hend] at hlater
    exact ⟨_, _, (flush_gives Sink.collect_receives f).bind (gives_pure _ _),
      hlater.bind (gives_pure _ _)⟩

theorem visits_behind (vs : List Visit) :
    ∃ answers next, (visits m Sink.collect vs).Gives f answers next ∧
      (visits m Sink.collect vs).Gives (f.behind earlier) answers (next.behind earlier) := by
  induction vs generalizing f with
  | nil => exact ⟨[], f, gives_pure _ _, gives_pure _ _⟩
  | cons v vs ih =>
    obtain ⟨answer, next, hfirst, hfirst'⟩ := visit_behind (m := m) earlier f v
    obtain ⟨answers, last, hrest, hrest'⟩ := ih next
    exact ⟨answer :: answers, last, hfirst.bind (hrest.bind (gives_pure _ _)),
      hfirst'.bind (hrest'.bind (gives_pure _ _))⟩

/-- Polls that miss the file are answered, and nothing else comes of them. -/
private theorem visits_missing {σ : Type} {accept : Sink σ} {f next : Follower σ} {vs : List Visit}
    {answers : List (Except Failure Nat)} (missing : Nat)
    (h : (visits m accept vs).Gives f answers next) :
    (visits m accept (List.replicate missing (.poll none) ++ vs)).Gives f
      (List.replicate missing (.error (.io .noSuchFile)) ++ answers) next := by
  induction missing with
  | zero => exact h
  | succ missing ih =>
    rw [List.replicate_succ, List.replicate_succ]
    exact (gives_pure _ _).bind (ih.bind (gives_pure _ _))

/-- A call that fails ends the run. -/
private theorem state_visits_cons {σ : Type} (accept : Sink σ) (recorder : Recorder)
    (f : Follower σ) (v : Visit) (vs : List Visit) :
    (visits m accept (v :: vs) recorder f).state =
      match visit m accept v recorder f with
      | ⟨.ok _, next, _⟩ => (visits m accept vs recorder next).state
      | ⟨.error _, next, _⟩ => next := by
  rw [visits, bind_apply, andThen]
  rcases visit m accept v recorder f with ⟨_ | answer, next, written⟩
  · rfl
  · dsimp only
    rw [bind_apply, andThen]
    rcases visits m accept vs recorder next with ⟨_ | answers, last, more⟩ <;> rfl

/-- Without the polls that miss the file a run comes to the same. -/
private theorem state_visits_filter {σ : Type} (accept : Sink σ) (recorder : Recorder)
    (f : Follower σ) (vs : List Visit) :
    (visits m accept vs recorder f).state =
      (visits m accept (vs.filter Visit.succeeds) recorder f).state := by
  induction vs generalizing f with
  | nil => rfl
  | cons v vs ih =>
    cases hv : v.succeeds with
    | true =>
      rw [List.filter_cons_of_pos hv, state_visits_cons, state_visits_cons]
      rcases visit m accept v recorder f with ⟨_ | answer, next, written⟩
      · rfl
      · exact ih next
    | false =>
      obtain rfl : v = .poll none := by
        rcases v with ⟨_ | contents⟩ | _
        · rfl
        · cases hv
        · cases hv
      rw [List.filter_cons_of_neg (by rw [hv]; exact Bool.false_ne_true), state_visits_cons]
      exact ih f

/-- A file that is shorter than what was read of it is read from its beginning, no matter how often
it was missing before: the next poll hands over the statements of its complete lines, and from there
on all calls answer and hand over what they do for a follower that begins with this file. A poll
that misses the file reports so and changes nothing, so that without it the same is received. -/
theorem rotated_file_is_new (m : Markers) (f : Follower (List Statement)) (missing : Nat)
    (contents : List UInt8) (later : List Visit) (h : contents.length < f.position) :
    ∃ begun statements reread answers next,
      begin? f.path (some contents) true [] = .ok begun ∧
      (ofLines m (LineAssembly.empty.completed contents) .quiet .empty).value = .ok statements ∧
      (visits m Sink.collect (List.replicate missing (.poll none) ++ [.poll (some contents)])).Gives
        f (List.replicate missing (.error (.io .noSuchFile)) ++ [.ok statements.length]) reread ∧
      reread.position = contents.length ∧
      reread.session.sink = f.session.sink ++ statements ∧
      (visits m Sink.collect (.poll (some contents) :: later)).Gives begun answers next ∧
      (visits m Sink.collect
        (List.replicate missing (.poll none) ++ .poll (some contents) :: later)).Gives f
        (List.replicate missing (.error (.io .noSuchFile)) ++ answers)
        (next.behind f.session.sink) ∧
      ∀ (σ : Type) (accept : Sink σ) (recorder : Recorder) (g : Follower σ),
        poll m accept none recorder g = ⟨.ok (.error (.io .noSuchFile)), g, []⟩ ∧
        ∀ vs, (visits m accept vs recorder g).state =
          (visits m accept (vs.filter Visit.succeeds) recorder g).state := by
  let begun : Follower (List Statement) := ⟨f.path, 0, .fresh []⟩
  let statements := begun.further m contents
  have hnoticed : begun.noticed contents.length = begun := noticed_of_le (Nat.zero_le _)
  have hrestart : f.noticed contents.length = begun.behind f.session.sink := by
    have hsink : begun.behind f.session.sink = ⟨f.path, 0, .fresh f.session.sink⟩ :=
      congrArg (fun sink => (⟨f.path, 0, .fresh sink⟩ : Follower _)) (List.append_nil _)
    rw [noticed, if_pos h, hsink, restart]
  have hbegun := poll_gives (m := m) Sink.collect_receives contents begun
  have hf := poll_gives (m := m) Sink.collect_receives contents f
  rw [hnoticed] at hbegun
  rw [hrestart, caughtUp_behind] at hf
  obtain ⟨answers, next, hlater, hlater'⟩ := visits_behind (m := m) f.session.sink
    (begun.caughtUp m Sink.keep contents) later
  refine ⟨begun, statements, _, .ok statements.length :: answers, next, rfl,
    (ofLines_gives m _ .empty).value_eq,
    visits_missing missing (hf.bind ((gives_pure [] _).bind (gives_pure _ _))), rfl, ?_,
    hbegun.bind (hlater.bind (gives_pure _ _)),
    visits_missing missing (hf.bind (hlater'.bind (gives_pure _ _))), ?_⟩
  · rw [behind, sink_caughtUp, Sink.foldl_keep]
    rfl
  · exact fun σ accept recorder g =>
      ⟨rfl, fun vs => state_visits_filter accept recorder g vs⟩

/-- A statement waits, and the line of its parameters has begun. -/
def interrupted : Follower (List Statement) :=
  ⟨"app.log", 29, ⟨"==> Par".toUTF8.data.toList⟩, .only "select ?", []⟩

/-- What would have completed the line. -/
def replacement : List UInt8 := "ameters: 1(Integer)\n".toUTF8.data.toList

theorem rotated_file_is_new_interruptedLine :
    replacement.length < interrupted.position ∧
    ∃ reread,
      (visits .standard Sink.collect [.poll none, .poll (some replacement)]).Gives interrupted
        [.error (.io .noSuchFile), .ok 0] reread ∧
      reread.position = replacement.length ∧
      reread.session.sink = [] := by
  have h : replacement.length < interrupted.position := by decide
  obtain ⟨_, statements, reread, _, _, _, hstatements, hreread, hposition, hsink, _⟩ :=
    rotated_file_is_new .standard interrupted 1 replacement [] h
  have hnone : (ofLines .standard (LineAssembly.empty.completed replacement) .quiet .empty).value =
      .ok [] := rfl
  obtain rfl : statements = [] := Except.ok.inj (hstatements.symm.trans hnone)
  exact ⟨h, reread, hreread, hposition, hsink⟩

end Follower

end SqlRecovery.Stream
