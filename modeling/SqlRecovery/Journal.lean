/-! Steps that write log records. A recorder may fail on a record after recording it; the step is
then cut short, and what it had done to its state by then remains. -/
namespace SqlRecovery

/-- How urgent a record is. -/
inductive Level where
  | error
  | warn
  | info
  | debug
  | trace
  deriving DecidableEq, Repr

/-- A log record. -/
structure Record where
  level : Level
  message : String
  deriving DecidableEq, Repr

/-- For each record the words with which recording it fails, if it does. -/
abbrev Recorder := Record → Option String

/-- The recorder that never fails. -/
def Recorder.quiet : Recorder := fun _ => none

/-- What a step comes to: a value or the words of a failure, the state it leaves, and the records
it wrote. -/
structure Outcome (σ α : Type) where
  value : Except String α
  state : σ
  records : List Record

/-- A step on a state that writes records. -/
def Logged (σ α : Type) : Type := Recorder → σ → Outcome σ α

namespace Logged
variable {σ τ α β : Type}

/-- The second step goes on from the state of the first, unless the first failed. -/
def andThen (x : Logged σ α) (f : α → Logged σ β) : Logged σ β := fun recorder s =>
  match x recorder s with
  | ⟨.ok a, s, written⟩ =>
    let next := f a recorder s
    ⟨next.value, next.state, written ++ next.records⟩
  | ⟨.error e, s, written⟩ => ⟨.error e, s, written⟩

instance : Monad (Logged σ) where
  pure a := fun _ s => ⟨.ok a, s, []⟩
  bind := andThen

theorem pure_apply (a : α) (recorder : Recorder) (s : σ) :
    (pure a : Logged σ α) recorder s = ⟨.ok a, s, []⟩ := rfl

theorem bind_apply (x : Logged σ α) (f : α → Logged σ β) (recorder : Recorder) (s : σ) :
    (x >>= f) recorder s = x.andThen f recorder s := rfl

/-- Steps may be grouped in any way. -/
instance : LawfulMonad (Logged σ) := LawfulMonad.mk' (Logged σ)
  (fun x => by
    funext recorder s
    change (x.andThen fun a => pure a) recorder s = _
    rw [andThen]
    rcases x recorder s with ⟨_ | a, s, written⟩
    · rfl
    · exact congrArg (Outcome.mk _ _) (List.append_nil written))
  (fun _ _ => rfl)
  (fun x f g => by
    funext recorder s
    simp only [bind_apply, andThen]
    rcases x recorder s with ⟨_ | a, s, written⟩
    · rfl
    · dsimp only
      rcases f a recorder s with ⟨_ | b, s, further⟩
      · rfl
      · dsimp only
        rw [List.append_assoc])

/-- The state. -/
def get : Logged σ σ := fun _ s => ⟨.ok s, s, []⟩

/-- Change the state. -/
def modify (f : σ → σ) : Logged σ Unit := fun _ s => ⟨.ok (), f s, []⟩

/-- Write a record. -/
def log (level : Level) (message : String) : Logged σ Unit := fun recorder s =>
  ⟨match recorder ⟨level, message⟩ with
    | none => .ok ()
    | some words => .error words, s, [⟨level, message⟩]⟩

/-- Stop here. -/
def fail (words : String) : Logged σ α := fun _ s => ⟨.error words, s, []⟩

/-- If the step fails, go on with the handler from the state in which it stopped. -/
def recover (x : Logged σ α) (handler : String → Logged σ α) : Logged σ α := fun recorder s =>
  match x recorder s with
  | ⟨.ok a, s, written⟩ => ⟨.ok a, s, written⟩
  | ⟨.error words, s, written⟩ =>
    let next := handler words recorder s
    ⟨next.value, next.state, written ++ next.records⟩

/-- A step on a part of the state. -/
def onPart (part : σ → τ) (replace : τ → σ → σ) (x : Logged τ α) : Logged σ α := fun recorder s =>
  let inner := x recorder (part s)
  ⟨inner.value, replace inner.state s, inner.records⟩

end Logged

end SqlRecovery
