import SqlRecovery.Journal
import SqlRecovery.Statement

/-! A viewer keeps the statements that arrive while its gate is open, and tells its listeners. A
listener may act on the viewer while it is told of something; whoever was registered when it happened
is told all the same. -/
namespace SqlRecovery.Viewer
open Logged

/-- What listeners are told. -/
inductive News where
  | arrived (statement : Statement)
  | cleared

/-- One listener was told something, while so many statements were stored. -/
structure Call where
  key : String
  news : News
  stored : Nat

/-- What a listener may do to the viewer. A listener that it registers comes with its own reaction,
which may depend on all that listeners were told. -/
inductive Action where
  | register (key : String) (hearsClear : Bool) (react : List Call → News → List Action)
  | remove (key : String)
  | clear
  | setOpen (isOpen : Bool)
  | add (statement : Statement)

/-- A listener. Its key tells it from all others. What it does when it is told of something depends on
all that was told so far, and so on all that it could find the viewer to be by then. -/
structure Listener where
  key : String
  hearsClear : Bool
  react : List Call → News → List Action

/-- A viewer and the calls that it made. -/
structure State where
  isOpen : Bool
  listeners : List Listener
  stored : List Statement
  calls : List Call

namespace State

/-- An open viewer without statements and listeners. -/
def fresh : State := ⟨true, [], [], []⟩

/-- Register a listener. One that is registered twice is told twice. -/
def register (v : State) (listener : Listener) : State :=
  { v with listeners := v.listeners ++ [listener] }

/-- The listener is registered. -/
def knows (v : State) (key : String) : Bool := v.listeners.any (·.key == key)

/-- Remove a listener as often as it is registered. -/
def remove (v : State) (key : String) : State :=
  { v with listeners := v.listeners.filter (·.key != key) }

/-- Open or close the gate. -/
def setOpen (v : State) (isOpen : Bool) : State := { v with isOpen }

/-- Open a closed gate, close an open one. -/
def toggle (v : State) : State := v.setOpen !v.isOpen

/-- Tell one listener. -/
def call (v : State) (key : String) (news : News) : State :=
  { v with calls := v.calls ++ [⟨key, news, v.stored.length⟩] }

/-- The listeners that are told. -/
def audience (v : State) : News → List Listener
  | .arrived _ => v.listeners
  | .cleared => v.listeners.filter (·.hearsClear)

/-- Forget the statements. -/
def forget (v : State) : State := { v with stored := [] }

/-- Keep a statement. -/
def store (v : State) (statement : Statement) : State :=
  { v with stored := v.stored ++ [statement] }

/-- The laid out statements with empty lines between them. -/
def copyAll (v : State) : String := "\n\n".intercalate (v.stored.map (·.formatted))

end State

/-- Do what a listener does. What happens to the viewer by it goes through `nested`. -/
def perform (nested : News → Logged State Bool) : Action → Logged State Unit
  | .register key hearsClear react => modify (·.register ⟨key, hearsClear, react⟩)
  | .remove key => modify (·.remove key)
  | .clear => do let _ ← nested .cleared
  | .setOpen isOpen => modify (·.setOpen isOpen)
  | .add statement => do let _ ← nested (.arrived statement)

/-- Do one thing after the other. -/
def performAll (nested : News → Logged State Bool) : List Action → Logged State Unit
  | [] => pure ()
  | action :: actions => do
    perform nested action
    performAll nested actions

/-- Tell listeners in their order, and let each act before the next one is told. -/
def tellAll (nested : News → Logged State Bool) (news : News) : List Listener → Logged State Unit
  | [] => pure ()
  | listener :: listeners => do
    modify (·.call listener.key news)
    performAll nested (listener.react (← get).calls news)
    tellAll nested news listeners

/-- If the gate is open, tell of the statement and then store it; otherwise drop it. -/
def passGate (statement : Statement) (tell : Logged State Unit) : Logged State Bool := do
  if (← get).isOpen then
    tell
    modify (·.store statement)
    return true
  else
    log .debug ("控制台未监听，丢弃: " ++ statement.logged)
    return false

/-- What happens to the viewer: a statement comes to the gate, or the statements are forgotten and
then it is told. Whether there was something to tell. -/
def happen (tell : News → Logged State Unit) : News → Logged State Bool
  | .arrived statement => passGate statement (tell (.arrived statement))
  | .cleared => do
    modify State.forget
    tell .cleared
    return true

/-- Tell whoever is registered now. By what listeners do more may happen, down to the given depth. -/
def tell : Nat → News → Logged State Unit
  | 0, _ => fail "statements are nested too deeply"
  | depth + 1, news => do tellAll (happen (tell depth)) news ((← get).audience news)

/-- How deeply listeners may nest what happens by them. -/
def nestingLimit : Nat := 1000

/-- A statement arrives at the viewer. Whether it was stored. -/
def accept (statement : Statement) : Logged State Bool := happen (tell nestingLimit) (.arrived statement)

/-- Clear the viewer. -/
def clear : Logged State Unit := do let _ ← happen (tell nestingLimit) .cleared

end SqlRecovery.Viewer
