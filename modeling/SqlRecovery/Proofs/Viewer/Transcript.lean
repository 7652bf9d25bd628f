import SqlRecovery.Proofs.Journal
import SqlRecovery.Viewer.Basic

/-! What a viewer stores, answers and tells over a whole run, if its listeners only listen. All of it
can be read off the requests: which statements came through an open gate and were not cleared, and
who was registered when. -/
namespace SqlRecovery.Viewer
open Logged

/-- What is asked of a viewer. -/
inductive Request where
  | register (key : String) (hearsClear : Bool)
  | remove (key : String)
  | add (statement : Statement)
  | setOpen (isOpen : Bool)
  | toggle
  | clear

/-- A listener that does nothing to the viewer. -/
def listening (key : String) (hearsClear : Bool) : Listener := ⟨key, hearsClear, fun _ _ => []⟩

/-- Do what is asked, and answer if there is an answer: whether a listener was found, whether a
statement was stored, whether the gate is open now. -/
def serve : Request → Logged State (Option Bool)
  | .register key hearsClear => do
    modify (·.register (listening key hearsClear))
    return none
  | .remove key => do
    let found := (← get).knows key
    modify (·.remove key)
    return some found
  | .add statement => return some (← accept statement)
  | .setOpen isOpen => do
    modify (·.setOpen isOpen)
    return none
  | .toggle => do
    modify State.toggle
    return some (← get).isOpen
  | .clear => do
    clear
    return none

/-- Serve requests in their order. -/
def serveAll : List Request → Logged State (List (Option Bool))
  | [] => pure []
  | request :: requests => do
    let first ← serve request
    return first :: (← serveAll requests)

namespace Request

/-- The gate behind a request. -/
def gate (isOpen : Bool) : Request → Bool
  | setOpen isOpen => isOpen
  | toggle => !isOpen
  | _ => isOpen

def isClear : Request → Bool
  | clear => true
  | _ => false

def removes (key : String) : Request → Bool
  | remove other => key == other
  | _ => false

end Request

/-- Whether the gate is open behind these requests. -/
def openAfter (requests : List Request) : Bool := requests.foldl Request.gate true

/-- The registrations that no later request removed. -/
def registered : List Request → List Listener
  | [] => []
  | .register key hearsClear :: later =>
    if later.any (Request.removes key) then registered later
    else listening key hearsClear :: registered later
  | _ :: later => registered later

/-- The statements that met an open gate and were not cleared later. -/
def kept (isOpen : Bool) : List Request → List Statement
  | [] => []
  | .add statement :: later =>
    if isOpen && !later.any Request.isClear then statement :: kept isOpen later
    else kept isOpen later
  | request :: later => kept (request.gate isOpen) later

/-- The calls that a request leads to behind the earlier ones: one for each registration, in the order
of the registrations. -/
def callsFor (earlier : List Request) : Request → List Call
  | .add statement =>
    if openAfter earlier then
      (registered earlier).map fun l => ⟨l.key, .arrived statement, (kept true earlier).length⟩
    else []
  | .clear => ((registered earlier).filter (·.hearsClear)).map fun l => ⟨l.key, .cleared, 0⟩
  | _ => []

/-- The answer to a request behind the earlier ones. -/
def answerFor (earlier : List Request) : Request → Option Bool
  | .remove key => some ((registered earlier).any (·.key == key))
  | .add _ => some (openAfter earlier)
  | .toggle => some !openAfter earlier
  | _ => none

/-- What each of several requests leads to behind the earlier ones. -/
def along {α : Type} (f : List Request → Request → α) (earlier : List Request) :
    List Request → List α
  | [] => []
  | request :: later => f earlier request :: along f (earlier ++ [request]) later

section
variable (earlier : List Request) (request : Request)

private theorem openAfter_append :
    openAfter (earlier ++ [request]) = request.gate (openAfter earlier) :=
  List.foldl_append

private theorem along_append {α : Type} (f : List Request → Request → α) (before : List Request) :
    along f before (earlier ++ [request]) =
      along f before earlier ++ [f (before ++ earlier) request] := by
  induction earlier generalizing before with
  | nil => rw [List.append_nil]; rfl
  | cons first earlier ih =>
    rw [List.cons_append, along, ih, along, List.append_assoc]
    rfl

/-- One more request removes registrations, or adds one. -/
private theorem registered_append : registered (earlier ++ [request]) =
    (registered earlier).filter (fun l => !request.removes l.key) ++ registered [request] := by
  induction earlier with
  | nil => rfl
  | cons first earlier ih =>
    cases first with
    | register key hearsClear =>
      rw [List.cons_append, registered, registered, List.any_append, ih]
      cases hlater : earlier.any (Request.removes key) with
      | true => rfl
      | false =>
        cases hlast : request.removes key with
        | true => simp [hlast, listening]
        | false => simp [hlast, listening]
    | _ => exact ih

/-- One more request clears what is kept, or adds to it. -/
private theorem kept_append (isOpen : Bool) : kept isOpen (earlier ++ [request]) =
    (if request.isClear then [] else kept isOpen earlier) ++
      kept (earlier.foldl Request.gate isOpen) [request] := by
  induction earlier generalizing isOpen with
  | nil => cases request <;> rfl
  | cons first earlier ih =>
    cases first with
    | add statement =>
      rw [List.cons_append, kept, kept, List.any_append, ih, List.foldl_cons]
      cases hgate : isOpen && !earlier.any Request.isClear with
      | true => cases hlast : request.isClear <;> simp_all [Request.gate]
      | false => cases hlast : request.isClear <;> simp_all [Request.gate]
    | _ => exact ih _

private theorem react_of_mem_registered {l : Listener} (h : l ∈ registered earlier) :
    l.react = fun _ _ => [] := by
  induction earlier with
  | nil => cases h
  | cons first earlier ih =>
    cases first with
    | register key hearsClear =>
      rw [registered] at h
      split at h
      · exact ih h
      · rcases List.mem_cons.mp h with rfl | h
        · rfl
        · exact ih h
    | _ => exact ih h

end

/-- The viewer behind calls that tell of something. -/
private def State.told (v : State) (news : News) (listeners : List Listener) : State :=
  { v with calls := v.calls ++ listeners.map fun l => ⟨l.key, news, v.stored.length⟩ }

private theorem tellAll_gives (nested : News → Logged State Bool) (news : News)
    {listeners : List Listener} (h : ∀ l ∈ listeners, l.react = fun _ _ => []) (v : State) :
    (tellAll nested news listeners).Gives v () (v.told news listeners) := by
  induction listeners generalizing v with
  | nil =>
    have hnone : v.told news [] = v :=
      congrArg (State.mk v.isOpen v.listeners v.stored) (List.append_nil v.calls)
    rw [hnone]
    exact gives_pure _ _
  | cons l listeners ih =>
    rw [List.forall_mem_cons] at h
    have hcons : v.told news (l :: listeners) = (v.call l.key news).told news listeners :=
      congrArg (State.mk v.isOpen v.listeners v.stored) (List.append_cons _ _ _)
    rw [hcons, tellAll, h.1]
    exact (gives_modify _ _).bind ((gives_get _).bind ((gives_pure () _).bind (ih h.2 _)))

private theorem accept_gives {v : State} (h : ∀ l ∈ v.listeners, l.react = fun _ _ => [])
    (statement : Statement) : (accept statement).Gives v v.isOpen
      (if v.isOpen then (v.told (.arrived statement) v.listeners).store statement else v) := by
  change (passGate statement _).Gives _ _ _
  refine (gives_get v).bind ?_
  cases v.isOpen with
  | true =>
    exact ((gives_get v).bind (tellAll_gives _ _ h v)).bind
      ((gives_modify _ _).bind (gives_pure _ _))
  | false => exact (gives_log _ _ _).bind (gives_pure _ _)

private theorem clear_gives {v : State} (h : ∀ l ∈ v.listeners, l.react = fun _ _ => []) :
    clear.Gives v () (v.forget.told .cleared (v.listeners.filter (·.hearsClear))) := by
  have hsilent : ∀ l ∈ v.listeners.filter (·.hearsClear), l.react = fun _ _ => [] :=
    fun l hl => h l (List.mem_filter.mp hl).1
  have htell : (tell nestingLimit .cleared).Gives v.forget ()
      (v.forget.told .cleared (v.listeners.filter (·.hearsClear))) :=
    (gives_get v.forget).bind (tellAll_gives _ .cleared hsilent v.forget)
  exact ((gives_modify State.forget v).bind (htell.bind (gives_pure true _))).bind (gives_pure () _)

/-- A viewer that has served these requests. -/
private structure Served (v : State) (requests : List Request) : Prop where
  isOpen : v.isOpen = openAfter requests
  listeners : v.listeners = registered requests
  stored : v.stored = kept true requests
  calls : v.calls = (along callsFor [] requests).flatten

private theorem served_fresh : Served .fresh [] := ⟨rfl, rfl, rfl, rfl⟩

/-- What one more request has to do. -/
private theorem Served.further {v next : State} {earlier : List Request} (h : Served v earlier)
    {request : Request} (hopen : next.isOpen = request.gate v.isOpen)
    (hlisteners : next.listeners =
      v.listeners.filter (fun l => !request.removes l.key) ++ registered [request])
    (hstored : next.stored = (if request.isClear then [] else v.stored) ++ kept v.isOpen [request])
    (hcalls : next.calls = v.calls ++ callsFor earlier request) :
    Served next (earlier ++ [request]) where
  isOpen := by rw [hopen, h.isOpen, openAfter_append]
  listeners := by rw [hlisteners, h.listeners, registered_append]
  stored := by
    rw [hstored, h.stored, h.isOpen, kept_append]
    rfl
  calls := by rw [hcalls, h.calls, along_append, List.flatten_concat, List.nil_append]

private theorem Served.serve {v : State} {earlier : List Request} (h : Served v earlier)
    (request : Request) :
    ∃ next, (serve request).Gives v (answerFor earlier request) next ∧
      Served next (earlier ++ [request]) := by
  have hnone : ∀ {α : Type} (xs : List α), xs = xs ++ [] := fun xs => (List.append_nil xs).symm
  have hall : v.listeners.filter (fun _ => !false) = v.listeners :=
    List.filter_eq_self.mpr fun _ _ => rfl
  have hsame : v.listeners = v.listeners.filter (fun _ => !false) ++ [] := by
    rw [hall, List.append_nil]
  have hsilent : ∀ l ∈ v.listeners, l.react = fun _ _ => [] := by
    intro l hl
    rw [h.listeners] at hl
    exact react_of_mem_registered earlier hl
  cases request with
  | register key hearsClear =>
    exact ⟨_, (gives_modify _ _).bind (gives_pure _ _),
      h.further rfl (congrArg (· ++ [listening key hearsClear]) hall.symm) (hnone _) (hnone _)⟩
  | remove key =>
    have hfound : answerFor earlier (.remove key) = some (v.knows key) := by
      rw [answerFor, State.knows, h.listeners]
    rw [hfound]
    exact ⟨_, (gives_get _).bind ((gives_modify _ _).bind (gives_pure _ _)),
      h.further rfl (hnone _) (hnone _) (hnone _)⟩
  | setOpen isOpen =>
    exact ⟨_, (gives_modify _ _).bind (gives_pure _ _), h.further rfl hsame (hnone _) (hnone _)⟩
  | toggle =>
    have hnow : answerFor earlier .toggle = some v.toggle.isOpen := by
      rw [answerFor, ← h.isOpen]
      rfl
    rw [hnow]
    exact ⟨_, (gives_modify _ _).bind ((gives_get _).bind (gives_pure _ _)),
      h.further rfl hsame (hnone _) (hnone _)⟩
  | clear =>
    refine ⟨_, (clear_gives hsilent).bind (gives_pure _ _), h.further rfl hsame rfl ?_⟩
    rw [callsFor, ← h.listeners]
    rfl
  | add statement =>
    have hstored : answerFor earlier (.add statement) = some v.isOpen := by
      rw [answerFor, h.isOpen]
    rw [hstored]
    refine ⟨_, (accept_gives hsilent statement).bind (gives_pure _ _), ?_⟩
    cases hopen : v.isOpen with
    | true =>
      rw [if_pos rfl]
      refine h.further rfl hsame ?_ ?_
      · rw [hopen]
        rfl
      · rw [callsFor, ← h.isOpen, hopen, if_pos rfl, ← h.listeners, ← h.stored]
        rfl
    | false =>
      rw [if_neg Bool.false_ne_true]
      refine h.further rfl hsame ?_ ?_
      · rw [hopen]
        exact hnone _
      · rw [callsFor, ← h.isOpen, hopen, if_neg Bool.false_ne_true, List.append_nil]

private theorem Served.serveAll {v : State} {earlier : List Request} (h : Served v earlier)
    (requests : List Request) :
    ∃ next, (serveAll requests).Gives v (along answerFor earlier requests) next ∧
      Served next (earlier ++ requests) := by
  induction requests generalizing v earlier with
  | nil => exact ⟨v, gives_pure _ _, by rwa [List.append_nil]⟩
  | cons request requests ih =>
    obtain ⟨next, hfirst, hnext⟩ := h.serve request
    obtain ⟨last, hrest, hlast⟩ := ih hnext
    rw [List.append_assoc] at hlast
    exact ⟨last, hfirst.bind (hrest.bind (gives_pure _ _)), hlast⟩

/-- A run of a viewer whose listeners only listen. Behind any requests the viewer stores, in order,
the statements that met an open gate and were not cleared since; every one of these was told to the
listeners registered at that moment, once for each registration and in the order of the registrations,
and so was every clearing. A removal takes away all registrations of a listener, and answers whether
there was one. A statement that meets a closed gate changes nothing and is told to nobody. -/
theorem serveAll_transcript (requests : List Request) :
    ∃ v, (serveAll requests).Gives .fresh (along answerFor [] requests) v ∧
      v.isOpen = openAfter requests ∧
      v.stored = kept true requests ∧
      v.listeners = registered requests ∧
      v.calls = (along callsFor [] requests).flatten ∧
      (∀ key, registered (requests ++ [.remove key]) =
        (registered requests).filter fun l => !(l.key == key)) ∧
      ∀ statement, openAfter requests = false → (accept statement).Gives v false v := by
  obtain ⟨v, hgives, hserved⟩ := served_fresh.serveAll requests
  rw [List.nil_append] at hserved
  refine ⟨v, hgives, hserved.isOpen, hserved.stored, hserved.listeners, hserved.calls, ?_, ?_⟩
  · intro key
    rw [registered_append]
    exact List.append_nil _
  · intro statement hclosed
    have haccept := accept_gives (v := v) (fun l hl =>
      react_of_mem_registered requests (hserved.listeners ▸ hl)) statement
    rwa [hserved.isOpen, hclosed, if_neg Bool.false_ne_true] at haccept

example : callsFor [.register "a" true, .register "b" false, .register "a" true] .clear =
    [⟨"a", .cleared, 0⟩, ⟨"a", .cleared, 0⟩] := rfl

end SqlRecovery.Viewer
