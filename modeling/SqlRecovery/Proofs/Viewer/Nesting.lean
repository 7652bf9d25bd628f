import SqlRecovery.Proofs.Journal
import SqlRecovery.Viewer.Basic

/-! What becomes of the viewer when listeners act on it while they are told of something. What they do
may make more happen, which is told inside the first telling, and so on. Where all of it ends within
some depth of nesting, the depth does not matter: a greater one leads to the same. -/
namespace SqlRecovery.Viewer
open Logged

/-- What an action makes happen to the viewer. -/
def Action.news? : Action → Option News
  | .clear => some .cleared
  | .add statement => some (.arrived statement)
  | _ => none

/-- What an action changes by itself. -/
def Action.change : Action → State → State
  | .register key hearsClear react, v => v.register ⟨key, hearsClear, react⟩
  | .remove key, v => v.remove key
  | .setOpen isOpen, v => v.setOpen isOpen
  | _, v => v

namespace State

/-- The viewer when the telling begins, if there is something to tell. -/
def enter? (v : State) : News → Option State
  | .arrived _ => if v.isOpen then some v else none
  | .cleared => some v.forget

theorem enter?_arrived {v : State} (h : v.isOpen = true) (statement : Statement) :
    v.enter? (.arrived statement) = some v := if_pos h

/-- The viewer when the telling is over. -/
def leave (v : State) : News → State
  | .arrived statement => v.store statement
  | .cleared => v

end State

section Depth
variable {nested nested' : News → Logged State Bool}

theorem perform_of_news {action : Action} {news : News} (h : action.news? = some news) :
    perform nested action = (do let _ ← nested news) := by
  cases action <;> cases h <;> rfl

theorem perform_of_quiet {action : Action} (h : action.news? = none) :
    perform nested action = modify action.change := by
  cases action <;> first | rfl | cases h

theorem perform_below (h : ∀ news, (nested news).Below (nested' news)) (action : Action) :
    (perform nested action).Below (perform nested' action) := by
  cases hnews : action.news? with
  | none =>
    rw [perform_of_quiet hnews, perform_of_quiet hnews]
    exact below_self _
  | some news =>
    rw [perform_of_news hnews, perform_of_news hnews]
    exact (h news).bind fun _ => below_self _

theorem performAll_below (h : ∀ news, (nested news).Below (nested' news)) (actions : List Action) :
    (performAll nested actions).Below (performAll nested' actions) := by
  induction actions with
  | nil => exact below_self _
  | cons action actions ih => exact (perform_below h action).bind fun _ => ih

theorem tellAll_below (h : ∀ news, (nested news).Below (nested' news)) (news : News)
    (listeners : List Listener) :
    (tellAll nested news listeners).Below (tellAll nested' news listeners) := by
  induction listeners with
  | nil => exact below_self _
  | cons l listeners ih =>
    exact (below_self _).bind fun _ => (below_self _).bind fun v =>
      (performAll_below h _).bind fun _ => ih

/-- A statement is dropped at a closed gate, and told and then stored at an open one. -/
private theorem passGate_gives_iff {statement : Statement} {told : Logged State Unit} {v w : State}
    {b : Bool} : (passGate statement told).Gives v b w ↔ (v.isOpen = false ∧ b = false ∧ w = v) ∨
      (v.isOpen = true ∧ ∃ x, told.Gives v () x ∧ b = true ∧ w = x.store statement) := by
  rw [passGate, (gives_get v).bind_iff]
  cases v.isOpen with
  | false =>
    rw [if_neg Bool.false_ne_true, (gives_log _ _ v).bind_iff, gives_pure_iff]
    simp
  | true =>
    have hstore (x : State) : (do modify (·.store statement); return true : Logged State Bool).Gives
        x b w ↔ b = true ∧ w = x.store statement := by
      rw [(gives_modify _ x).bind_iff, gives_pure_iff]
    rw [if_pos rfl, gives_seq_iff]
    simp only [hstore]
    simp

/-- What happens is told if there is something to tell, and dropped otherwise. -/
theorem happen_gives_iff {told : News → Logged State Unit} {news : News} {v w : State} {b : Bool} :
    (happen told news).Gives v b w ↔ (v.enter? news = none ∧ b = false ∧ w = v) ∨
      ∃ u x, v.enter? news = some u ∧ (told news).Gives u () x ∧ b = true ∧ w = x.leave news := by
  cases news with
  | arrived statement =>
    rw [happen, passGate_gives_iff, State.enter?]
    cases v.isOpen <;> simp [State.leave]
  | cleared =>
    rw [happen, (gives_modify _ v).bind_iff, gives_seq_iff]
    simp only [gives_pure_iff]
    simp [State.enter?, State.leave]

/-- Where there is something to tell, it was told. -/
theorem told_of_happen {told : News → Logged State Unit} {news : News} {u v w : State} {b : Bool}
    (henter : v.enter? news = some u) (h : (happen told news).Gives v b w) :
    ∃ x, (told news).Gives u () x := by
  rcases happen_gives_iff.mp h with ⟨hnone, -⟩ | ⟨u', x, henter', htold, -⟩
  · rw [henter] at hnone
    cases hnone
  · rw [henter] at henter'
    cases henter'
    exact ⟨x, htold⟩

theorem happen_below {told told' : News → Logged State Unit}
    (h : ∀ news, (told news).Below (told' news)) (news : News) :
    (happen told news).Below (happen told' news) := by
  intro v b w hgives
  rw [happen_gives_iff] at hgives ⊢
  refine hgives.imp_right ?_
  rintro ⟨u, x, henter, htold, hb, hw⟩
  exact ⟨u, x, henter, h news u () x htold, hb, hw⟩

/-- What ends within a depth ends in the same way within a greater one. -/
theorem tell_below {depth depth' : Nat} (h : depth ≤ depth') (news : News) :
    (tell depth news).Below (tell depth' news) := by
  induction depth generalizing depth' news with
  | zero => exact below_fail _ _
  | succ depth ih =>
    obtain ⟨depth', rfl⟩ := Nat.exists_eq_succ_of_ne_zero (Nat.ne_zero_of_lt h)
    exact (below_self _).bind fun v => tellAll_below
      (happen_below fun news => ih (Nat.le_of_succ_le_succ h) news) news _

/-- Actions are done part by part. -/
theorem performAll_append (done rest : List Action) : performAll nested (done ++ rest) =
    (do performAll nested done; performAll nested rest) := by
  induction done with
  | nil => simp [performAll]
  | cons action done ih => simp [performAll, ih]

/-- What an action makes happen comes first, and then the other actions. -/
theorem performAll_cons_gives_iff {action : Action} {news : News} (hnews : action.news? = some news)
    {rest : List Action} {v w : State} : (performAll nested (action :: rest)).Gives v () w ↔
      ∃ u b, (nested news).Gives v b u ∧ (performAll nested rest).Gives u () w := by
  rw [performAll, perform_of_news hnews, gives_seq_iff]
  simp only [gives_bind_iff, gives_pure_iff]
  constructor
  · rintro ⟨u, ⟨b, _, hnested, -, rfl⟩, hrest⟩
    exact ⟨u, b, hnested, hrest⟩
  · rintro ⟨u, b, hnested, hrest⟩
    exact ⟨u, ⟨b, u, hnested, trivial, rfl⟩, hrest⟩

/-- A listener is told, then it acts, and then the others are told. -/
theorem tellAll_cons_gives_iff {news : News} {l : Listener} {listeners : List Listener}
    {v w : State} : (tellAll nested news (l :: listeners)).Gives v () w ↔
      ∃ u, (performAll nested (l.react (v.call l.key news).calls news)).Gives
          (v.call l.key news) () u ∧ (tellAll nested news listeners).Gives u () w := by
  rw [tellAll, (gives_modify _ v).bind_iff, (gives_get _).bind_iff, gives_seq_iff]

/-- Listeners are told part by part. -/
theorem tellAll_append (news : News) (before after : List Listener) :
    tellAll nested news (before ++ after) =
      (do tellAll nested news before; tellAll nested news after) := by
  induction before with
  | nil => simp [tellAll]
  | cons l before ih => simp [tellAll, ih]

end Depth

section Ends
variable {x y : Nat → Logged State Unit} {u v w : State}

/-- Where the step ends within some depth, a greater one changes nothing. -/
def Deepens (x : Nat → Logged State Unit) : Prop :=
  ∀ depth depth', depth ≤ depth' → (x depth).Below (x depth')

/-- Within some depth the step takes the viewer from one state to another. -/
def Ends (x : Nat → Logged State Unit) (v w : State) : Prop := ∃ depth, (x depth).Gives v () w

theorem Ends.unique {w' : State} (hx : Deepens x) (h : Ends x v w) (h' : Ends x v w') : w = w' := by
  obtain ⟨depth, h⟩ := h
  obtain ⟨depth', h'⟩ := h'
  have hleft := hx _ _ (Nat.le_max_left depth depth') _ _ _ h
  have hright := hx _ _ (Nat.le_max_right depth depth') _ _ _ h'
  exact (hleft.unique hright).2

theorem Ends.seq (hx : Deepens x) (hy : Deepens y) (h : Ends x u v) (h' : Ends y v w) :
    Ends (fun depth => do x depth; y depth) u w := by
  obtain ⟨depth, h⟩ := h
  obtain ⟨depth', h'⟩ := h'
  have hfirst := hx _ _ (Nat.le_max_left depth depth') _ _ _ h
  have hsecond := hy _ _ (Nat.le_max_right depth depth') _ _ _ h'
  exact ⟨max depth depth', hfirst.bind hsecond⟩

end Ends

/-- What listeners do takes the viewer from one state to another. -/
def Does (actions : List Action) : State → State → Prop :=
  Ends fun depth => performAll (happen (tell depth)) actions

/-- Telling listeners takes the viewer from one state to another. -/
def Tells (news : News) (listeners : List Listener) : State → State → Prop :=
  Ends fun depth => tellAll (happen (tell depth)) news listeners

section Steps
variable {news : News} {u v w : State}

private theorem performAll_deepens (actions : List Action) :
    Deepens fun depth => performAll (happen (tell depth)) actions :=
  fun _ _ h => performAll_below (happen_below (tell_below h)) actions

private theorem tellAll_deepens (news : News) (listeners : List Listener) :
    Deepens fun depth => tellAll (happen (tell depth)) news listeners :=
  fun _ _ h => tellAll_below (happen_below (tell_below h)) news listeners

theorem does_nil (v : State) : Does [] v v := ⟨0, gives_pure () v⟩

theorem Does.append {done rest : List Action} (hdone : Does done u v) (hrest : Does rest v w) :
    Does (done ++ rest) u w := by
  simp only [Does, performAll_append]
  exact .seq (performAll_deepens done) (performAll_deepens rest) hdone hrest

theorem Does.unique {actions : List Action} (h : Does actions u v) (h' : Does actions u w) : v = w :=
  Ends.unique (performAll_deepens actions) h h'

theorem does_quiet {action : Action} (h : action.news? = none) (v : State) :
    Does [action] v (action.change v) := by
  have hperform : (perform (happen (tell 0)) action).Gives v () (action.change v) := by
    rw [perform_of_quiet h]
    exact gives_modify _ _
  exact ⟨0, hperform.bind (gives_pure () _)⟩

theorem does_news {action : Action} {depth : Nat} {b : Bool} (hnews : action.news? = some news)
    (h : (happen (tell depth) news).Gives v b w) : Does [action] v w :=
  ⟨depth, (performAll_cons_gives_iff hnews).mpr ⟨w, b, h, gives_pure () w⟩⟩

theorem tells_nil (news : News) (v : State) : Tells news [] v v := ⟨0, gives_pure () v⟩

theorem tells_one {l : Listener}
    (h : Does (l.react (v.call l.key news).calls news) (v.call l.key news) w) :
    Tells news [l] v w := by
  obtain ⟨depth, h⟩ := h
  exact ⟨depth, tellAll_cons_gives_iff.mpr ⟨w, h, gives_pure () w⟩⟩

theorem Tells.append {before after : List Listener} (hbefore : Tells news before u v)
    (hafter : Tells news after v w) : Tells news (before ++ after) u w := by
  simp only [Tells, tellAll_append]
  exact .seq (tellAll_deepens news before) (tellAll_deepens news after) hbefore hafter

theorem Tells.unique {listeners : List Listener} (h : Tells news listeners u v)
    (h' : Tells news listeners u w) : v = w :=
  Ends.unique (tellAll_deepens news listeners) h h'

end Steps

end SqlRecovery.Viewer
