import Mathlib.Logic.Relation
import SqlRecovery.Proofs.Viewer.Nesting

/-! Listeners that act on the viewer while they are told of something cannot change who is told. A
telling goes to the listeners that were registered when it began, once for each registration and in
their order, and a statement is stored when all of them have been told. -/
namespace SqlRecovery.Viewer
open Logged

/-- News that is told, and the viewer when the telling begins. -/
structure Telling where
  news : News
  start : State

/-- While the outer news is told, something that a listener does makes the inner news happen, and it
is told too. -/
def Within (inner outer : Telling) : Prop :=
  ∃ before l after mid done action rest now,
    outer.start.audience outer.news = before ++ l :: after ∧
    Tells outer.news before outer.start mid ∧
    l.react (mid.call l.key outer.news).calls outer.news = done ++ action :: rest ∧
    Does done (mid.call l.key outer.news) now ∧
    action.news? = some inner.news ∧ now.enter? inner.news = some inner.start

/-- There is no endless chain of tellings, each within the one before. -/
def FinitelyNested (t : Telling) : Prop := Acc Within t

/-- The call was made in a telling within this one, or within such a one, and so on. -/
def MadeWithin (c : Call) (t : Telling) : Prop :=
  ∃ inner, Relation.TransGen Within inner t ∧ c.news = inner.news ∧
    ∃ l ∈ inner.start.audience inner.news, c.key = l.key

/-- What one listener's turn in a telling comes to: it is called, and what it then does leads to
further calls. -/
structure Turn where
  listener : Listener
  start : State
  further : List Call
  finish : State

namespace Turn

/-- The viewer when the listener was called. -/
def called (t : Turn) (news : News) : State := t.start.call t.listener.key news

/-- What the listener does when it was called. -/
def actions (t : Turn) (news : News) : List Action := t.listener.react (t.called news).calls news

/-- The call that the turn begins with. -/
def own (t : Turn) (news : News) : Call := ⟨t.listener.key, news, t.start.stored.length⟩

/-- All calls of the turn. -/
def calls (t : Turn) (news : News) : List Call := t.own news :: t.further

/-- The turn is what becomes of the listener's reaction to the call. -/
structure Runs (t : Turn) (news : News) : Prop where
  does : Does (t.actions news) (t.called news) t.finish
  calls_eq : t.finish.calls = t.start.calls ++ t.calls news

end Turn

/-- Turns that follow each other and take the viewer from one state to another. -/
inductive Turns (news : News) : State → List Turn → State → Prop
  | nil (v : State) : Turns news v [] v
  | cons {t : Turn} {turns : List Turn} {w : State} (first : t.Runs news)
      (rest : Turns news t.finish turns w) : Turns news t.start (t :: turns) w

section Runs
variable {news : News} {v w : State} {turns : List Turn}

theorem Turns.tells (h : Turns news v turns w) : Tells news (turns.map (·.listener)) v w := by
  induction h with
  | nil v => exact tells_nil news v
  | cons first _ ih => exact (tells_one first.does).append ih

theorem Turns.calls_eq (h : Turns news v turns w) :
    w.calls = v.calls ++ turns.flatMap (·.calls news) := by
  induction h with
  | nil v => exact (List.append_nil _).symm
  | cons first _ ih => rw [ih, first.calls_eq, List.flatMap_cons, List.append_assoc]

theorem Turns.runs (h : Turns news v turns w) : ∀ turn ∈ turns, turn.Runs news := by
  induction h with
  | nil v => exact fun _ h => absurd h List.not_mem_nil
  | cons first _ ih => exact List.forall_mem_cons.mpr ⟨first, ih⟩

end Runs

/-- A telling that came to its end: everyone had a turn who was there when it began, and all calls but
the turns' own were made in tellings within it. -/
structure Completed (t : Telling) (turns : List Turn) (w : State) : Prop where
  listeners : turns.map (·.listener) = t.start.audience t.news
  run : Turns t.news t.start turns w
  within : ∀ turn ∈ turns, ∀ c ∈ turn.further, MadeWithin c t

theorem calls_change (action : Action) (v : State) : (action.change v).calls = v.calls := by
  cases action <;> rfl

theorem calls_enter {v u : State} {news : News} (h : v.enter? news = some u) : u.calls = v.calls := by
  cases news with
  | cleared =>
    cases h
    rfl
  | arrived statement =>
    rw [State.enter?] at h
    split at h <;> cases h
    rfl

theorem calls_leave (v : State) (news : News) : (v.leave news).calls = v.calls := by
  cases news <;> rfl

section Completed
variable {t inner : Telling} {turns : List Turn} {w : State}

/-- A telling that came to its end does so within some depth. -/
theorem Completed.tell_gives (h : Completed t turns w) :
    ∃ limit, ∀ depth, limit ≤ depth → (tell depth t.news).Gives t.start () w := by
  have htells := h.run.tells
  rw [h.listeners] at htells
  obtain ⟨depth, htell⟩ := htells
  refine ⟨depth + 1, fun depth' hdepth => tell_below hdepth _ _ _ _ ?_⟩
  exact (gives_get t.start).bind htell

/-- Whatever is called in a telling is called within the telling around it. -/
theorem Completed.madeWithin (h : Completed inner turns w) (hinner : Within inner t) :
    ∀ c ∈ turns.flatMap (·.calls inner.news), MadeWithin c t := by
  intro c hc
  obtain ⟨turn, hturn, hc⟩ := List.mem_flatMap.mp hc
  rcases List.mem_cons.mp hc with rfl | hc
  · refine ⟨inner, .single hinner, rfl, turn.listener, ?_, rfl⟩
    rw [← h.listeners]
    exact List.mem_map_of_mem hturn
  · obtain ⟨deeper, hdeeper, hcall⟩ := h.within turn hturn c hc
    exact ⟨deeper, hdeeper.tail hinner, hcall⟩

/-- What listeners do takes the viewer from one state to another, and all that is called by it is
called within the telling. -/
private structure DoesWithin (t : Telling) (actions : List Action) (v w : State) : Prop where
  does : Does actions v w
  calls : ∃ further, w.calls = v.calls ++ further ∧ ∀ c ∈ further, MadeWithin c t

private theorem doesWithin_of_calls_eq {actions : List Action} {v : State} (h : Does actions v w)
    (hcalls : w.calls = v.calls) : DoesWithin t actions v w :=
  ⟨h, [], by rw [hcalls, List.append_nil], fun _ hc => absurd hc List.not_mem_nil⟩

private theorem DoesWithin.append {done rest : List Action} {u v : State}
    (hdone : DoesWithin t done u v) (hrest : DoesWithin t rest v w) :
    DoesWithin t (done ++ rest) u w := by
  obtain ⟨first, hfirst, hmade⟩ := hdone.calls
  obtain ⟨more, hmore, hmade'⟩ := hrest.calls
  refine ⟨hdone.does.append hrest.does, first ++ more, ?_, List.forall_mem_append.mpr ⟨hmade, hmade'⟩⟩
  rw [hmore, hfirst, List.append_assoc]

/-- An action comes to an end if what it makes happen is told within, and that comes to an end. -/
private theorem exists_doesWithin_one {action : Action} {v : State}
    (h : ∀ news u, action.news? = some news → v.enter? news = some u →
      Within ⟨news, u⟩ t ∧ ∃ turns w, Completed ⟨news, u⟩ turns w) :
    ∃ w, DoesWithin t [action] v w := by
  cases hnews : action.news? with
  | none => exact ⟨_, doesWithin_of_calls_eq (does_quiet hnews v) (calls_change action v)⟩
  | some news =>
    cases henter : v.enter? news with
    | none =>
      have hdrop : (happen (tell 0) news).Gives v false v :=
        happen_gives_iff.mpr (.inl ⟨henter, rfl, rfl⟩)
      exact ⟨v, doesWithin_of_calls_eq (does_news hnews hdrop) rfl⟩
    | some u =>
      obtain ⟨hwithin, turns, x, hinner⟩ := h news u hnews henter
      obtain ⟨depth, htell⟩ := hinner.tell_gives
      have hhappen : (happen (tell depth) news).Gives v true (x.leave news) :=
        happen_gives_iff.mpr (.inr ⟨u, x, henter, htell depth (Nat.le_refl depth), rfl, rfl⟩)
      refine ⟨_, does_news hnews hhappen, _, ?_, hinner.madeWithin hwithin⟩
      rw [calls_leave, hinner.run.calls_eq, calls_enter henter]

/-- What a listener does comes to an end if every telling within does. -/
private theorem exists_doesWithin
    (ih : ∀ inner, Within inner t → ∃ turns w, Completed inner turns w)
    {before after : List Listener} {l : Listener} {mid : State}
    (haudience : t.start.audience t.news = before ++ l :: after)
    (htells : Tells t.news before t.start mid) :
    ∃ next, DoesWithin t (l.react (mid.call l.key t.news).calls t.news) (mid.call l.key t.news)
      next := by
  -- The induction is on what is still to be done; what was done is remembered as a run.
  suffices h : ∀ rest done now, l.react (mid.call l.key t.news).calls t.news = done ++ rest →
      DoesWithin t done (mid.call l.key t.news) now →
      ∃ next, DoesWithin t (l.react (mid.call l.key t.news).calls t.news) (mid.call l.key t.news)
        next from
    h _ [] _ rfl (doesWithin_of_calls_eq (does_nil _) rfl)
  intro rest
  induction rest with
  | nil =>
    intro done now hreact hdone
    rw [hreact, List.append_nil]
    exact ⟨now, hdone⟩
  | cons action rest ih' =>
    intro done now hreact hdone
    have hwithin : ∀ news u, action.news? = some news → now.enter? news = some u →
        Within ⟨news, u⟩ t := fun news u hnews henter =>
      ⟨before, l, after, mid, done, action, rest, now, haudience, htells, hreact, hdone.does, hnews,
        henter⟩
    obtain ⟨next, hact⟩ := exists_doesWithin_one fun news u hnews henter =>
      ⟨hwithin news u hnews henter, ih _ (hwithin news u hnews henter)⟩
    refine ih' (done ++ [action]) next ?_ (hdone.append hact)
    rw [hreact, List.append_assoc]
    rfl

/-- A telling comes to an end if every telling within it does. -/
private theorem exists_completed (ih : ∀ inner, Within inner t → ∃ turns w, Completed inner turns w) :
    ∃ turns w, Completed t turns w := by
  -- The induction is on the listeners who are still to be told.
  suffices h : ∀ after before mid, t.start.audience t.news = before ++ after →
      Tells t.news before t.start mid → ∃ turns w, turns.map (·.listener) = after ∧
        Turns t.news mid turns w ∧ ∀ turn ∈ turns, ∀ c ∈ turn.further, MadeWithin c t by
    obtain ⟨turns, w, hlisteners, hrun, hwithin⟩ := h _ [] _ rfl (tells_nil _ _)
    exact ⟨turns, w, hlisteners, hrun, hwithin⟩
  intro after
  induction after with
  | nil => exact fun _ mid _ _ => ⟨[], mid, rfl, .nil mid, fun _ h => absurd h List.not_mem_nil⟩
  | cons l after ih' =>
    intro before mid haudience htells
    obtain ⟨next, hdoes, further, hcalls, hfurther⟩ := exists_doesWithin ih haudience htells
    have hafter : t.start.audience t.news = (before ++ [l]) ++ after := by
      rw [haudience, List.append_assoc]
      rfl
    obtain ⟨turns, w, hlisteners, hrun, hwithin⟩ :=
      ih' (before ++ [l]) next hafter (htells.append (tells_one hdoes))
    have hturn : Turn.Runs ⟨l, mid, further, next⟩ t.news := ⟨hdoes, by
      rw [hcalls]
      exact List.append_assoc _ _ _⟩
    exact ⟨⟨l, mid, further, next⟩ :: turns, w, congrArg (l :: ·) hlisteners, .cons hturn hrun,
      List.forall_mem_cons.mpr ⟨hfurther, hwithin⟩⟩

end Completed

/-- Without endless nesting a telling comes to its end. -/
theorem FinitelyNested.completed {t : Telling} (h : FinitelyNested t) :
    ∃ turns w, Completed t turns w := by
  induction h with
  | intro t _ ih => exact exists_completed ih

/-- A telling that comes to its end within some depth is not nested endlessly. -/
theorem finitelyNested_of_gives {depth : Nat} {news : News} {v w : State}
    (h : (tell depth news).Gives v () w) : FinitelyNested ⟨news, v⟩ := by
  induction depth generalizing news v w with
  | zero =>
    obtain ⟨written, h⟩ := h
    cases h
  | succ depth ih =>
    refine .intro _ ?_
    rintro ⟨inner, u⟩ ⟨before, l, after, mid, done, action, rest, now, haudience, htells, hreact,
      hdone, hnews, henter⟩
    -- The way to the inner telling is unique, so it is the way that was taken.
    rw [tell, (gives_get v).bind_iff, haudience, tellAll_append] at h
    obtain ⟨mid', hbefore, hafter⟩ := gives_seq_iff.mp h
    obtain rfl := htells.unique ⟨depth, hbefore⟩
    obtain ⟨next, hacts, -⟩ := tellAll_cons_gives_iff.mp hafter
    rw [hreact, performAll_append] at hacts
    obtain ⟨now', hdone', hrest⟩ := gives_seq_iff.mp hacts
    obtain rfl := hdone.unique ⟨depth, hdone'⟩
    obtain ⟨x, b, hhappen, -⟩ := (performAll_cons_gives_iff hnews).mp hrest
    obtain ⟨y, hinner⟩ := told_of_happen henter hhappen
    exact ih hinner

/-- What a viewer comes to when a statement arrives at its open gate. -/
structure Delivered (v : State) (statement : Statement) (turns : List Turn) (w : State) : Prop where
  /-- The answer is that the statement was stored, at every depth that is great enough. -/
  answer : ∃ limit, ∀ depth, limit ≤ depth →
    (happen (tell depth) (.arrived statement)).Gives v true w
  /-- Whoever was registered has one turn for each registration, in the order of these. -/
  told : turns.map (·.listener) = v.listeners
  /-- The turns follow each other, and behind the last one the statement is stored. -/
  stored : ∃ u, Turns (.arrived statement) v turns u ∧ w = u.store statement
  /-- There are no calls but those of the turns. -/
  calls : w.calls = v.calls ++ turns.flatMap (·.calls (.arrived statement))
  /-- Each turn begins with the call that tells of the statement; all other calls in it tell of what
  happened by listeners meanwhile. -/
  within : ∀ turn ∈ turns, ∀ c ∈ turn.further, MadeWithin c ⟨.arrived statement, v⟩

/-- What the listener adds in its turn, while the gate is open, is delivered before it goes on. -/
def Turn.Delivers (t : Turn) (news : News) : Prop :=
  ∀ done added rest, t.actions news = done ++ .add added :: rest →
    ∃ now, Does done (t.called news) now ∧ (now.isOpen = true →
      ∃ turns next, Delivered now added turns next ∧ Does rest next t.finish)

section Delivered
variable {v w : State} {statement : Statement} {turns : List Turn}

private theorem exists_delivered (hopen : v.isOpen = true)
    (hfinite : FinitelyNested ⟨.arrived statement, v⟩) :
    ∃ turns w, Delivered v statement turns w := by
  obtain ⟨turns, u, h⟩ := hfinite.completed
  obtain ⟨limit, htell⟩ := h.tell_gives
  refine ⟨turns, u.store statement, ⟨⟨limit, fun depth hdepth => ?_⟩, h.listeners,
    ⟨u, h.run, rfl⟩, h.run.calls_eq, h.within⟩⟩
  exact happen_gives_iff.mpr
    (.inr ⟨v, u, State.enter?_arrived hopen statement, htell depth hdepth, rfl, rfl⟩)

/-- What is given within some depth is what the delivery comes to. -/
theorem Delivered.of_happen (h : Delivered v statement turns w) {depth : Nat} {b : Bool} {x : State}
    (hhappen : (happen (tell depth) (.arrived statement)).Gives v b x) : b = true ∧ x = w := by
  obtain ⟨limit, hgives⟩ := h.answer
  have hdeeper := happen_below (tell_below (Nat.le_max_left depth limit)) _ _ _ _ hhappen
  exact hdeeper.unique (hgives _ (Nat.le_max_right depth limit))

private theorem Turn.Runs.delivers {t : Turn} {news : News} (h : t.Runs news) :
    t.Delivers news := by
  intro done added rest hactions
  obtain ⟨depth, hdoes⟩ := h.does
  simp only [hactions, performAll_append] at hdoes
  obtain ⟨now, hdone, hrest⟩ := gives_seq_iff.mp hdoes
  refine ⟨now, ⟨depth, hdone⟩, fun hopen => ?_⟩
  obtain ⟨next, b, hhappen, hmore⟩ := (performAll_cons_gives_iff rfl).mp hrest
  obtain ⟨x, htell⟩ := told_of_happen (State.enter?_arrived hopen added) hhappen
  obtain ⟨turns, w, hdelivered⟩ := exists_delivered hopen (finitelyNested_of_gives htell)
  obtain ⟨-, rfl⟩ := hdelivered.of_happen hhappen
  exact ⟨turns, next, hdelivered, depth, hmore⟩

end Delivered

/-- Listeners cannot disturb the delivery of a statement, whatever they do to the viewer when they are
told, as long as they do not nest endlessly. The statement is told to the registrations present when
it arrived, once each and in their order. What they add meanwhile is delivered in the same way inside
their turns. The statement is then stored, behind all that was stored meanwhile, and the answer says
so. Who was registered meanwhile is told of the next statement. -/
theorem delivery_undisturbed {v : State} {statement : Statement} (hopen : v.isOpen = true)
    (hfinite : FinitelyNested ⟨.arrived statement, v⟩) :
    ∃ turns w, Delivered v statement turns w ∧
      (∀ b x, (accept statement).Gives v b x → b = true ∧ x = w) ∧
      w.stored.getLast? = some statement ∧
      (∀ turn ∈ turns, turn.Delivers (.arrived statement)) ∧
      ∀ l ∈ w.listeners, (∀ r ∈ v.listeners, r.key ≠ l.key) →
        (∀ turn ∈ turns, turn.listener.key ≠ l.key) ∧
        ∀ next, w.isOpen = true → FinitelyNested ⟨.arrived next, w⟩ →
          ∃ later x, Delivered w next later x ∧ l ∈ later.map (·.listener) := by
  obtain ⟨turns, w, h⟩ := exists_delivered hopen hfinite
  obtain ⟨u, hrun, hstore⟩ := h.stored
  refine ⟨turns, w, h, fun _ _ => h.of_happen, ?_, fun turn hturn => (hrun.runs turn hturn).delivers,
    fun l hl hnew => ⟨fun turn hturn => ?_, fun next hnext hfine => ?_⟩⟩
  · rw [hstore]
    exact List.getLast?_concat
  · refine hnew turn.listener ?_
    rw [← h.told]
    exact List.mem_map_of_mem hturn
  · obtain ⟨later, x, hlater⟩ := exists_delivered hnext hfine
    exact ⟨later, x, hlater, hlater.told ▸ hl⟩

/-- A statement whose parameters are not at issue. -/
private def plain (text : String) : Statement := .labelled text text (Sql.Kind.detect text) []

/-- An open viewer. Its first listener, when it is called for the first time, clears the viewer, removes
both listeners, registers another one, adds a statement and closes the gate. -/
private def meddled : State where
  isOpen := true
  listeners :=
    [⟨"meddler", true, fun calls _ => if calls.length = 1 then
        [.clear, .remove "meddler", .remove "second", .register "newcomer" true fun _ _ => [],
          .add (plain "select 2"), .setOpen false]
      else []⟩,
    ⟨"second", true, fun _ _ => []⟩]
  stored := [plain "select 0"]
  calls := []

theorem delivery_undisturbed_meddled :
    ∃ turns w, Delivered meddled (plain "select 1") turns w ∧
      turns.map (·.listener.key) = ["meddler", "second"] ∧
      w.isOpen = false ∧ w.listeners.map (·.key) = ["newcomer"] ∧
      w.stored = [plain "select 2", plain "select 1"] ∧
      w.calls.map (fun c => (c.key, c.stored)) =
        [("meddler", 1), ("meddler", 0), ("second", 0), ("newcomer", 0), ("second", 1)] := by
  have hfinite : FinitelyNested ⟨.arrived (plain "select 1"), meddled⟩ :=
    @finitelyNested_of_gives 3 _ _ _ ⟨_, rfl⟩
  obtain ⟨turns, w, h, -⟩ := delivery_undisturbed rfl hfinite
  obtain ⟨-, rfl⟩ := @Delivered.of_happen _ _ _ _ h 3 true _ ⟨_, rfl⟩
  refine ⟨turns, _, h, ?_, rfl, rfl, rfl, rfl⟩
  exact List.map_map.symm.trans (congrArg (List.map (·.key)) h.told)

end SqlRecovery.Viewer
