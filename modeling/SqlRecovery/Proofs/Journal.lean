import SqlRecovery.Journal

/-! Steps under the recorder that never fails: what they come to, and what they write. -/
namespace SqlRecovery.Logged
variable {σ τ α β : Type}

/-- While recording does not fail, the step takes the state `s` to the state `t` and returns `a`. -/
def Gives (x : Logged σ α) (s : σ) (a : α) (t : σ) : Prop :=
  ∃ written, x .quiet s = ⟨.ok a, t, written⟩

/-- While recording does not fail, the step fails with these words and leaves the state `t`. -/
def Stops (x : Logged σ α) (s : σ) (words : String) (t : σ) : Prop :=
  ∃ written, x .quiet s = ⟨.error words, t, written⟩

/-- While recording does not fail, the step takes the state `s` to the state `t`, returns `a` and
writes these records. -/
def Writes (x : Logged σ α) (s : σ) (a : α) (t : σ) (written : List Record) : Prop :=
  x .quiet s = ⟨.ok a, t, written⟩

theorem writes_pure (a : α) (s : σ) : (pure a : Logged σ α).Writes s a s [] := rfl

theorem writes_get (s : σ) : (get : Logged σ σ).Writes s s s [] := rfl

theorem writes_modify (f : σ → σ) (s : σ) : (modify f).Writes s () (f s) [] := rfl

theorem writes_log (level : Level) (message : String) (s : σ) :
    (log level message).Writes s () s [⟨level, message⟩] := rfl

namespace Writes

theorem gives {x : Logged σ α} {s t : σ} {a : α} {written : List Record}
    (h : x.Writes s a t written) : x.Gives s a t := ⟨written, h⟩

/-- The records of the first step come first. -/
theorem bind {x : Logged σ α} {f : α → Logged σ β} {s t u : σ} {a : α} {b : β}
    {first second : List Record} (hx : x.Writes s a t first) (hf : (f a).Writes t b u second) :
    (x >>= f).Writes s b u (first ++ second) := by
  rw [Writes, bind_apply, andThen, hx]
  dsimp only
  rw [hf]

/-- A step that only returns writes nothing more. -/
theorem bind_pure {x : Logged σ α} {s t : σ} {a : α} {written : List Record}
    (h : x.Writes s a t written) (f : α → β) :
    (x >>= fun a => pure (f a)).Writes s (f a) t written := by
  have hreturn := h.bind (f := fun a => pure (f a)) (writes_pure (f a) t)
  rwa [List.append_nil] at hreturn

end Writes

theorem gives_pure (a : α) (s : σ) : (pure a : Logged σ α).Gives s a s := ⟨[], rfl⟩

theorem gives_get (s : σ) : (get : Logged σ σ).Gives s s s := ⟨[], rfl⟩

theorem gives_modify (f : σ → σ) (s : σ) : (modify f).Gives s () (f s) := ⟨[], rfl⟩

theorem gives_log (level : Level) (message : String) (s : σ) : (log level message).Gives s () s :=
  ⟨[⟨level, message⟩], rfl⟩

theorem stops_fail (words : String) (s : σ) : (fail words : Logged σ α).Stops s words s := ⟨[], rfl⟩

/-- Steps that follow each other end exactly if each of them does. -/
theorem gives_bind_iff {x : Logged σ α} {f : α → Logged σ β} {s u : σ} {b : β} :
    (x >>= f).Gives s b u ↔ ∃ a t, x.Gives s a t ∧ (f a).Gives t b u := by
  constructor
  · rintro ⟨written, h⟩
    rw [bind_apply, andThen] at h
    rcases hx : x .quiet s with ⟨_ | a, t, first⟩
    · rw [hx] at h
      cases h
    · rw [hx] at h
      dsimp only at h
      rcases hf : f a .quiet t with ⟨value, state, second⟩
      rw [hf] at h
      cases h
      exact ⟨a, t, ⟨first, hx⟩, second, hf⟩
  · rintro ⟨a, t, ⟨first, hx⟩, second, hf⟩
    exact (Writes.bind hx hf).gives

theorem gives_seq_iff {x : Logged σ Unit} {f : Unit → Logged σ β} {s u : σ} {b : β} :
    (x >>= f).Gives s b u ↔ ∃ t, x.Gives s () t ∧ (f ()).Gives t b u := by
  rw [gives_bind_iff]
  constructor
  · exact fun ⟨_, h⟩ => h
  · exact fun h => ⟨(), h⟩

/-- A step comes to one thing only. -/
theorem Gives.unique {x : Logged σ α} {s t t' : σ} {a a' : α} (h : x.Gives s a t)
    (h' : x.Gives s a' t') : a = a' ∧ t = t' := by
  obtain ⟨written, hx⟩ := h
  obtain ⟨written', hx'⟩ := h'
  rw [hx] at hx'
  cases hx'
  exact ⟨rfl, rfl⟩

theorem gives_pure_iff {a b : α} {s t : σ} : (pure a : Logged σ α).Gives s b t ↔ b = a ∧ t = s := by
  constructor
  · exact fun h => h.unique (gives_pure a s)
  · rintro ⟨rfl, rfl⟩
    exact gives_pure b t

/-- Behind a step that comes to something, it depends on the rest only. -/
theorem Gives.bind_iff {x : Logged σ α} {f : α → Logged σ β} {s t u : σ} {a : α} {b : β}
    (hx : x.Gives s a t) : (x >>= f).Gives s b u ↔ (f a).Gives t b u := by
  rw [gives_bind_iff]
  constructor
  · rintro ⟨a', t', hx', hf⟩
    obtain ⟨rfl, rfl⟩ := hx.unique hx'
    exact hf
  · exact fun hf => ⟨a, t, hx, hf⟩

namespace Gives

theorem value_eq {x : Logged σ α} {s t : σ} {a : α} (h : x.Gives s a t) :
    (x .quiet s).value = .ok a := by
  obtain ⟨written, hx⟩ := h
  rw [hx]

theorem state_eq {x : Logged σ α} {s t : σ} {a : α} (h : x.Gives s a t) :
    (x .quiet s).state = t := by
  obtain ⟨written, hx⟩ := h
  rw [hx]

/-- Steps that follow each other. -/
theorem bind {x : Logged σ α} {f : α → Logged σ β} {s t u : σ} {a : α} {b : β}
    (hx : x.Gives s a t) (hf : (f a).Gives t b u) : (x >>= f).Gives s b u :=
  hx.bind_iff.mpr hf

/-- The second step fails. -/
theorem bind_stops {x : Logged σ α} {f : α → Logged σ β} {s t u : σ} {a : α} {words : String}
    (hx : x.Gives s a t) (hf : (f a).Stops t words u) : (x >>= f).Stops s words u := by
  obtain ⟨first, hx⟩ := hx
  obtain ⟨second, hf⟩ := hf
  refine ⟨first ++ second, ?_⟩
  rw [bind_apply, andThen, hx]
  dsimp only
  rw [hf]

/-- The handler is not needed. -/
theorem recover {x : Logged σ α} {s t : σ} {a : α} (h : x.Gives s a t)
    (handler : String → Logged σ α) : (x.recover handler).Gives s a t := by
  obtain ⟨written, hx⟩ := h
  exact ⟨written, by rw [Logged.recover, hx]⟩

/-- A step on a part leaves the rest alone. -/
theorem onPart {part : σ → τ} {x : Logged τ α} {s : σ} {a : α} {t : τ}
    (h : x.Gives (part s) a t) (replace : τ → σ → σ) :
    (x.onPart part replace).Gives s a (replace t s) := by
  obtain ⟨written, hx⟩ := h
  exact ⟨written, by rw [Logged.onPart, hx]⟩

end Gives

namespace Stops

theorem value_eq {x : Logged σ α} {s t : σ} {words : String} (h : x.Stops s words t) :
    (x .quiet s).value = .error words := by
  obtain ⟨written, hx⟩ := h
  rw [hx]

theorem state_eq {x : Logged σ α} {s t : σ} {words : String} (h : x.Stops s words t) :
    (x .quiet s).state = t := by
  obtain ⟨written, hx⟩ := h
  rw [hx]

/-- What would have followed is not reached. -/
theorem bind {x : Logged σ α} {s t : σ} {words : String} (h : x.Stops s words t)
    (f : α → Logged σ β) : (x >>= f).Stops s words t := by
  obtain ⟨written, hx⟩ := h
  exact ⟨written, by rw [bind_apply, andThen, hx]⟩

theorem onPart {part : σ → τ} {x : Logged τ α} {s : σ} {words : String} {t : τ}
    (h : x.Stops (part s) words t) (replace : τ → σ → σ) :
    (x.onPart part replace).Stops s words (replace t s) := by
  obtain ⟨written, hx⟩ := h
  exact ⟨written, by rw [Logged.onPart, hx]⟩

end Stops

/-- Whatever the recorder does, and also if the step fails, this part of the state stays as it is. -/
def Keeps (x : Logged σ α) (part : σ → τ) : Prop :=
  ∀ recorder s, part (x recorder s).state = part s

theorem keeps_pure (a : α) (part : σ → τ) : (pure a : Logged σ α).Keeps part := fun _ _ => rfl

theorem Keeps.bind {x : Logged σ α} {f : α → Logged σ β} {part : σ → τ} (hx : x.Keeps part)
    (hf : ∀ a, (f a).Keeps part) : (x >>= f).Keeps part := by
  intro recorder s
  have hfirst := hx recorder s
  rw [bind_apply, andThen]
  rcases hrun : x recorder s with ⟨words | a, t, written⟩
  · rwa [hrun] at hfirst
  · rw [hrun] at hfirst
    exact (hf a recorder t).trans hfirst

/-- Wherever the first step ends, the second ends in the same way. -/
def Below (x y : Logged σ α) : Prop := ∀ s a t, x.Gives s a t → y.Gives s a t

theorem below_self (x : Logged σ α) : x.Below x := fun _ _ _ h => h

/-- A step that fails is below all others. -/
theorem below_fail (words : String) (y : Logged σ α) : (fail words).Below y := by
  rintro s a t ⟨written, h⟩
  cases h

theorem Below.bind {x y : Logged σ α} {f g : α → Logged σ β} (hx : x.Below y)
    (hf : ∀ a, (f a).Below (g a)) : (x >>= f).Below (y >>= g) := by
  intro s b u h
  obtain ⟨a, t, hfirst, hsecond⟩ := gives_bind_iff.mp h
  exact (hx s a t hfirst).bind (hf a t b u hsecond)

end SqlRecovery.Logged
