import SqlRecovery.Journal

/-! Steps under recorders that fail on some records. What such a step comes to is known wherever no
record fails it: there it does what it does under the recorder that never fails. -/
namespace SqlRecovery.Logged
variable {σ α β : Type}

/-- The step goes on only while recording does not fail, and none of its records is an error. -/
structure Plain (x : Logged σ α) : Prop where
  agrees : ∀ recorder s a t written, x recorder s = ⟨.ok a, t, written⟩ →
    x .quiet s = ⟨.ok a, t, written⟩
  mild : ∀ recorder s, ∀ record ∈ (x recorder s).records, record.level ≠ .error

theorem plain_pure (a : α) : (pure a : Logged σ α).Plain where
  agrees _ _ _ _ _ h := h
  mild _ _ _ h := absurd h List.not_mem_nil

theorem plain_get : (get : Logged σ σ).Plain where
  agrees _ _ _ _ _ h := h
  mild _ _ _ h := absurd h List.not_mem_nil

theorem plain_modify (f : σ → σ) : (modify f).Plain where
  agrees _ _ _ _ _ h := h
  mild _ _ _ h := absurd h List.not_mem_nil

theorem plain_log {level : Level} (h : level ≠ .error) (message : String) :
    (log level message : Logged σ Unit).Plain where
  agrees recorder s a t written hlog := by
    rw [log] at hlog
    cases hfault : recorder ⟨level, message⟩ with
    | none =>
      rw [hfault] at hlog
      exact hlog
    | some words =>
      rw [hfault] at hlog
      cases hlog
  mild recorder s record hrecord := by
    obtain rfl := List.mem_singleton.mp hrecord
    exact h

/-- Plain steps that follow each other. -/
theorem Plain.bind {x : Logged σ α} {f : α → Logged σ β} (hx : x.Plain)
    (hf : ∀ a, (f a).Plain) : (x >>= f).Plain where
  agrees recorder s b u written h := by
    rw [bind_apply, andThen] at h ⊢
    rcases hfirst : x recorder s with ⟨_ | a, t, before⟩
    · rw [hfirst] at h
      cases h
    · rw [hfirst] at h
      rw [hx.agrees recorder s a t before hfirst]
      dsimp only at h ⊢
      rcases hsecond : f a recorder t with ⟨value, state, behind⟩
      rw [hsecond] at h
      cases h
      rw [(hf a).agrees recorder t b state behind hsecond]
  mild recorder s record hrecord := by
    have hmild := hx.mild recorder s
    rw [bind_apply, andThen] at hrecord
    rcases hfirst : x recorder s with ⟨_ | a, t, before⟩
    · rw [hfirst] at hrecord hmild
      exact hmild record hrecord
    · rw [hfirst] at hrecord hmild
      rcases List.mem_append.mp hrecord with hrecord | hrecord
      · exact hmild record hrecord
      · exact (hf a).mild recorder t record hrecord

end SqlRecovery.Logged
