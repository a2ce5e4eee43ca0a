import MbmsMiddleware.Program

/-! Computations seen through a view of their state. What a computation returns
or throws, and how it leaves the viewed state, may depend on the viewed state
alone. -/

namespace EStateM

variable {ε σ τ α β γ : Type}

namespace Result

/-- The end of a run with the state it leaves seen through `view`. -/
def mapState (view : σ → τ) : Result ε σ α → Result ε τ α
  | .ok a s => .ok a (view s)
  | .error e s => .error e (view s)

end Result

/-- From states that look alike the computation ends alike. -/
def Respects (view : σ → τ) (x : EStateM ε σ α) : Prop :=
  ∀ ⦃s t⦄, view s = view t → (x s).mapState view = (x t).mapState view

variable {view : σ → τ}

theorem respects_pure (a : α) : Respects view (pure a : EStateM ε σ α) :=
  fun _ _ h => congrArg (Result.ok a) h

theorem respects_throw (e : ε) : Respects view (throw e : EStateM ε σ α) :=
  fun _ _ h => congrArg (Result.error e) h

theorem respects_ofExcept (x : Except ε α) : Respects view (ofExcept x : EStateM ε σ α) := by
  cases x with
  | ok a => exact respects_pure a
  | error e => exact respects_throw e

theorem respects_modify {g : σ → σ} (h : ∀ s t, view s = view t → view (g s) = view (g t)) :
    Respects view (modify g : EStateM ε σ PUnit) :=
  fun s t hst => congrArg (Result.ok PUnit.unit) (h s t hst)

theorem respects_get {f : σ → EStateM ε σ β} (hread : ∀ s t, view s = view t → f s = f t)
    (hf : ∀ s, Respects view (f s)) : Respects view (get >>= f) := by
  intro s t h
  change (f s s).mapState view = (f t t).mapState view
  rw [hread s t h]
  exact hf t h

theorem respects_bind {x : EStateM ε σ α} {f : α → EStateM ε σ β} (hx : Respects view x)
    (hf : ∀ a, Respects view (f a)) : Respects view (x >>= f) := by
  intro s t h
  have hend := hx h
  simp only [bind, EStateM.bind]
  cases hs : x s with
  | ok a s' =>
    cases ht : x t with
    | ok b t' =>
      rw [hs, ht] at hend
      injection hend with hab hst
      subst hab
      exact hf a hst
    | error e t' =>
      rw [hs, ht] at hend
      cases hend
  | error e s' =>
    cases ht : x t with
    | ok b t' =>
      rw [hs, ht] at hend
      cases hend
    | error e' t' =>
      rw [hs, ht] at hend
      injection hend with he hst
      exact congrArg₂ Result.error he hst

theorem respects_forM {f : γ → EStateM ε σ Unit} (h : ∀ c, Respects view (f c)) (l : List γ) :
    Respects view (l.forM f) := by
  induction l with
  | nil => exact respects_pure ()
  | cons c l ih => exact respects_bind (h c) fun _ => ih

end EStateM
