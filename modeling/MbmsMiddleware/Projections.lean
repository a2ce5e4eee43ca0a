import MbmsMiddleware.Runs

/-! Runs of a system seen by an observer. Each step shows labels, and a view of
the state that moves by the labels of every step is, after a run, where the
labels of the whole run take it. -/

namespace Runs

variable {σ ε κ β : Type*}

/-- The labels that the steps of a run show, one after the other. -/
def trace (step : σ → ε → σ) (label : σ → ε → List κ) : σ → List ε → List κ
  | _, [] => []
  | s, e :: es => label s e ++ trace step label (step s e) es

variable {step : σ → ε → σ} {label : σ → ε → List κ}

/-- What holds of a history and the state, if each step adds its labels to it. -/
theorem trace_invariant {I : σ → Prop} {P : List κ → σ → Prop} (hI : ∀ s e, I s → I (step s e))
    (hP : ∀ hist s e, I s → P hist s → P (hist ++ label s e) (step s e)) {hist : List κ} {s : σ}
    (hs : I s) (h : P hist s) (es : List ε) : P (hist ++ trace step label s es) (es.foldl step s) := by
  induction es generalizing hist s with
  | nil => rwa [trace, List.append_nil]
  | cons e es ih =>
    rw [trace, ← List.append_assoc]
    exact ih (hI s e hs) (hP hist s e hs h)

/-- A machine that takes the labels of each step is, after a run, related to the
state as it was before, if each step keeps them related. -/
theorem trace_simulation {move : β → κ → β} {R : σ → β → Prop}
    (hR : ∀ s b e, R s b → R (step s e) ((label s e).foldl move b)) {s : σ} {b : β} (h : R s b)
    (es : List ε) : R (es.foldl step s) ((trace step label s es).foldl move b) := by
  induction es generalizing s b with
  | nil => exact h
  | cons e es ih =>
    rw [List.foldl_cons, trace, List.foldl_append]
    exact ih (hR s b e h)

/-- A view that moves by the labels of each step moves by those of the run. -/
theorem view_foldl (view : σ → β) {move : β → κ → β} {I : σ → Prop}
    (hI : ∀ s e, I s → I (step s e))
    (hview : ∀ s e, I s → view (step s e) = (label s e).foldl move (view s)) {s : σ} (hs : I s)
    (es : List ε) : view (es.foldl step s) = (trace step label s es).foldl move (view s) := by
  have hrun := trace_simulation (R := fun s b => I s ∧ view s = b)
    (fun s b e h => ⟨hI s e h.1, h.2 ▸ hview s e h.1⟩) ⟨hs, rfl⟩ es
  exact hrun.2

theorem filterMap_trace {δ : Type*} {pick : κ → Option δ} {own : σ → ε → List δ} {I : σ → Prop}
    (hI : ∀ s e, I s → I (step s e)) (h : ∀ s e, I s → (label s e).filterMap pick = own s e)
    {s : σ} (hs : I s) (es : List ε) :
    (trace step label s es).filterMap pick = trace step own s es := by
  induction es generalizing s with
  | nil => rfl
  | cons e es ih => rw [trace, List.filterMap_append, h s e hs, ih (hI s e hs), trace]

/-- What was so before a step is so before a run. -/
theorem of_foldl {I : σ → Prop} (hI : ∀ s e, I (step s e) → I s) {s : σ} {es : List ε}
    (h : I (es.foldl step s)) : I s := by
  induction es generalizing s with
  | nil => exact h
  | cons e es ih => exact hI s e (ih h)

/-- A run that goes on to its end is seen as its noticed steps alone are, if the
others leave the view as it is and the noticed ones depend on the view. -/
theorem view_filter (view : σ → β) (goes : σ → Prop) {noticed : ε → Bool}
    (hgoes : ∀ s e, goes (step s e) → goes s)
    (hsame : ∀ s e, noticed e = false → goes (step s e) → view (step s e) = view s)
    (hcongr : ∀ s t e, noticed e = true → view s = view t → view (step s e) = view (step t e))
    {es : List ε} {s t : σ} (h : view s = view t) (hend : goes (es.foldl step s)) :
    view (es.foldl step s) = view ((es.filter noticed).foldl step t) := by
  induction es generalizing s t with
  | nil => exact h
  | cons e es ih =>
    cases hn : noticed e with
    | false =>
      rw [List.filter_cons_of_neg (by simp [hn]), List.foldl_cons]
      exact ih ((hsame s e hn (of_foldl hgoes hend)).trans h) hend
    | true =>
      rw [List.filter_cons_of_pos hn, List.foldl_cons, List.foldl_cons]
      exact ih (hcongr s t e hn h) hend

end Runs
