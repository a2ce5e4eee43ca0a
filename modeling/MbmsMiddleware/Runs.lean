import Mathlib.Data.List.Basic
import Mathlib.Tactic.Common

/-! Runs of a system that takes one step for each event: what every step
preserves holds after every run, and a property that each step keeps exactly
under a condition holds throughout a run exactly when every step met it. -/

namespace Runs

variable {σ ε φ : Type*}

/-- Every event of the run that starts in `s` meets `ok` in the state before it. -/
def StepsMeet (step : σ → ε → σ) (ok : σ → ε → Prop) : σ → List ε → Prop
  | _, [] => True
  | s, e :: es => ok s e ∧ StepsMeet step ok (step s e) es

instance StepsMeet.decidable (step : σ → ε → σ) (ok : σ → ε → Prop) [∀ s e, Decidable (ok s e)] :
    ∀ (s : σ) (es : List ε), Decidable (StepsMeet step ok s es)
  | _, [] => isTrue trivial
  | s, e :: es =>
    haveI := StepsMeet.decidable step ok (step s e) es
    inferInstanceAs (Decidable (ok s e ∧ StepsMeet step ok (step s e) es))

/-- The splits of a list at one of its elements, by the list's own recursion. -/
theorem forall_splits_cons {a : ε} {l : List ε} {P : List ε → ε → Prop} :
    (∀ pre x post, a :: l = pre ++ x :: post → P pre x) ↔
      P [] a ∧ ∀ pre x post, l = pre ++ x :: post → P (a :: pre) x := by
  constructor
  · exact fun h => ⟨h [] a l rfl, fun pre x post he => h (a :: pre) x post (by rw [he]; rfl)⟩
  · rintro ⟨h0, h⟩ pre x post he
    cases pre with
    | nil =>
      obtain ⟨rfl, -⟩ := List.cons.inj he
      exact h0
    | cons b pre =>
      obtain ⟨rfl, he'⟩ := List.cons.inj he
      exact h pre x post he'

theorem forall_splits_concat {a : ε} {l : List ε} {P : List ε → ε → Prop} :
    (∀ pre x post, l ++ [a] = pre ++ x :: post → P pre x) ↔
      (∀ pre x post, l = pre ++ x :: post → P pre x) ∧ P l a := by
  induction l generalizing P with
  | nil =>
    rw [List.nil_append, forall_splits_cons]
    simp
  | cons b l ih => rw [List.cons_append, forall_splits_cons, forall_splits_cons, ih, and_assoc]

theorem foldl_invariant {step : σ → ε → σ} {I : σ → Prop}
    (h : ∀ s e, I s → I (step s e)) {s : σ} (hs : I s) (es : List ε) :
    I (es.foldl step s) := by
  induction es generalizing s with
  | nil => exact hs
  | cons e es ih => exact ih (h s e hs)

theorem foldl_invariant_of_mem {step : σ → ε → σ} {I : σ → Prop} {s : σ} {es : List ε}
    (h : ∀ s e, e ∈ es → I s → I (step s e)) (hs : I s) : I (es.foldl step s) := by
  induction es generalizing s with
  | nil => exact hs
  | cons e es ih => exact ih (fun s e he => h s e (by simp [he])) (h s e (by simp) hs)

theorem StepsMeet.invariant {step : σ → ε → σ} {ok : σ → ε → Prop} {I : σ → Prop}
    (h : ∀ s e, I s → ok s e → I (step s e)) {s : σ} {es : List ε}
    (hm : StepsMeet step ok s es) (hs : I s) : I (es.foldl step s) := by
  induction es generalizing s with
  | nil => exact hs
  | cons e es ih => exact ih hm.2 (h s e hs hm.1)

theorem StepsMeet.of_append {step : σ → ε → σ} {ok : σ → ε → Prop} {s : σ} {es es' : List ε}
    (hm : StepsMeet step ok s (es ++ es')) : StepsMeet step ok s es := by
  induction es generalizing s with
  | nil => trivial
  | cons e es ih => exact ⟨hm.1, ih hm.2⟩

theorem StepsMeet.invariant_of_mem {step : σ → ε → σ} {ok : σ → ε → Prop} {I : σ → Prop} {s : σ}
    {es : List ε} (h : ∀ s e, e ∈ es → I s → ok s e → I (step s e))
    (hm : StepsMeet step ok s es) (hs : I s) : I (es.foldl step s) := by
  induction es generalizing s with
  | nil => exact hs
  | cons e es ih =>
    exact ih (fun s e he => h s e (by simp [he])) hm.2 (h s e (by simp) hs hm.1)

theorem StepsMeet.of_forall {step : σ → ε → σ} {ok : σ → ε → Prop} {es : List ε}
    (h : ∀ e ∈ es, ∀ s, ok s e) (s : σ) : StepsMeet step ok s es := by
  induction es generalizing s with
  | nil => trivial
  | cons e es ih => exact ⟨h e (by simp) s, ih (fun e' he' => h e' (by simp [he'])) _⟩

/-- The condition at every place of the run. -/
theorem stepsMeet_iff_splits {step : σ → ε → σ} {ok : σ → ε → Prop} {s : σ} {es : List ε} :
    StepsMeet step ok s es ↔ ∀ pre e post, es = pre ++ e :: post → ok (pre.foldl step s) e := by
  induction es generalizing s with
  | nil => simp [StepsMeet]
  | cons e es ih =>
    rw [forall_splits_cons (P := fun pre e => ok (pre.foldl step s) e), StepsMeet, ih]
    rfl

/-- The states a run passes through all have the property exactly when all
its events meet the condition. `I` is whatever else the steps preserve, and
`A` what is known of the run. -/
theorem prefixes_iff_of_stepsMeet {step : σ → ε → σ} {A ok : σ → ε → Prop} {I G : σ → Prop}
    (hI : ∀ s e, A s e → I s → G s → ok s e → I (step s e))
    (hok : ∀ s e, A s e → I s → G s → (G (step s e) ↔ ok s e))
    {s : σ} (ha : I s) (hg : G s) {es : List ε} (hes : StepsMeet step A s es) :
    (∀ pre, pre <+: es → G (pre.foldl step s)) ↔ StepsMeet step ok s es := by
  induction es generalizing s with
  | nil =>
    refine ⟨fun _ => trivial, fun _ pre hp => ?_⟩
    rw [List.prefix_nil.mp hp]
    exact hg
  | cons e es ih =>
    obtain ⟨hal, hal'⟩ := hes
    constructor
    · intro h
      have he : ok s e := (hok s e hal ha hg).mp (h [e] (by simp))
      have hh := ih (hI s e hal ha hg he) ((hok s e hal ha hg).mpr he) hal'
      exact ⟨he, hh.mp (fun pre hp => h (e :: pre) (List.cons_prefix_cons.mpr ⟨rfl, hp⟩))⟩
    · rintro ⟨he, hm⟩ pre hp
      cases pre with
      | nil => exact hg
      | cons e' pre =>
        obtain ⟨rfl, hp'⟩ := List.cons_prefix_cons.mp hp
        have hh := ih (hI s e' hal ha hg he) ((hok s e' hal ha hg).mpr he) hal'
        exact hh.mpr hm pre hp'

/-- As `prefixes_iff_of_stepsMeet`, where `A` is known of the events alone. -/
theorem prefixes_iff_stepsMeet {step : σ → ε → σ} {ok : σ → ε → Prop} {I G : σ → Prop}
    {A : ε → Prop}
    (hI : ∀ s e, A e → I s → G s → ok s e → I (step s e))
    (hok : ∀ s e, A e → I s → G s → (G (step s e) ↔ ok s e))
    {s : σ} (ha : I s) (hg : G s) {es : List ε} (hes : ∀ e ∈ es, A e) :
    (∀ pre, pre <+: es → G (pre.foldl step s)) ↔ StepsMeet step ok s es :=
  prefixes_iff_of_stepsMeet hI hok ha hg (StepsMeet.of_forall (fun e he _ => hes e he) s)

theorem foldlM_ok {f : σ → ε → Except φ σ} {I : σ → Prop} {l : List ε}
    (h : ∀ s e s', e ∈ l → I s → f s e = .ok s' → I s') {s s' : σ} (hs : I s)
    (hf : l.foldlM f s = .ok s') : I s' := by
  induction l generalizing s with
  | nil =>
    cases hf
    exact hs
  | cons e l ih =>
    rw [List.foldlM_cons] at hf
    cases he : f s e with
    | error x => simp [he, bind, Except.bind] at hf
    | ok t =>
      simp only [he, bind, Except.bind] at hf
      exact ih (fun s e s' hm => h s e s' (by simp [hm])) (h s e t (by simp) hs he) hf

end Runs
