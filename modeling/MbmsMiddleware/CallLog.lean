import MbmsMiddleware.ConditionalRuns
import MbmsMiddleware.Runs

/-! The log of a run: the calls it makes, each with the state it is made in.
What a view of the state makes of every single call, the run makes of its log. -/

namespace Program

variable {ι : Type} {ρ : ι → Type} {ε α β γ σ : Type}

/-- The handler that also writes down every call. -/
def logged (handler : (op : ι) → EStateM ε σ (ρ op)) (op : ι) :
    EStateM ε (σ × List (ι × σ)) (ρ op) := fun s =>
  match handler op s.1 with
  | .ok r t => .ok r (t, s.2 ++ [(op, s.1)])
  | .error e t => .error e (t, s.2 ++ [(op, s.1)])

variable {handler : (op : ι) → EStateM ε σ (ρ op)} {ok : ι → σ → Prop} {Q : α → σ → Prop}
  {E : ε → σ → Prop}

theorem Holds.logged {p : Program ι ρ ε α} {s : σ} (h : Holds handler ok Q E p s)
    (l : List (ι × σ)) :
    Holds (Program.logged handler) (fun op t => ok op t.1) (fun a t => Q a t.1)
      (fun e t => E e t.1) p (s, l) := by
  induction p generalizing s l with
  | pure a => exact h
  | throw e => exact h
  | call op next ih =>
    obtain ⟨hop, h⟩ := h
    refine ⟨hop, ?_⟩
    unfold Program.logged
    cases ho : handler op s with
    | ok r t =>
      rw [ho] at h
      exact ih r h _
    | error e t =>
      rw [ho] at h
      exact h

theorem yields_logged (op : ι) {Q : ρ op → σ × List (ι × σ) → Prop}
    {E : ε → σ × List (ι × σ) → Prop} {t : σ × List (ι × σ)}
    (h : ok op t.1 → (handler op t.1).Ensures (fun r s => Q r (s, t.2 ++ [(op, t.1)]))
      (fun e s => E e (s, t.2 ++ [(op, t.1)]))) :
    Yields (Program.logged handler) (fun op t => ok op t.1) Q E (perform op) t := by
  intro hop
  have hcall := h hop
  unfold Program.logged
  cases ho : handler op t.1 <;> rw [ho] at hcall <;> exact hcall

/-- Writing the calls down changes nothing else. -/
theorem ensures_of_logged {p : Program ι ρ ε α} {s : σ} {l : List (ι × σ)}
    (h : (p.run (Program.logged handler) (s, l)).Ensures (fun a t => Q a t.1) (fun e t => E e t.1)) :
    (p.run handler s).Ensures Q E := by
  induction p generalizing s l with
  | pure a => exact h
  | throw e => exact h
  | call op next ih =>
    simp only [run, Program.logged] at h ⊢
    cases ho : handler op s with
    | ok r t =>
      rw [ho] at h
      exact ih r h
    | error e t =>
      rw [ho] at h
      exact h

/-- The log holds the calls of the run, and replaying it gives what the view
shows of the state: at the end, and at each of the calls. -/
theorem Holds.replay (view : σ → β) (step : β → ι × σ → β)
    (hstep : ∀ op s, ok op s → view (handler op s).state = step (view s) (op, s))
    {p : Program ι ρ ε α} {s : σ} (h : Holds handler ok Q E p s) (l : List (ι × σ)) :
    ∃ log, (p.run (Program.logged handler) (s, l)).state = ((p.run handler s).state, l ++ log) ∧
      view (p.run handler s).state = log.foldl step (view s) ∧
      ∀ pre c post, log = pre ++ c :: post → ok c.1 c.2 ∧ view c.2 = pre.foldl step (view s) := by
  induction p generalizing s l with
  | pure a => exact ⟨[], by rw [List.append_nil]; rfl, rfl, by simp⟩
  | throw e => exact ⟨[], by rw [List.append_nil]; rfl, rfl, by simp⟩
  | call op next ih =>
    obtain ⟨hop, h⟩ := h
    have hview := hstep op s hop
    simp only [run, Program.logged]
    cases ho : handler op s with
    | ok r t =>
      rw [ho] at h hview
      change view t = _ at hview
      obtain ⟨log, hrun, hend, hlog⟩ := ih r h (l ++ [(op, s)])
      refine ⟨(op, s) :: log, ?_, ?_, ?_⟩
      · dsimp only
        rw [hrun, List.append_assoc]
        rfl
      · rw [List.foldl_cons, ← hview]
        exact hend
      · rw [Runs.forall_splits_cons (P := fun pre c => ok c.1 c.2 ∧ view c.2 = pre.foldl step (view s))]
        rw [hview] at hlog
        exact ⟨⟨hop, rfl⟩, hlog⟩
    | error e t =>
      rw [ho] at hview
      refine ⟨[(op, s)], rfl, hview, ?_⟩
      rw [Runs.forall_splits_cons (P := fun pre c => ok c.1 c.2 ∧ view c.2 = pre.foldl step (view s))]
      exact ⟨⟨hop, rfl⟩, by simp⟩

/-- The calls that have been made, without the states. -/
def calls (t : σ × List (ι × σ)) : List ι := t.2.map Prod.fst

theorem perform_calls (op : ι) (t : σ × List (ι × σ)) :
    Holds (Program.logged handler) (fun _ _ => True)
      (fun r t' => handler op t.1 = .ok r t'.1 ∧ calls t' = calls t ++ [op]) (fun _ _ => True)
      (perform op) t := by
  refine ⟨trivial, ?_⟩
  unfold Program.logged
  cases ho : handler op t.1 with
  | error e s => exact trivial
  | ok r s => exact ⟨rfl, List.map_append⟩

/-- A loop makes the calls of its rounds. -/
theorem forM_calls {f : γ → Program ι ρ ε Unit} {g : γ → List ι} {l : List γ}
    (h : ∀ c ∈ l, ∀ t, Holds (Program.logged handler) (fun _ _ => True)
      (fun _ t' => calls t' = calls t ++ g c) (fun _ _ => True) (f c) t)
    (t : σ × List (ι × σ)) :
    Holds (Program.logged handler) (fun _ _ => True)
      (fun _ t' => calls t' = calls t ++ l.flatMap g) (fun _ _ => True) (l.forM f) t := by
  induction l generalizing t with
  | nil => exact (List.append_nil _).symm
  | cons c l ih =>
    have hforM : (c :: l).forM f = f c >>= fun _ => l.forM f := rfl
    rw [hforM]
    apply holds_bind
    apply (h c List.mem_cons_self t).imp
    · intro _ t' ht'
      rw [List.flatMap_cons, ← List.append_assoc, ← ht']
      exact ih (fun c' hc' => h c' (List.mem_cons_of_mem c hc')) t'
    · exact fun _ _ h => h

end Program
