import MbmsMiddleware.Program

/-! Two runs side by side. They make their calls in step, and what is related
before a call is related after it. -/

namespace EStateM.Result

variable {ε σ α β : Type}

/-- Both return, or both fail with the same fault. -/
def Couples (Q : α → σ → β → σ → Prop) : Result ε σ α → Result ε σ β → Prop
  | .ok a s, .ok b t => Q a s b t
  | .error e _, .error e' _ => e = e'
  | _, _ => False

theorem Couples.imp {Q Q' : α → σ → β → σ → Prop} {x : Result ε σ α} {y : Result ε σ β}
    (h : x.Couples Q y) (hQ : ∀ a s b t, Q a s b t → Q' a s b t) : x.Couples Q' y := by
  cases x with
  | ok a s =>
    cases y with
    | ok b t => exact hQ a s b t h
    | error e t => exact h.elim
  | error e s =>
    cases y with
    | ok b t => exact h.elim
    | error e' t => exact h

theorem Couples.imp_error {Q Q' : α → σ → β → σ → Prop} {e : ε} {s : σ} {y : Result ε σ β}
    (h : (Result.error e s : Result ε σ α).Couples Q y) :
    (Result.error e s : Result ε σ α).Couples Q' y := by
  cases y with
  | ok b t => exact h.elim
  | error e' t => exact h

end EStateM.Result

namespace Program

variable {ι : Type} {ρ : ι → Type} {ε α α' β β' γ δ σ : Type}

/-- The runs of two programs make their calls in step, those of the first run
meet `ok`, and the runs end as `Q` says. -/
def Couples (handler : (op : ι) → EStateM ε σ (ρ op)) (ok : ι → σ → Prop)
    (Q : α → σ → β → σ → Prop) : Program ι ρ ε α → σ → Program ι ρ ε β → σ → Prop
  | .pure a, s, .pure b, t => Q a s b t
  | .throw e, _, .throw e', _ => e = e'
  | .call op next, s, .call op' next', t => ok op s ∧ (handler op s).Couples
      (fun r s r' t => Couples handler ok Q (next r) s (next' r') t) (handler op' t)
  | _, _, _, _ => False

variable {handler : (op : ι) → EStateM ε σ (ρ op)} {ok : ι → σ → Prop}

theorem Couples.imp {Q Q' : α → σ → β → σ → Prop} {p : Program ι ρ ε α} {q : Program ι ρ ε β}
    {s t : σ} (h : Couples handler ok Q p s q t) (hQ : ∀ a s b t, Q a s b t → Q' a s b t) :
    Couples handler ok Q' p s q t := by
  induction p generalizing q s t with
  | pure a =>
    cases q with
    | pure b => exact hQ a s b t h
    | throw e => exact h.elim
    | call op next => exact h.elim
  | throw e =>
    cases q with
    | pure b => exact h.elim
    | throw e' => exact h
    | call op next => exact h.elim
  | call op next ih =>
    cases q with
    | pure b => exact h.elim
    | throw e => exact h.elim
    | call op' next' => exact ⟨h.1, h.2.imp fun r s r' t hn => ih r hn⟩

/-- What is said of the calls is said of the first run alone. -/
theorem Couples.holds {Q : α → σ → β → σ → Prop} {p : Program ι ρ ε α} {q : Program ι ρ ε β}
    {s t : σ} (h : Couples handler ok Q p s q t) :
    Holds handler ok (fun _ _ => True) (fun _ _ => True) p s := by
  induction p generalizing q s t with
  | pure a => exact trivial
  | throw e => exact trivial
  | call op next ih =>
    cases q with
    | pure b => exact h.elim
    | throw e => exact h.elim
    | call op' next' =>
      obtain ⟨hop, h⟩ := h
      refine ⟨hop, ?_⟩
      cases hs : handler op s with
      | error e s' => exact trivial
      | ok r s' =>
        rw [hs] at h
        cases ht : handler op' t with
        | error e t' =>
          rw [ht] at h
          exact h.elim
        | ok r' t' =>
          rw [ht] at h
          exact ih r h

/-- What is known of the first run alone. -/
theorem Couples.and_holds {ok' : ι → σ → Prop} {Q : α → σ → β → σ → Prop} {Q' : α → σ → Prop}
    {E : ε → σ → Prop} {p : Program ι ρ ε α} {q : Program ι ρ ε β} {s t : σ}
    (h : Couples handler ok Q p s q t) (h' : Holds handler ok' Q' E p s) :
    Couples handler ok (fun a s b t => Q a s b t ∧ Q' a s) p s q t := by
  induction p generalizing q s t with
  | pure a =>
    cases q with
    | pure b => exact ⟨h, h'⟩
    | throw e => exact h.elim
    | call op next => exact h.elim
  | throw e =>
    cases q with
    | pure b => exact h.elim
    | throw e' => exact h
    | call op next => exact h.elim
  | call op next ih =>
    cases q with
    | pure b => exact h.elim
    | throw e => exact h.elim
    | call op' next' =>
      obtain ⟨hop, h⟩ := h
      obtain ⟨-, h'⟩ := h'
      refine ⟨hop, ?_⟩
      cases hs : handler op s with
      | error e s' =>
        rw [hs] at h
        exact h.imp_error
      | ok r s' =>
        rw [hs] at h h'
        cases ht : handler op' t with
        | error e t' =>
          rw [ht] at h
          exact h.elim
        | ok r' t' =>
          rw [ht] at h
          exact ih r h h'

theorem Couples.run {Q : α → σ → β → σ → Prop} {p : Program ι ρ ε α} {q : Program ι ρ ε β}
    {s t : σ} (h : Couples handler ok Q p s q t) :
    (p.run handler s).Couples Q (q.run handler t) := by
  induction p generalizing q s t with
  | pure a =>
    cases q with
    | pure b => exact h
    | throw e => exact h.elim
    | call op next => exact h.elim
  | throw e =>
    cases q with
    | pure b => exact h.elim
    | throw e' => exact h
    | call op next => exact h.elim
  | call op next ih =>
    cases q with
    | pure b => exact h.elim
    | throw e => exact h.elim
    | call op' next' =>
      obtain ⟨-, h⟩ := h
      simp only [Program.run]
      cases hs : handler op s with
      | error e s' =>
        rw [hs] at h
        cases ht : handler op' t with
        | error e' t' =>
          rw [ht] at h
          exact h
        | ok r' t' =>
          rw [ht] at h
          exact h.elim
      | ok r s' =>
        rw [hs] at h
        cases ht : handler op' t with
        | error e t' =>
          rw [ht] at h
          exact h.elim
        | ok r' t' =>
          rw [ht] at h
          exact ih r h

section Rules

variable {Q : β → σ → β' → σ → Prop}

theorem couples_pure {a : β} {b : β'} {s t : σ} (h : Q a s b t) :
    Couples handler ok Q (Pure.pure a : Program ι ρ ε β) s (Pure.pure b) t := h

theorem couples_bind {p : Program ι ρ ε α} {q : Program ι ρ ε α'} {f : α → Program ι ρ ε β}
    {g : α' → Program ι ρ ε β'} {s t : σ}
    (h : Couples handler ok (fun a s b t => Couples handler ok Q (f a) s (g b) t) p s q t) :
    Couples handler ok Q (p >>= f) s (q >>= g) t := by
  induction p generalizing q s t with
  | pure a =>
    cases q with
    | pure b => exact h
    | throw e => exact h.elim
    | call op next => exact h.elim
  | throw e =>
    cases q with
    | pure b => exact h.elim
    | throw e' => exact h
    | call op next => exact h.elim
  | call op next ih =>
    cases q with
    | pure b => exact h.elim
    | throw e => exact h.elim
    | call op' next' => exact ⟨h.1, h.2.imp fun r s r' t hn => ih r hn⟩

theorem couples_perform {op op' : ι} {Q : ρ op → σ → ρ op' → σ → Prop} {s t : σ} (hop : ok op s)
    (h : (handler op s).Couples Q (handler op' t)) :
    Couples handler ok Q (perform op) s (perform op') t := ⟨hop, h⟩

theorem couples_ofExcept {Q : β → σ → β → σ → Prop} {x : Except ε β} {s t : σ}
    (h : ∀ b, x = .ok b → Q b s b t) : Couples handler ok Q (ofExcept x) s (ofExcept x) t := by
  cases x with
  | ok b => exact h b rfl
  | error e => exact rfl

theorem couples_ofExcept_map {x : Except ε β} {g : β → β'} {s t : σ}
    (h : ∀ b, x = .ok b → Q b s (g b) t) :
    Couples handler ok Q (ofExcept x) s (ofExcept (x.map g)) t := by
  cases x with
  | ok b => exact h b rfl
  | error e => exact rfl

theorem couples_foldlM {f : β → γ → Program ι ρ ε β} {g : β' → γ → Program ι ρ ε β'} {l : List γ}
    (h : ∀ c ∈ l, ∀ a s b t, Q a s b t → Couples handler ok Q (f a c) s (g b c) t)
    {a : β} {b : β'} {s t : σ} (hs : Q a s b t) :
    Couples handler ok Q (l.foldlM f a) s (l.foldlM g b) t := by
  induction l generalizing a b s t with
  | nil => exact hs
  | cons c l ih =>
    rw [List.foldlM_cons, List.foldlM_cons]
    apply couples_bind
    apply (h c List.mem_cons_self a s b t hs).imp
    intro a' s' b' t' hs'
    exact ih (fun c hc => h c (List.mem_cons_of_mem _ hc)) hs'

/-- Two loops over lists that are related element by element. -/
theorem couples_forM {R : γ → δ → Prop} {f : γ → Program ι ρ ε Unit} {g : δ → Program ι ρ ε Unit}
    {I : σ → σ → Prop} {l : List γ} {l' : List δ} (hl : List.Forall₂ R l l')
    (h : ∀ c d s t, R c d → I s t → Couples handler ok (fun _ s _ t => I s t) (f c) s (g d) t)
    {s t : σ} (hs : I s t) :
    Couples handler ok (fun _ s _ t => I s t) (l.forM f) s (l'.forM g) t := by
  induction hl generalizing s t with
  | nil => exact hs
  | @cons c d l l' hcd _ ih =>
    have hforM : (c :: l).forM f = f c >>= fun _ => l.forM f := rfl
    have hforM' : (d :: l').forM g = g d >>= fun _ => l'.forM g := rfl
    rw [hforM, hforM']
    apply couples_bind
    apply (h c d s t hcd hs).imp
    intro _ s' _ t' hs'
    exact ih hs'

/-- Two loops over one list. The invariant may speak of the elements the loops
have been through. -/
theorem couples_forM_same {f g : γ → Program ι ρ ε Unit} {I : List γ → σ → σ → Prop} {l : List γ}
    (h : ∀ d c s t, I d s t →
      Couples handler ok (fun _ s _ t => I (d ++ [c]) s t) (f c) s (g c) t)
    {s t : σ} (hs : I [] s t) :
    Couples handler ok (fun _ s _ t => I l s t) (l.forM f) s (l.forM g) t := by
  suffices hd : ∀ d s t, I d s t →
      Couples handler ok (fun _ s _ t => I (d ++ l) s t) (l.forM f) s (l.forM g) t from
    hd [] s t hs
  clear hs
  induction l with
  | nil =>
    intro d s t hs
    rw [List.append_nil]
    exact hs
  | cons c l ih =>
    intro d s t hs
    have hforM : ∀ f : γ → Program ι ρ ε Unit, (c :: l).forM f = f c >>= fun _ => l.forM f :=
      fun _ => rfl
    rw [hforM, hforM, List.append_cons]
    apply couples_bind
    apply (h d c s t hs).imp
    intro _ s' _ t' hs'
    exact ih (d ++ [c]) s' t' hs'

end Rules

end Program
