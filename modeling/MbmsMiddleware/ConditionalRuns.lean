import MbmsMiddleware.Program

/-! What a run comes to as long as its calls meet a condition, and loops whose
rounds meet one. On a given run the conditions can be computed. -/

instance EStateM.Result.decidableEnsures {ε α σ : Type} {Q : α → σ → Prop} {E : ε → σ → Prop}
    [∀ a s, Decidable (Q a s)] [∀ e s, Decidable (E e s)] :
    (r : EStateM.Result ε σ α) → Decidable (r.Ensures Q E)
  | .ok a s => inferInstanceAs (Decidable (Q a s))
  | .error e s => inferInstanceAs (Decidable (E e s))

namespace Program

variable {ι : Type} {ρ : ι → Type} {ε α β γ σ : Type}

/-- If every call that the run from a state makes meets `given`, the run ends as
`Q` and `E` say. -/
def Yields (handler : (op : ι) → EStateM ε σ (ρ op)) (given : ι → σ → Prop) (Q : α → σ → Prop)
    (E : ε → σ → Prop) : Program ι ρ ε α → σ → Prop
  | .pure a, s => Q a s
  | .throw e, s => E e s
  | .call op next, s =>
    given op s → (handler op s).Ensures (fun r s => Yields handler given Q E (next r) s) E

variable {handler : (op : ι) → EStateM ε σ (ρ op)} {given : ι → σ → Prop} {E : ε → σ → Prop}

theorem Yields.imp {Q Q' : α → σ → Prop} {E' : ε → σ → Prop} {p : Program ι ρ ε α} {s : σ}
    (h : Yields handler given Q E p s) (hQ : ∀ a s, Q a s → Q' a s) (hE : ∀ e s, E e s → E' e s) :
    Yields handler given Q' E' p s := by
  induction p generalizing s with
  | pure a => exact hQ a s h
  | throw e => exact hE e s h
  | call op next ih => exact fun hop => (h hop).mono (fun r s hs => ih r hs) hE

/-- A run whose calls do meet the condition. -/
theorem Yields.of_holds {Q Q' : α → σ → Prop} {E' : ε → σ → Prop} {p : Program ι ρ ε α} {s : σ}
    (h : Yields handler given Q E p s) (hp : Holds handler given Q' E' p s) :
    (p.run handler s).Ensures (fun a s => Q a s ∧ Q' a s) (fun e s => E e s ∧ E' e s) := by
  induction p generalizing s with
  | pure a => exact ⟨h, hp⟩
  | throw e => exact ⟨h, hp⟩
  | call op next ih =>
    obtain ⟨hop, hp⟩ := hp
    have hcall := (h hop).and hp
    simp only [run]
    cases ho : handler op s with
    | ok r t =>
      rw [ho] at hcall
      exact ih r hcall.1 hcall.2
    | error e t =>
      rw [ho] at hcall
      exact hcall

instance Holds.decidable {Q : α → σ → Prop} [∀ op s, Decidable (given op s)]
    [∀ a s, Decidable (Q a s)] [∀ e s, Decidable (E e s)] :
    (p : Program ι ρ ε α) → (s : σ) → Decidable (Holds handler given Q E p s)
  | .pure a, s => inferInstanceAs (Decidable (Q a s))
  | .throw e, s => inferInstanceAs (Decidable (E e s))
  | .call op next, s =>
    letI (r : ρ op) (t : σ) : Decidable (Holds handler given Q E (next r) t) :=
      Holds.decidable (next r) t
    inferInstanceAs (Decidable (given op s ∧
      (handler op s).Ensures (fun r s => Holds handler given Q E (next r) s) E))

section Rules

variable {Q : β → σ → Prop}

theorem yields_pure {b : β} {s : σ} (h : Q b s) :
    Yields handler given Q E (Pure.pure b : Program ι ρ ε β) s := h

theorem yields_bind {p : Program ι ρ ε α} {f : α → Program ι ρ ε β} {s : σ}
    (h : Yields handler given (fun a s => Yields handler given Q E (f a) s) E p s) :
    Yields handler given Q E (p >>= f) s := by
  induction p generalizing s with
  | pure a => exact h
  | throw e => exact h
  | call op next ih => exact fun hop => (h hop).mono (fun r s hs => ih r hs) fun e s hs => hs

theorem yields_ofExcept {x : Except ε β} {s : σ} (h : x.Ensures (Q · s) (E · s)) :
    Yields handler given Q E (ofExcept x) s := by
  cases x <;> exact h

end Rules

theorem yields_foldlM {f : β → γ → Program ι ρ ε β} {I : β → σ → Prop} {l : List γ}
    (h : ∀ b c s, I b s → Yields handler given I E (f b c) s) {b : β} {s : σ} (hs : I b s) :
    Yields handler given I E (l.foldlM f b) s := by
  induction l generalizing b s with
  | nil => exact hs
  | cons c l ih =>
    rw [List.foldlM_cons]
    apply yields_bind
    apply (h b c s hs).imp
    · exact fun b' s' hs' => ih hs'
    · exact fun _ _ he => he

/-- The invariant may speak of the elements that are still to come. -/
theorem yields_forM {f : γ → Program ι ρ ε Unit} {I : List γ → σ → Prop}
    (h : ∀ c l s, I (c :: l) s → Yields handler given (fun _ s => I l s) E (f c) s) {l : List γ}
    {s : σ} (hs : I l s) : Yields handler given (fun _ s => I [] s) E (l.forM f) s := by
  induction l generalizing s with
  | nil => exact hs
  | cons c l ih =>
    have hforM : (c :: l).forM f = f c >>= fun _ => l.forM f := rfl
    rw [hforM]
    apply yields_bind
    apply (h c l s hs).imp
    · exact fun _ s' hs' => ih hs'
    · exact fun _ _ he => he

end Program

namespace EStateM

variable {ε γ σ : Type}

/-- Every round that a loop comes to meets a condition on the state it starts in. -/
def RoundsMeet (f : γ → EStateM ε σ Unit) (K : γ → σ → Prop) : List γ → σ → Prop
  | [], _ => True
  | c :: l, s => K c s ∧ ∀ s', f c s = .ok () s' → RoundsMeet f K l s'

variable {f : γ → EStateM ε σ Unit} {K : γ → σ → Prop}

instance RoundsMeet.decidable [∀ c s, Decidable (K c s)] :
    (l : List γ) → (s : σ) → Decidable (RoundsMeet f K l s)
  | [], _ => .isTrue trivial
  | c :: l, s =>
    letI (t : σ) : Decidable (RoundsMeet f K l t) := RoundsMeet.decidable l t
    letI : Decidable (∀ t, f c s = .ok () t → RoundsMeet f K l t) :=
      match f c s with
      | .ok () t => decidable_of_iff (RoundsMeet f K l t)
        ⟨fun h _ ht => by cases ht; exact h, fun h => h t rfl⟩
      | .error _ _ => .isTrue fun _ ht => by cases ht
    inferInstanceAs (Decidable (K c s ∧ ∀ t, f c s = .ok () t → RoundsMeet f K l t))

theorem RoundsMeet.of_isPrefix {l l' : List γ} {s : σ} (h : RoundsMeet f K l' s) (hl : l <+: l') :
    RoundsMeet f K l s := by
  obtain ⟨post, rfl⟩ := hl
  induction l generalizing s with
  | nil => trivial
  | cons c l ih => exact ⟨h.1, fun s' hs' => ih (h.2 s' hs')⟩

/-- What the rounds of a loop keep if they meet their condition. -/
theorem RoundsMeet.ensures {I : σ → Prop} {E : ε → σ → Prop}
    (hstep : ∀ c s, I s → K c s → (f c s).Ensures (fun _ s' => I s') E)
    {l : List γ} {s : σ} (h : RoundsMeet f K l s) (hs : I s) :
    (l.forM f s).Ensures (fun _ s' => I s') E := by
  induction l generalizing s with
  | nil => exact hs
  | cons c l ih =>
    have hforM : (c :: l).forM f = f c >>= fun _ => l.forM f := rfl
    have hround := hstep c s hs h.1
    rw [hforM]
    apply ensures_bind
    cases hc : f c s with
    | ok u s' =>
      rw [hc] at hround
      exact ih (h.2 s' hc) hround
    | error e s' =>
      rw [hc] at hround
      exact hround

end EStateM
