import MbmsMiddleware.Program

/-! What can be said of the calls of a program whatever they are answered: all of
them belong to some kind, and what every call of that kind keeps is kept. -/

namespace Program

variable {ι : Type} {ρ : ι → Type} {ε α β γ σ : Type}

/-- Every call that the program can come to make belongs to `P`. -/
def Only (P : ι → Prop) : Program ι ρ ε α → Prop
  | .pure _ => True
  | .throw _ => True
  | .call op next => P op ∧ ∀ r, Only P (next r)

variable {P : ι → Prop}

theorem Only.mono {P' : ι → Prop} {p : Program ι ρ ε α} (h : Only P p)
    (hP : ∀ op, P op → P' op) : Only P' p := by
  induction p with
  | pure a => trivial
  | throw e => trivial
  | call op next ih => exact ⟨hP op h.1, fun r => ih r (h.2 r)⟩

theorem only_of_forall (hP : ∀ op, P op) (p : Program ι ρ ε α) : Only P p := by
  induction p with
  | pure a => trivial
  | throw e => trivial
  | call op next ih => exact ⟨hP op, ih⟩

theorem only_pure (a : α) : Only P (Pure.pure a : Program ι ρ ε α) := trivial

theorem only_bind {p : Program ι ρ ε α} {f : α → Program ι ρ ε β} (h : Only P p)
    (hf : ∀ a, Only P (f a)) : Only P (p >>= f) := by
  induction p with
  | pure a => exact hf a
  | throw e => trivial
  | call op next ih => exact ⟨h.1, fun r => ih r (h.2 r)⟩

theorem only_perform {op : ι} (h : P op) : Only P (perform op : Program ι ρ ε (ρ op)) :=
  ⟨h, fun _ => trivial⟩

theorem only_ofExcept (x : Except ε α) : Only P (ofExcept x : Program ι ρ ε α) := by
  cases x <;> trivial

theorem only_bind_ofExcept {x : Except ε α} {f : α → Program ι ρ ε β}
    (hf : ∀ a, x = .ok a → Only P (f a)) : Only P (ofExcept x >>= f) := by
  cases x with
  | error e => trivial
  | ok a => exact hf a rfl

theorem only_foldlM {f : β → γ → Program ι ρ ε β} {l : List γ}
    (hf : ∀ b, ∀ c ∈ l, Only P (f b c)) (b : β) : Only P (l.foldlM f b) := by
  induction l generalizing b with
  | nil => trivial
  | cons c l ih =>
    rw [List.foldlM_cons]
    exact only_bind (hf b c (by simp)) (ih fun b d hd => hf b d (by simp [hd]))

theorem only_forM {f : γ → Program ι ρ ε Unit} {l : List γ} (hf : ∀ c ∈ l, Only P (f c)) :
    Only P (l.forM f) := by
  induction l with
  | nil => trivial
  | cons c l ih => exact only_bind (hf c (by simp)) fun _ => ih fun d hd => hf d (by simp [hd])

theorem Only.ensures {handler : (op : ι) → EStateM ε σ (ρ op)} {I : σ → Prop}
    (hI : ∀ op s, P op → I s → I (handler op s).state) {p : Program ι ρ ε α} (h : Only P p)
    {s : σ} (hs : I s) : (p.run handler s).Ensures (fun _ => I) (fun _ => I) := by
  induction p generalizing s with
  | pure a => exact hs
  | throw e => exact hs
  | call op next ih =>
    have hop := hI op s h.1 hs
    simp only [run]
    cases ho : handler op s with
    | ok r s' =>
      rw [ho] at hop
      exact ih r (h.2 r) hop
    | error e s' =>
      rw [ho] at hop
      exact hop

/-- A call that belongs to `P` is the last thing that the program does, and if
`idle` does not hold it comes to no end without one. -/
def Closes (P : ι → Prop) (idle : Prop) : Program ι ρ ε Unit → Prop
  | .pure _ => idle
  | .throw _ => True
  | .call op next => (P op → ∀ r, next r = .pure ()) ∧ (¬ P op → ∀ r, Closes P idle (next r))

theorem Closes.mono {idle idle' : Prop} {p : Program ι ρ ε Unit} (h : Closes P idle p)
    (hidle : idle → idle') : Closes P idle' p := by
  induction p with
  | pure u => exact hidle h
  | throw e => trivial
  | call op next ih => exact ⟨h.1, fun hop r => ih r (h.2 hop r)⟩

theorem closes_bind {idle : Prop} {p : Program ι ρ ε α} {f : α → Program ι ρ ε Unit}
    (h : Only (fun op => ¬ P op) p) (hf : ∀ a, Closes P idle (f a)) : Closes P idle (p >>= f) := by
  induction p with
  | pure a => exact hf a
  | throw e => trivial
  | call op next ih => exact ⟨fun hop => absurd hop h.1, fun _ r => ih r (h.2 r)⟩

end Program

namespace EStateM

theorem ensures_forM_of_mem {ε σ γ : Type} {f : γ → EStateM ε σ Unit} {I : σ → Prop}
    {l : List γ} (h : ∀ c ∈ l, ∀ s, I s → (f c s).Ensures (fun _ => I) (fun _ => I)) {s : σ}
    (hs : I s) : (l.forM f s).Ensures (fun _ => I) (fun _ => I) := by
  induction l generalizing s with
  | nil => exact hs
  | cons c l ih =>
    have hforM : (c :: l).forM f = f c >>= fun _ => l.forM f := rfl
    rw [hforM]
    refine EStateM.ensures_bind ((h c (by simp) s hs).mono (fun _ s' hs' => ?_) fun _ _ hs' => hs')
    exact ih (fun d hd => h d (by simp [hd])) hs'

end EStateM
