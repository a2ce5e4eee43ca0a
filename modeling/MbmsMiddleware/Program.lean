import MbmsMiddleware.Exceptions

/-! Programs that call an interface, and what it takes to reason about a run:
what holds of its result, its state and the calls it makes is shown for the
parts of the program, and loops fail with the first thing that is wrong with
their elements. -/

inductive Program (ι : Type) (ρ : ι → Type) (ε α : Type) where
  | pure (a : α)
  | throw (e : ε)
  | call (op : ι) (next : ρ op → Program ι ρ ε α)

namespace Program

variable {ι : Type} {ρ : ι → Type} {ε α β γ σ : Type}

protected def bind : Program ι ρ ε α → (α → Program ι ρ ε β) → Program ι ρ ε β
  | .pure a, f => f a
  | .throw e, _ => .throw e
  | .call op next, f => .call op fun r => (next r).bind f

instance : Monad (Program ι ρ ε) where
  pure := .pure
  bind := Program.bind

protected theorem bind_pure (p : Program ι ρ ε α) : p.bind .pure = p := by
  induction p with
  | pure a => rfl
  | throw e => rfl
  | call op next ih => simp only [Program.bind, ih]

protected theorem bind_assoc (p : Program ι ρ ε α) (f : α → Program ι ρ ε β)
    (g : β → Program ι ρ ε γ) : (p.bind f).bind g = p.bind fun a => (f a).bind g := by
  induction p with
  | pure a => rfl
  | throw e => rfl
  | call op next ih => simp only [Program.bind, ih]

instance : LawfulMonad (Program ι ρ ε) := LawfulMonad.mk' _ Program.bind_pure (fun _ _ => rfl) Program.bind_assoc

/-- A single call. -/
def perform (op : ι) : Program ι ρ ε (ρ op) := .call op .pure

def ofExcept : Except ε α → Program ι ρ ε α
  | .ok a => .pure a
  | .error e => .throw e

def run (handler : (op : ι) → EStateM ε σ (ρ op)) : Program ι ρ ε α → EStateM ε σ α
  | .pure a => fun s => .ok a s
  | .throw e => fun s => .error e s
  | .call op next => fun s =>
    match handler op s with
    | .ok r s => (next r).run handler s
    | .error e s => .error e s

end Program

namespace EStateM.Result

variable {ε α σ : Type}

/-- The state a run ends in, however it ends. -/
def state : EStateM.Result ε σ α → σ
  | .ok _ s => s
  | .error _ s => s

def fault? : EStateM.Result ε σ α → Option ε
  | .ok _ _ => none
  | .error e _ => some e

/-- `Q` where a run returns, `E` where it fails. -/
def Ensures (Q : α → σ → Prop) (E : ε → σ → Prop) : EStateM.Result ε σ α → Prop
  | .ok a s => Q a s
  | .error e s => E e s

theorem Ensures.mono {Q Q' : α → σ → Prop} {E E' : ε → σ → Prop} {r : EStateM.Result ε σ α}
    (h : r.Ensures Q E) (hQ : ∀ a s, Q a s → Q' a s) (hE : ∀ e s, E e s → E' e s) :
    r.Ensures Q' E' := by
  cases r with
  | ok a s => exact hQ a s h
  | error e s => exact hE e s h

theorem Ensures.and {Q Q' : α → σ → Prop} {E E' : ε → σ → Prop} {r : EStateM.Result ε σ α}
    (h : r.Ensures Q E) (h' : r.Ensures Q' E') :
    r.Ensures (fun a s => Q a s ∧ Q' a s) (fun e s => E e s ∧ E' e s) := by
  cases r <;> exact ⟨h, h'⟩

theorem Ensures.head?_fault {F : List ε} {r : EStateM.Result ε σ α}
    (h : r.Ensures (fun _ _ => F = []) (fun e _ => F.head? = some e)) : r.fault? = F.head? := by
  cases r with
  | ok a s =>
    rw [(h : F = [])]
    rfl
  | error e s => exact (h : F.head? = some e).symm

end EStateM.Result

namespace EStateM

variable {ε α β γ σ : Type}

theorem ensures_bind {x : EStateM ε σ α} {f : α → EStateM ε σ β} {s : σ} {Q : β → σ → Prop}
    {E : ε → σ → Prop} (h : (x s).Ensures (fun a s => (f a s).Ensures Q E) E) :
    ((x >>= f) s).Ensures Q E := by
  simp only [bind, EStateM.bind]
  cases hx : x s <;> rw [hx] at h <;> exact h

theorem ensures_get {f : σ → EStateM ε σ β} {s : σ} {Q : β → σ → Prop} {E : ε → σ → Prop}
    (h : (f s s).Ensures Q E) : ((get >>= f) s).Ensures Q E := h

theorem ensures_modify {g : σ → σ} {f : PUnit → EStateM ε σ β} {s : σ} {Q : β → σ → Prop}
    {E : ε → σ → Prop} (h : (f ⟨⟩ (g s)).Ensures Q E) : ((modify g >>= f) s).Ensures Q E := h

/-- What is wrong with the elements of a loop is what the loop fails with. -/
theorem ensures_forM {f : γ → EStateM ε σ Unit} {F : γ → List ε} {I J : σ → Prop} {l : List γ}
    (h : ∀ c s, c ∈ l → I s → (f c s).Ensures (fun _ s => F c = [] ∧ I s)
      (fun e s => (F c).head? = some e ∧ J s))
    {s : σ} (hs : I s) :
    (l.forM f s).Ensures (fun _ s => l.flatMap F = [] ∧ I s)
      (fun e s => (l.flatMap F).head? = some e ∧ J s) := by
  induction l generalizing s with
  | nil => exact ⟨rfl, hs⟩
  | cons c l ih =>
    have hforM : (c :: l).forM f = f c >>= fun _ => l.forM f := rfl
    rw [hforM]
    refine ensures_bind ((h c s (by simp) hs).mono ?_ ?_)
    · rintro _ s' ⟨hf, hI⟩
      rw [List.flatMap_cons, hf, List.nil_append]
      exact ih (fun c s hc => h c s (by simp [hc])) hI
    · rintro e s' ⟨hf, hJ⟩
      rw [List.flatMap_cons, List.head?_append, hf]
      exact ⟨rfl, hJ⟩

theorem ensures_forM_of_keeps {f : γ → EStateM ε σ Unit} {I : σ → Prop} {l : List γ}
    (h : ∀ c s, I s → (f c s).Ensures (fun _ s => I s) (fun _ s => I s)) {s : σ} (hs : I s) :
    (l.forM f s).Ensures (fun _ s => I s) (fun _ s => I s) := by
  induction l generalizing s with
  | nil => exact hs
  | cons c l ih =>
    have hforM : (c :: l).forM f = f c >>= fun _ => l.forM f := rfl
    rw [hforM]
    exact ensures_bind ((h c s hs).mono (fun _ _ hs' => ih hs') (fun _ _ hs' => hs'))

theorem error_of_forM {f : γ → EStateM ε σ Unit} {l : List γ} {s s' : σ} {e : ε}
    (h : l.forM f s = .error e s') : ∃ c ∈ l, ∃ t, f c t = .error e s' := by
  induction l generalizing s with
  | nil => cases h
  | cons c l ih =>
    have hforM : (c :: l).forM f = f c >>= fun _ => l.forM f := rfl
    rw [hforM] at h
    simp only [bind, EStateM.bind] at h
    cases hc : f c s with
    | ok u t =>
      rw [hc] at h
      obtain ⟨c', hm, hc'⟩ := ih h
      exact ⟨c', by simp [hm], hc'⟩
    | error e' t =>
      rw [hc] at h
      cases h
      exact ⟨c, by simp, s, hc⟩

theorem ensures_ofExcept {x : Except ε α} {s : σ} {Q : α → σ → Prop} {E : ε → σ → Prop}
    (h : x.Ensures (Q · s) (E · s)) : ((ofExcept x : EStateM ε σ α) s).Ensures Q E := by
  cases x <;> exact h

/-- A loop whose rounds each read something and then change the state by it reads
everything or fails as the reading does. -/
theorem ensures_forM_mapM {f : γ → EStateM ε σ Unit} {r : γ → Except ε α} {g : σ → α → σ}
    {l : List γ}
    (h : ∀ c s, (f c s).Ensures (fun _ s' => ∃ a, r c = .ok a ∧ s' = g s a)
      (fun e _ => r c = .error e)) (s : σ) :
    (l.forM f s).Ensures (fun _ s' => ∃ as, l.mapM r = .ok as ∧ s' = as.foldl g s)
      (fun e _ => l.mapM r = .error e) := by
  induction l generalizing s with
  | nil => exact ⟨[], rfl, rfl⟩
  | cons c l ih =>
    rw [List.mapM_cons]
    apply ensures_bind
    apply (h c s).mono
    · rintro _ s' ⟨a, ha, rfl⟩
      rw [ha]
      apply (ih (g s a)).mono
      · rintro _ s'' ⟨as, has, rfl⟩
        exact ⟨a :: as, by rw [has]; rfl, rfl⟩
      · intro e _ he
        rw [he]
        rfl
    · intro e _ he
      rw [he]
      rfl

end EStateM

namespace Program

variable {ι : Type} {ρ : ι → Type} {ε α β γ σ : Type}

section Run

variable (handler : (op : ι) → EStateM ε σ (ρ op))

theorem run_bind (p : Program ι ρ ε α) (f : α → Program ι ρ ε β) (s : σ) :
    (p >>= f).run handler s = (p.run handler >>= fun a => (f a).run handler) s := by
  induction p generalizing s with
  | pure a => rfl
  | throw e => rfl
  | call op next ih =>
    have hcall : (call op next >>= f) = call op fun r => next r >>= f := rfl
    rw [hcall]
    change _ = EStateM.bind _ _ s
    rw [EStateM.bind, run, run]
    dsimp only
    cases handler op s with
    | ok r s' => exact ih r s'
    | error e s' => rfl

theorem run_bind_of_ok {p : Program ι ρ ε α} {f : α → Program ι ρ ε β} {s s' : σ} {a : α}
    (h : p.run handler s = .ok a s') : (p >>= f).run handler s = (f a).run handler s' := by
  rw [run_bind]
  simp only [bind, EStateM.bind, h]

theorem run_perform (op : ι) (s : σ) : (perform op).run handler s = handler op s := by
  simp only [perform, run]
  cases handler op s <;> rfl

theorem run_forM (f : γ → Program ι ρ ε Unit) (l : List γ) (s : σ) :
    (l.forM f).run handler s = l.forM (fun c => (f c).run handler) s := by
  induction l generalizing s with
  | nil => rfl
  | cons c l ih =>
    have hforM : (c :: l).forM f = f c >>= fun _ => l.forM f := rfl
    have hforM' : (c :: l).forM (fun c => (f c).run handler) =
        (f c).run handler >>= fun _ => l.forM fun c => (f c).run handler := rfl
    rw [hforM, hforM', run_bind]
    simp only [bind, EStateM.bind]
    cases (f c).run handler s with
    | ok u s' => exact ih s'
    | error e s' => rfl

/-- The points of a run: what is left to do, and in which state. -/
inductive Reaches : Program ι ρ ε α → σ → Program ι ρ ε α → σ → Prop
  | refl (p : Program ι ρ ε α) (s : σ) : Reaches p s p s
  | call {op : ι} {next : ρ op → Program ι ρ ε α} {s s' t : σ} {r : ρ op} {q : Program ι ρ ε α}
      (h : handler op s = .ok r s') (hq : Reaches (next r) s' q t) : Reaches (.call op next) s q t

/-- A run that fails does so at one of its points, by throwing or in a call. -/
theorem run_error {p : Program ι ρ ε α} {s s' : σ} {e : ε} (h : p.run handler s = .error e s') :
    ∃ q t, Reaches handler p s q t ∧
      (q = .throw e ∧ s' = t ∨ ∃ op next, q = .call op next ∧ handler op t = .error e s') := by
  induction p generalizing s with
  | pure a => cases h
  | throw e' =>
    cases h
    exact ⟨_, _, .refl _ _, .inl ⟨rfl, rfl⟩⟩
  | call op next ih =>
    simp only [run] at h
    cases hop : handler op s with
    | ok r t =>
      rw [hop] at h
      obtain ⟨q, u, hq, hend⟩ := ih r h
      exact ⟨q, u, .call hop hq, hend⟩
    | error e' t =>
      rw [hop] at h
      cases h
      exact ⟨_, s, .refl _ s, .inr ⟨op, next, rfl, hop⟩⟩

end Run

/-- Every call that the run from a state makes meets `ok`, and the run ends as
`Q` and `E` say. -/
def Holds (handler : (op : ι) → EStateM ε σ (ρ op)) (ok : ι → σ → Prop) (Q : α → σ → Prop)
    (E : ε → σ → Prop) : Program ι ρ ε α → σ → Prop
  | .pure a, s => Q a s
  | .throw e, s => E e s
  | .call op next, s =>
    ok op s ∧ (handler op s).Ensures (fun r s => Holds handler ok Q E (next r) s) E

variable {handler : (op : ι) → EStateM ε σ (ρ op)} {ok : ι → σ → Prop}

theorem Holds.ensures {Q : α → σ → Prop} {E : ε → σ → Prop} {p : Program ι ρ ε α} {s : σ}
    (h : Holds handler ok Q E p s) : (p.run handler s).Ensures Q E := by
  induction p generalizing s with
  | pure a => exact h
  | throw e => exact h
  | call op next ih =>
    obtain ⟨_, h⟩ := h
    simp only [run]
    cases ho : handler op s with
    | ok r s' =>
      rw [ho] at h
      exact ih r h
    | error e s' =>
      rw [ho] at h
      exact h

theorem Holds.mono {ok' : ι → σ → Prop} {Q Q' : α → σ → Prop} {E E' : ε → σ → Prop}
    {p : Program ι ρ ε α} {s : σ} (h : Holds handler ok Q E p s)
    (hok : ∀ op s, ok op s → ok' op s) (hQ : ∀ a s, Q a s → Q' a s) (hE : ∀ e s, E e s → E' e s) :
    Holds handler ok' Q' E' p s := by
  induction p generalizing s with
  | pure a => exact hQ a s h
  | throw e => exact hE e s h
  | call op next ih => exact ⟨hok op s h.1, h.2.mono (fun r s hs => ih r hs) hE⟩

theorem Holds.imp {Q Q' : α → σ → Prop} {E E' : ε → σ → Prop} {p : Program ι ρ ε α} {s : σ}
    (h : Holds handler ok Q E p s) (hQ : ∀ a s, Q a s → Q' a s) (hE : ∀ e s, E e s → E' e s) :
    Holds handler ok Q' E' p s :=
  h.mono (fun _ _ hop => hop) hQ hE

/-- What a run keeps because each of its calls keeps it. -/
theorem Holds.invariant {Q : α → σ → Prop} {E : ε → σ → Prop} {I : σ → Prop}
    (hI : ∀ op s, I s → ok op s → I (handler op s).state) {p : Program ι ρ ε α} {s : σ}
    (h : Holds handler ok Q E p s) (hs : I s) :
    Holds handler ok (fun a s => Q a s ∧ I s) (fun e s => E e s ∧ I s) p s := by
  induction p generalizing s with
  | pure a => exact ⟨h, hs⟩
  | throw e => exact ⟨h, hs⟩
  | call op next ih =>
    obtain ⟨hop, h⟩ := h
    have hI' := hI op s hs hop
    refine ⟨hop, ?_⟩
    cases ho : handler op s with
    | ok r s' =>
      rw [ho] at h hI'
      exact ih r h hI'
    | error e s' =>
      rw [ho] at h hI'
      exact ⟨h, hI'⟩

section Rules

variable {Q : β → σ → Prop} {E : ε → σ → Prop}

theorem holds_pure {a : β} {s : σ} (h : Q a s) :
    Holds handler ok Q E (Pure.pure a : Program ι ρ ε β) s := h

theorem holds_bind {p : Program ι ρ ε α} {f : α → Program ι ρ ε β} {s : σ}
    (h : Holds handler ok (fun a s => Holds handler ok Q E (f a) s) E p s) :
    Holds handler ok Q E (p >>= f) s := by
  induction p generalizing s with
  | pure a => exact h
  | throw e => exact h
  | call op next ih => exact ⟨h.1, h.2.mono (fun r s hs => ih r hs) fun e s hs => hs⟩

theorem holds_perform {op : ι} {Q : ρ op → σ → Prop} {s : σ} (hop : ok op s)
    (h : (handler op s).Ensures Q E) : Holds handler ok Q E (perform op) s :=
  ⟨hop, h⟩

theorem holds_ofExcept {x : Except ε β} {s : σ} (h : x.Ensures (Q · s) (E · s)) :
    Holds handler ok Q E (ofExcept x) s := by
  cases x <;> exact h

end Rules

/-- What is wrong with the elements of a loop, in the order in which the loop
meets it, is what the loop fails with. The invariant may speak of the elements
the loop has been through. -/
theorem holds_foldlM {f : β → γ → Program ι ρ ε β} {F : γ → List ε} {I : List γ → β → σ → Prop}
    {J : σ → Prop} {l : List γ}
    (h : ∀ d b c s, c ∈ l → I d b s → Holds handler ok (fun b s => F c = [] ∧ I (d ++ [c]) b s)
      (fun e s => (F c).head? = some e ∧ J s) (f b c) s)
    {b : β} {s : σ} (hs : I [] b s) :
    Holds handler ok (fun b s => l.flatMap F = [] ∧ I l b s)
      (fun e s => (l.flatMap F).head? = some e ∧ J s) (l.foldlM f b) s := by
  suffices hd : ∀ d b s, I d b s →
      Holds handler ok (fun b s => l.flatMap F = [] ∧ I (d ++ l) b s)
        (fun e s => (l.flatMap F).head? = some e ∧ J s) (l.foldlM f b) s by
    simpa using hd [] b s hs
  clear hs
  induction l with
  | nil => exact fun d b s hs => ⟨rfl, by simpa using hs⟩
  | cons c l ih =>
    intro d b s hs
    rw [List.foldlM_cons]
    refine holds_bind ((h d b c s (by simp) hs).imp ?_ ?_)
    · rintro b' s' ⟨hf, hI⟩
      rw [List.flatMap_cons, hf, List.nil_append, List.append_cons]
      exact ih (fun d b c s hc => h d b c s (by simp [hc])) _ b' s' hI
    · rintro e s' ⟨hf, hJ⟩
      rw [List.flatMap_cons, List.head?_append, hf]
      exact ⟨rfl, hJ⟩

/-- As `holds_foldlM`, where nothing is said of a loop that fails. -/
theorem holds_foldlM_of_returns {f : β → γ → Program ι ρ ε β} {I : List γ → β → σ → Prop}
    {l : List γ}
    (h : ∀ d c post b s, l = d ++ c :: post → I d b s →
      Holds handler ok (fun b s => I (d ++ [c]) b s) (fun _ _ => True) (f b c) s)
    {b : β} {s : σ} (hs : I [] b s) :
    Holds handler ok (fun b s => I l b s) (fun _ _ => True) (l.foldlM f b) s := by
  suffices hd : ∀ post d b s, l = d ++ post → I d b s →
      Holds handler ok (fun b s => I l b s) (fun _ _ => True) (post.foldlM f b) s from
    hd l [] b s rfl hs
  clear hs
  intro post
  induction post with
  | nil =>
    intro d b s hl hs
    apply holds_pure
    rwa [hl, List.append_nil]
  | cons c post ih =>
    intro d b s hl hs
    rw [List.foldlM_cons]
    apply holds_bind
    apply (h d c post b s hl hs).imp
    · intro b' s' hI
      exact ih (d ++ [c]) b' s' (by rw [hl, List.append_cons]) hI
    · exact fun _ _ h => h

theorem holds_forM_of_returns {f : γ → Program ι ρ ε Unit} {I : σ → Prop} {l : List γ}
    (h : ∀ c s, c ∈ l → I s → Holds handler ok (fun _ s => I s) (fun _ _ => True) (f c) s)
    {s : σ} (hs : I s) :
    Holds handler ok (fun _ s => I s) (fun _ _ => True) (l.forM f) s := by
  induction l generalizing s with
  | nil => exact hs
  | cons c l ih =>
    have hforM : (c :: l).forM f = f c >>= fun _ => l.forM f := rfl
    rw [hforM]
    apply holds_bind
    apply (h c s (by simp) hs).imp
    · exact fun _ s' hI => ih (fun c s hc => h c s (by simp [hc])) hI
    · exact fun _ _ h => h

/-- As `holds_foldlM`, for a loop without a result. -/
theorem holds_forM {f : γ → Program ι ρ ε Unit} {F : γ → List ε} {I J : σ → Prop} {l : List γ}
    (h : ∀ c s, c ∈ l → I s → Holds handler ok (fun _ s => F c = [] ∧ I s)
      (fun e s => (F c).head? = some e ∧ J s) (f c) s)
    {s : σ} (hs : I s) :
    Holds handler ok (fun _ s => l.flatMap F = [] ∧ I s)
      (fun e s => (l.flatMap F).head? = some e ∧ J s) (l.forM f) s := by
  induction l generalizing s with
  | nil => exact ⟨rfl, hs⟩
  | cons c l ih =>
    have hforM : (c :: l).forM f = f c >>= fun _ => l.forM f := rfl
    rw [hforM]
    refine holds_bind ((h c s (by simp) hs).imp ?_ ?_)
    · rintro _ s' ⟨hf, hI⟩
      rw [List.flatMap_cons, hf, List.nil_append]
      exact ih (fun c s hc => h c s (by simp [hc])) hI
    · rintro e s' ⟨hf, hJ⟩
      rw [List.flatMap_cons, List.head?_append, hf]
      exact ⟨rfl, hJ⟩

end Program
