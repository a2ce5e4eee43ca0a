import Mathlib.Data.List.Forall2
import Mathlib.Tactic.Common

/-! Computations that may fail: what they return or fail with, for sequences
and for loops. -/

namespace Except

variable {ε α β γ : Type}

/-- `Q` where a computation returns, `E` where it fails. -/
def Ensures (Q : α → Prop) (E : ε → Prop) : Except ε α → Prop
  | .ok a => Q a
  | .error e => E e

/-- The fault that a computation ends with. -/
def fault? : Except ε α → Option ε
  | .ok _ => none
  | .error e => some e

theorem fault?_map (f : α → β) (x : Except ε α) : (x.map f).fault? = x.fault? := by
  cases x <;> rfl

theorem Ensures.mono {Q Q' : α → Prop} {E E' : ε → Prop} {x : Except ε α} (h : x.Ensures Q E)
    (hQ : ∀ a, Q a → Q' a) (hE : ∀ e, E e → E' e) : x.Ensures Q' E' := by
  cases x with
  | ok a => exact hQ a h
  | error e => exact hE e h

theorem eq_ok_of_bind {x : Except ε α} {f : α → Except ε β} {b : β} (h : x >>= f = .ok b) :
    ∃ a, x = .ok a ∧ f a = .ok b := by
  cases x with
  | ok a => exact ⟨a, rfl, h⟩
  | error e => cases h

theorem eq_error_of_bind {x : Except ε α} {f : α → Except ε β} {e : ε} (h : x >>= f = .error e) :
    x = .error e ∨ ∃ a, x = .ok a ∧ f a = .error e := by
  cases x with
  | ok a => exact .inr ⟨a, rfl, h⟩
  | error e' =>
    cases h
    exact .inl rfl

theorem eq_error_of_foldlM {f : β → γ → Except ε β} {l : List γ} {b : β} {e : ε}
    (h : l.foldlM f b = .error e) : ∃ b, ∃ c ∈ l, f b c = .error e := by
  induction l generalizing b with
  | nil => cases h
  | cons c l ih =>
    rw [List.foldlM_cons] at h
    rcases eq_error_of_bind h with hc | ⟨b', _, hl⟩
    · exact ⟨b, c, by simp, hc⟩
    · obtain ⟨b, c, hm, hc⟩ := ih hl
      exact ⟨b, c, by simp [hm], hc⟩

/-- A map between the states of two loops that commutes with every round
commutes with the loops. -/
theorem foldlM_hom {δ : Type} {f : β → γ → Except ε β} {f' : δ → γ → Except ε δ} {g : β → δ}
    {l : List γ} (h : ∀ b, ∀ c ∈ l, f' (g b) c = (f b c).map g) (b : β) :
    l.foldlM f' (g b) = (l.foldlM f b).map g := by
  induction l generalizing b with
  | nil => rfl
  | cons c l ih =>
    rw [List.foldlM_cons, List.foldlM_cons, h b c List.mem_cons_self]
    cases f b c with
    | ok b' => exact ih (fun b x hx => h b x (List.mem_cons_of_mem c hx)) b'
    | error e => rfl

/-- A loop whose rounds all succeed is a pure loop. -/
theorem foldlM_eq_ok {f : β → γ → Except ε β} {g : β → γ → β} {I : β → Prop} {l : List γ}
    (h : ∀ b, ∀ c ∈ l, I b → f b c = .ok (g b c) ∧ I (g b c)) {b : β} (hb : I b) :
    l.foldlM f b = .ok (l.foldl g b) := by
  induction l generalizing b with
  | nil => rfl
  | cons c l ih =>
    obtain ⟨hround, hI⟩ := h b c List.mem_cons_self hb
    rw [List.foldlM_cons, hround]
    exact ih (fun b x hx => h b x (List.mem_cons_of_mem c hx)) hI

theorem mapM_cons_eq_ok_iff {f : γ → Except ε α} {c : γ} {l : List γ} {as : List α} :
    (c :: l).mapM f = .ok as ↔ ∃ a as', f c = .ok a ∧ l.mapM f = .ok as' ∧ as = a :: as' := by
  rw [List.mapM_cons]
  constructor
  · intro h
    obtain ⟨a, ha, h⟩ := eq_ok_of_bind h
    obtain ⟨as', has, h⟩ := eq_ok_of_bind h
    cases h
    exact ⟨a, as', ha, has, rfl⟩
  · rintro ⟨a, as', ha, has, rfl⟩
    rw [ha]
    show (l.mapM f >>= fun as => pure (a :: as)) = _
    rw [has]
    rfl

theorem forall₂_of_mapM {f : γ → Except ε α} {l : List γ} {as : List α} (h : l.mapM f = .ok as) :
    List.Forall₂ (fun c a => f c = .ok a) l as := by
  induction l generalizing as with
  | nil =>
    cases h
    exact .nil
  | cons c l ih =>
    obtain ⟨a, as', ha, has, rfl⟩ := mapM_cons_eq_ok_iff.mp h
    exact .cons ha (ih has)

/-- A loop that only collects comes to its end when each of its rounds does. -/
theorem exists_mapM_eq_ok_iff {f : γ → Except ε α} {l : List γ} :
    (∃ as, l.mapM f = .ok as) ↔ ∀ c ∈ l, ∃ a, f c = .ok a := by
  induction l with
  | nil => exact ⟨fun _ _ h => (by cases h), fun _ => ⟨[], rfl⟩⟩
  | cons c l ih =>
    rw [List.forall_mem_cons, ← ih]
    constructor
    · rintro ⟨as, h⟩
      obtain ⟨a, as', ha, has, _⟩ := mapM_cons_eq_ok_iff.mp h
      exact ⟨⟨a, ha⟩, as', has⟩
    · rintro ⟨⟨a, ha⟩, as', has⟩
      exact ⟨a :: as', mapM_cons_eq_ok_iff.mpr ⟨a, as', ha, has, rfl⟩⟩

theorem ensures_bind {Q : β → Prop} {E : ε → Prop} {x : Except ε α} {f : α → Except ε β}
    (h : x.Ensures (fun a => (f a).Ensures Q E) E) : (x >>= f).Ensures Q E := by
  cases x <;> exact h

theorem ensures_foldlM {f : β → γ → Except ε β} {F : γ → List ε} {I : β → Prop} {l : List γ}
    (h : ∀ b c, c ∈ l → I b → (f b c).Ensures (fun b => F c = [] ∧ I b)
      (fun e => (F c).head? = some e))
    {b : β} (hb : I b) :
    (l.foldlM f b).Ensures (fun b => l.flatMap F = [] ∧ I b)
      (fun e => (l.flatMap F).head? = some e) := by
  induction l generalizing b with
  | nil => exact ⟨rfl, hb⟩
  | cons c l ih =>
    rw [List.foldlM_cons]
    refine ensures_bind ((h b c (by simp) hb).mono ?_ ?_)
    · rintro b' ⟨hf, hI⟩
      rw [List.flatMap_cons, hf, List.nil_append]
      exact ih (fun b c hc => h b c (by simp [hc])) hI
    · intro e hf
      rw [List.flatMap_cons, List.head?_append, hf]
      rfl

end Except
