import Mathlib.Data.List.Induction
import Mathlib.Tactic.Common

/-! A register with several writers, of which the last one wins, and when their
order does not matter. -/

section LastWrites

variable {α β γ : Type*}

/-- What the last of the writers that write at all leaves in the register. -/
def lastWrite (f : α → Option β) (l : List α) : Option β := (l.filterMap f).getLast?

/-- No two writers write different values. -/
def Agree (f : α → Option β) (l : List α) : Prop :=
  ∀ a ∈ l, ∀ b ∈ l, ∀ x ∈ f a, ∀ y ∈ f b, x = y

theorem lastWrite_append (f : α → Option β) (l l' : List α) :
    lastWrite f (l ++ l') = (lastWrite f l').or (lastWrite f l) := by
  simp only [lastWrite, List.filterMap_append, List.getLast?_append]

theorem lastWrite_concat (f : α → Option β) (l : List α) (a : α) :
    lastWrite f (l ++ [a]) = (f a).or (lastWrite f l) := by
  rw [lastWrite_append]
  cases h : f a <;> simp [lastWrite, h]

/-- Writers that write in groups write as one each. -/
theorem lastWrite_flatMap (f : α → Option β) (g : γ → List α) (l : List γ) :
    lastWrite f (l.flatMap g) = lastWrite (fun c => lastWrite f (g c)) l := by
  induction l using List.reverseRecOn with
  | nil => rfl
  | append_singleton l c ih =>
    rw [lastWrite_concat, ← ih, ← lastWrite_append]
    simp

theorem lastWrite_eq_none_iff {f : α → Option β} {l : List α} :
    lastWrite f l = none ↔ ∀ a ∈ l, f a = none := by
  simp only [lastWrite, List.getLast?_eq_none_iff, List.filterMap_eq_nil_iff]

theorem exists_of_lastWrite {f : α → Option β} {l : List α} {x : β} (h : lastWrite f l = some x) :
    ∃ a ∈ l, f a = some x :=
  List.mem_filterMap.mp (List.mem_of_getLast? h)

theorem Agree.lastWrite_eq {f : α → Option β} {l : List α} (h : Agree f l) {a : α} {x : β}
    (ha : a ∈ l) (hx : f a = some x) : lastWrite f l = some x := by
  cases hl : lastWrite f l with
  | none =>
    rw [lastWrite_eq_none_iff.mp hl a ha] at hx
    cases hx
  | some y =>
    obtain ⟨b, hb, hy⟩ := exists_of_lastWrite hl
    rw [h b hb a ha y hy x hx]

theorem Agree.lastWrite_perm {f : α → Option β} {l l' : List α} (h : Agree f l)
    (hl : l'.Perm l) : lastWrite f l' = lastWrite f l := by
  have h' : Agree f l' := fun a ha b hb => h a (hl.mem_iff.mp ha) b (hl.mem_iff.mp hb)
  cases hx : lastWrite f l with
  | none =>
    rw [lastWrite_eq_none_iff] at hx ⊢
    exact fun a ha => hx a (hl.mem_iff.mp ha)
  | some x =>
    obtain ⟨a, ha, hax⟩ := exists_of_lastWrite hx
    exact h'.lastWrite_eq (hl.mem_iff.mpr ha) hax

/-- Any one of the writers may come last. -/
theorem exists_perm_lastWrite {f : α → Option β} {l : List α} {a : α} {x : β} (ha : a ∈ l)
    (hx : f a = some x) : ∃ l', l'.Perm l ∧ lastWrite f l' = some x := by
  obtain ⟨s, t, rfl⟩ := List.append_of_mem ha
  refine ⟨s ++ t ++ [a], ?_, ?_⟩
  · exact (List.perm_append_singleton a (s ++ t)).trans List.perm_middle.symm
  · rw [lastWrite_concat, hx]
    rfl

/-- A register with an initial value keeps what the writers leave in it under
every order exactly when they agree. -/
theorem agree_iff_perm {f : α → Option β} {l : List α} (d : β) :
    Agree f l ↔ ∀ l', l'.Perm l → (lastWrite f l').getD d = (lastWrite f l).getD d := by
  constructor
  · intro h l' hl
    rw [h.lastWrite_perm hl]
  · intro h a ha b hb x hx y hy
    obtain ⟨l₁, hl₁, hx₁⟩ := exists_perm_lastWrite ha hx
    obtain ⟨l₂, hl₂, hy₂⟩ := exists_perm_lastWrite hb hy
    have h₁ := h l₁ hl₁
    have h₂ := h l₂ hl₂
    rw [hx₁] at h₁
    rw [hy₂] at h₂
    exact h₁.trans h₂.symm

end LastWrites
