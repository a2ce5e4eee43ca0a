import Mathlib.Data.List.Basic
import Mathlib.Order.Lattice
import Mathlib.Tactic.Common

/-! Windows that only move forward: elements leave at the front and new ones
come in behind everything that was there. -/

variable {α : Type*} [LinearOrder α]

def Slides (old new : List α) : Prop :=
  ∃ d suffix, new = old.drop d ++ suffix ∧ ∀ x ∈ old, ∀ y ∈ suffix, x < y

theorem prefix_of_sorted {l l' : List α} (hl : l.Pairwise (· < ·)) (hl' : l'.Pairwise (· < ·))
    (hsub : ∀ x ∈ l, x ∈ l') (hrest : ∀ y ∈ l', y ∉ l → ∀ x ∈ l, x < y) : l <+: l' := by
  induction l generalizing l' with
  | nil => exact List.nil_prefix
  | cons a l ih =>
    cases l' with
    | nil => exact absurd (hsub a (by simp)) (by simp)
    | cons b l' =>
      obtain ⟨hmin, hs⟩ := List.pairwise_cons.mp hl
      obtain ⟨hmin', hs'⟩ := List.pairwise_cons.mp hl'
      have hba : b ≤ a := by
        rcases List.mem_cons.mp (hsub a (by simp)) with rfl | hm
        · exact le_rfl
        · exact (hmin' a hm).le
      have hab : a ≤ b := by
        by_contra hlt
        refine hlt (hrest b (by simp) (fun hm => ?_) a (by simp)).le
        rcases List.mem_cons.mp hm with rfl | hm
        · exact hlt le_rfl
        · exact hlt (hmin b hm).le
      obtain rfl := le_antisymm hab hba
      refine List.cons_prefix_cons.mpr ⟨rfl, ih hs hs' (fun x hx => ?_) (fun y hy hny x hx => ?_)⟩
      · exact (List.mem_cons.mp (hsub x (by simp [hx]))).resolve_left (hmin x hx).ne'
      · refine hrest y (by simp [hy]) (fun hm => ?_) x (by simp [hx])
        exact (List.mem_cons.mp hm).elim (fun he => (hmin' y hy).ne' he) hny

/-- A window slides exactly when nothing new comes in below what was there. -/
theorem slides_iff {old new : List α} (hold : old.Pairwise (· < ·)) (hnew : new.Pairwise (· < ·))
    (hup : ∀ x ∈ old, x ∈ new → ∀ y ∈ old, x < y → y ∈ new) :
    Slides old new ↔ ∀ y ∈ new, y ∉ old → ∀ x ∈ old, x < y := by
  constructor
  · rintro ⟨d, suffix, rfl, hs⟩ y hy hny x hx
    rcases List.mem_append.mp hy with hy | hy
    · exact absurd (List.mem_of_mem_drop hy) hny
    · exact hs x hx y hy
  · intro h
    induction old with
    | nil => exact ⟨0, new, rfl, by simp⟩
    | cons a old ih =>
      obtain ⟨hmin, hold⟩ := List.pairwise_cons.mp hold
      by_cases ha : a ∈ new
      · have hall : ∀ x ∈ a :: old, x ∈ new := by
          intro x hx
          rcases List.mem_cons.mp hx with rfl | hx'
          · exact ha
          · exact hup a (by simp) ha x hx (hmin x hx')
        obtain ⟨suffix, hs⟩ := prefix_of_sorted (List.pairwise_cons.mpr ⟨hmin, hold⟩) hnew hall h
        refine ⟨0, suffix, hs.symm, fun x hx y hy => ?_⟩
        rw [← hs] at hnew
        exact (List.pairwise_append.mp hnew).2.2 x hx y hy
      · obtain ⟨d, suffix, rfl, hs⟩ := ih hold
          (fun x hx hxn y hy => hup x (by simp [hx]) hxn y (by simp [hy]))
          (fun y hy hny x hx => h y hy
            (fun hm => (List.mem_cons.mp hm).elim (fun he => ha (he ▸ hy)) hny) x (by simp [hx]))
        refine ⟨d + 1, suffix, rfl, fun x hx y hy => ?_⟩
        have hy' : y ∈ old.drop d ++ suffix := List.mem_append_right _ hy
        refine h y hy' (fun hm => ?_) x hx
        rcases List.mem_cons.mp hm with rfl | hm
        · exact ha hy'
        · exact lt_irrefl y (hs y hm y hy)
