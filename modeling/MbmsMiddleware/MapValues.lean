import MbmsMiddleware.OrdMap
import Mathlib.Data.Multiset.Filter
import Mathlib.Data.Multiset.AddSub

/-! The values of a map, counted. Storing adds one value at most, and everything
else moves values or takes them away. -/

namespace OrdMap

variable {κ α : Type*} [LinearOrder κ]

def values (m : OrdMap κ α) : Multiset α := (m.entries.map (·.2) : List α)

theorem values_filter_le (m : OrdMap κ α) (p : (_ : κ) × α → Bool) : (m.filter p).values ≤ m.values :=
  (List.filter_sublist.map _).subperm

theorem values_dropFront_le (m : OrdMap κ α) (n : Nat) : (m.dropFront n).values ≤ m.values :=
  ((List.drop_sublist n m.entries).map _).subperm

theorem values_set (m : OrdMap κ α) (k : κ) (a : α) :
    (m.set k a).values = a ::ₘ (m.erase k).values := by
  have hother : (m.entries.filter (·.1 < k) ++ m.entries.filter (k < ·.1)).Perm
      (m.entries.filter fun e => e.1 ≠ k) := by
    have hsplit := List.filter_append_perm (fun e => decide (e.1 < k))
      (m.entries.filter fun e => e.1 ≠ k)
    rw [List.filter_filter, List.filter_filter] at hsplit
    refine (List.Perm.of_eq ?_).trans hsplit
    congr 1
    · refine List.filter_congr fun e _ => ?_
      by_cases h : e.1 < k
      · simp [h, h.ne]
      · simp [h]
    · refine List.filter_congr fun e _ => ?_
      by_cases h : k < e.1
      · simp [h, h.ne', h.le]
      · rcases lt_or_eq_of_le (not_lt.mp h) with h' | h' <;> simp [h, h']
  have hperm : (m.set k a).entries.Perm (⟨k, a⟩ :: (m.erase k).entries) :=
    List.perm_middle.trans (hother.cons _)
  exact Multiset.coe_eq_coe.mpr (hperm.map (·.2))

theorem values_erase_of_find? {m : OrdMap κ α} {k : κ} {a : α} (h : m.find? k = some a) :
    m.values = a ::ₘ (m.erase k).values := by
  have hset : m.set k a = m := by
    refine find?_ext fun k' => ?_
    rw [find?_set]
    split_ifs with hk
    · rw [hk, h]
    · rfl
  rw [← values_set, hset]

theorem values_set_le (m : OrdMap κ α) (k : κ) (a : α) : (m.set k a).values ≤ a ::ₘ m.values := by
  rw [values_set]
  exact Multiset.cons_le_cons a (values_filter_le m _)

end OrdMap
