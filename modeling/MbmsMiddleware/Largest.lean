import Mathlib.Data.Finset.Max
import Mathlib.Data.Finset.Card
import Mathlib.Data.Finset.Dedup

/-! The `K` largest elements of a finite set of a linear order. A window that
takes in new elements and then drops the smallest ones until `K` are left
depends only on the set of everything it ever took in. -/

variable {α : Type*} [LinearOrder α]

/-- The elements with fewer than `K` larger ones. -/
def largest (K : Nat) (A : Finset α) : Finset α :=
  A.filter (fun a => (A.filter (a < ·)).card < K)

theorem mem_largest {K : Nat} {A : Finset α} {a : α} :
    a ∈ largest K A ↔ a ∈ A ∧ (A.filter (a < ·)).card < K := by
  simp only [largest, Finset.mem_filter]

theorem largest_subset (K : Nat) (A : Finset α) : largest K A ⊆ A := Finset.filter_subset _ _

theorem mem_largest_of_subset {K : Nat} {A B : Finset α} {a : α} (hsub : A ⊆ B) (ha : a ∈ A)
    (h : a ∈ largest K B) : a ∈ largest K A :=
  mem_largest.mpr ⟨ha, (Finset.card_le_card (Finset.filter_subset_filter _ hsub)).trans_lt
    (mem_largest.mp h).2⟩

theorem mem_largest_of_lt {K : Nat} {A : Finset α} {a b : α} (ha : a ∈ largest K A) (hb : b ∈ A)
    (hab : a < b) : b ∈ largest K A := by
  refine mem_largest.mpr ⟨hb, lt_of_le_of_lt (Finset.card_le_card ?_) (mem_largest.mp ha).2⟩
  exact Finset.monotone_filter_right A (fun c _ hc => hab.trans hc)

/-- What is left out is smaller than everything that is kept. -/
theorem lt_of_notMem_largest {K : Nat} {A : Finset α} {a b : α} (ha : a ∈ A)
    (hna : a ∉ largest K A) (hb : b ∈ largest K A) : a < b := by
  rcases lt_trichotomy a b with h | rfl | h
  · exact h
  · exact absurd hb hna
  · exact absurd (mem_largest_of_lt hb ha h) hna

theorem largest_of_card_le {K : Nat} {A : Finset α} (h : A.card ≤ K) : largest K A = A := by
  refine Finset.filter_true_of_mem (fun a ha => lt_of_lt_of_le (Finset.card_lt_card ?_) h)
  exact Finset.filter_ssubset.mpr ⟨a, ha, lt_irrefl a⟩

/-- A new smallest element on top of `K` others is not among the `K` largest. -/
theorem largest_insert_min {K : Nat} {A : Finset α} {a : α} (hmin : ∀ b ∈ A, a < b)
    (h : K ≤ A.card) : largest K (insert a A) = largest K A := by
  have hgt : ∀ b ∈ A, (insert a A).filter (b < ·) = A.filter (b < ·) := fun b hb => by
    rw [Finset.filter_insert, if_neg (hmin b hb).not_gt]
  ext b
  rw [mem_largest, mem_largest, Finset.mem_insert]
  constructor
  · rintro ⟨rfl | hb, hc⟩
    · have hall : (insert b A).filter (b < ·) = A := by
        rw [Finset.filter_insert, if_neg (lt_irrefl b), Finset.filter_true_of_mem hmin]
      rw [hall] at hc
      omega
    · exact ⟨hb, hgt b hb ▸ hc⟩
  · rintro ⟨hb, hc⟩
    exact ⟨.inr hb, (hgt b hb).symm ▸ hc⟩

theorem card_largest (K : Nat) (A : Finset α) : (largest K A).card = min K A.card := by
  induction A using Finset.induction_on_min with
  | empty => simp [largest]
  | insert a A hmin ih =>
    have hna : a ∉ A := fun h => lt_irrefl a (hmin a h)
    rcases Nat.lt_or_ge A.card K with hlt | hge
    · rw [largest_of_card_le (by rw [Finset.card_insert_of_notMem hna]; omega)]
      have := Finset.card_insert_of_notMem hna
      omega
    · rw [largest_insert_min hmin hge, ih, Finset.card_insert_of_notMem hna]
      omega

theorem filter_gt_largest (K : Nat) (A : Finset α) (a : α) :
    (largest K A).filter (a < ·) = largest K (A.filter (a < ·)) := by
  ext b
  have hgt : a < b → (A.filter (a < ·)).filter (b < ·) = A.filter (b < ·) := fun hab => by
    rw [Finset.filter_filter]
    exact Finset.filter_congr (fun c _ => ⟨fun h => h.2, fun h => ⟨hab.trans h, h⟩⟩)
  simp only [Finset.mem_filter, mem_largest]
  constructor
  · rintro ⟨⟨hb, hc⟩, hab⟩
    exact ⟨⟨hb, hab⟩, by rwa [hgt hab]⟩
  · rintro ⟨⟨hb, hab⟩, hc⟩
    exact ⟨⟨hb, by rwa [hgt hab] at hc⟩, hab⟩

theorem le_card_gt_of_notMem_largest {K : Nat} {A : Finset α} {a : α} (ha : a ∈ A)
    (hna : a ∉ largest K A) : K ≤ ((largest K A).filter (a < ·)).card := by
  have hK : K ≤ (A.filter (a < ·)).card := by
    by_contra hlt
    exact hna (mem_largest.mpr ⟨ha, by omega⟩)
  rw [filter_gt_largest, card_largest]
  omega

/-- Elements dropped earlier never matter again. -/
theorem largest_largest_union (K : Nat) (A B : Finset α) :
    largest K (largest K A ∪ B) = largest K (A ∪ B) := by
  have hsub : largest K A ∪ B ⊆ A ∪ B := Finset.union_subset_union_left (largest_subset K A)
  ext a
  constructor
  · intro h
    refine mem_largest.mpr ⟨hsub (mem_largest.mp h).1, lt_of_le_of_lt (Finset.card_le_card ?_)
      (mem_largest.mp h).2⟩
    intro c hc
    obtain ⟨hm, hac⟩ := Finset.mem_filter.mp hc
    refine Finset.mem_filter.mpr ⟨?_, hac⟩
    by_contra hnc
    simp only [Finset.mem_union, not_or] at hm hnc
    -- a dropped element above `a` would come with `K` kept ones above it
    have hK := le_card_gt_of_notMem_largest (hm.resolve_right hnc.2) hnc.1
    have hle : ((largest K A).filter (c < ·)).card ≤ ((largest K A ∪ B).filter (a < ·)).card := by
      refine Finset.card_le_card (fun d hd => ?_)
      obtain ⟨hd, hcd⟩ := Finset.mem_filter.mp hd
      exact Finset.mem_filter.mpr ⟨Finset.mem_union_left B hd, hac.trans hcd⟩
    have := (mem_largest.mp h).2
    omega
  · intro h
    refine mem_largest_of_subset hsub ?_ h
    rcases Finset.mem_union.mp (mem_largest.mp h).1 with ha | hb
    · exact Finset.mem_union_left B (mem_largest_of_subset Finset.subset_union_left ha h)
    · exact Finset.mem_union_right _ hb

/-- On an increasing list the `K` largest elements are the last `K`. -/
theorem toFinset_drop_length_sub {l : List α} (hs : l.Pairwise (· < ·)) (K : Nat) :
    (l.drop (l.length - K)).toFinset = largest K l.toFinset := by
  induction l with
  | nil => simp [largest]
  | cons a l ih =>
    obtain ⟨hmin, hs⟩ := List.pairwise_cons.mp hs
    have hcard : l.toFinset.card = l.length :=
      List.toFinset_card_of_nodup (hs.imp ne_of_lt)
    have hna : a ∉ l.toFinset := fun h => lt_irrefl a (hmin a (List.mem_toFinset.mp h))
    rcases Nat.lt_or_ge l.length K with hlt | hge
    · have hz : (a :: l).length - K = 0 := by simp only [List.length_cons]; omega
      rw [hz, List.drop_zero, largest_of_card_le]
      rw [List.toFinset_cons, Finset.card_insert_of_notMem hna, hcard]
      omega
    · have hd : (a :: l).length - K = (l.length - K) + 1 := by
        simp only [List.length_cons]
        omega
      rw [hd, List.drop_succ_cons, ih hs, List.toFinset_cons, largest_insert_min _ (by omega)]
      exact fun b hb => hmin b (List.mem_toFinset.mp hb)
