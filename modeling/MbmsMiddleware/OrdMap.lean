import Mathlib.Data.List.Sigma
import Mathlib.Data.Finset.Card
import Mathlib.Order.Defs.LinearOrder

/-! Finite maps kept as a list of entries sorted by key. Walking the entries
visits the keys in increasing order, and two maps with the same lookups are
the same map. -/

@[ext] structure OrdMap (κ : Type*) (α : Type*) [LinearOrder κ] where
  entries : List ((_ : κ) × α)
  sorted : entries.Pairwise (fun a b => a.1 < b.1)

namespace OrdMap

variable {κ α : Type*} [LinearOrder κ]

def empty : OrdMap κ α := ⟨[], .nil⟩

def find? (m : OrdMap κ α) (k : κ) : Option α := m.entries.dlookup k

def keys (m : OrdMap κ α) : List κ := m.entries.keys

def size (m : OrdMap κ α) : Nat := m.entries.length

/-- Keeping only some of the entries. -/
def filter (m : OrdMap κ α) (p : (_ : κ) × α → Bool) : OrdMap κ α :=
  ⟨m.entries.filter p, m.sorted.filter p⟩

def erase (m : OrdMap κ α) (k : κ) : OrdMap κ α := m.filter (fun e => e.1 ≠ k)

/-- Removing the `n` entries with the smallest keys. -/
def dropFront (m : OrdMap κ α) (n : Nat) : OrdMap κ α :=
  ⟨m.entries.drop n, m.sorted.sublist (List.drop_sublist n m.entries)⟩

/-- Storing `a` under `k`, whatever was there before. -/
def set (m : OrdMap κ α) (k : κ) (a : α) : OrdMap κ α where
  entries := m.entries.filter (·.1 < k) ++ ⟨k, a⟩ :: m.entries.filter (k < ·.1)
  sorted := by
    refine List.pairwise_append.mpr ⟨m.sorted.filter _, ?_, ?_⟩
    · refine List.pairwise_cons.mpr ⟨?_, m.sorted.filter _⟩
      intro e he
      simpa using (List.mem_filter.mp he).2
    · intro e he e' he'
      have hlt : e.1 < k := by simpa using (List.mem_filter.mp he).2
      rcases List.mem_cons.mp he' with rfl | hm
      · exact hlt
      · exact hlt.trans (by simpa using (List.mem_filter.mp hm).2)

theorem nodupKeys (m : OrdMap κ α) : m.entries.NodupKeys :=
  List.nodupKeys_iff_pairwise.mpr (m.sorted.imp ne_of_lt)

theorem keys_sorted (m : OrdMap κ α) : m.keys.Pairwise (· < ·) :=
  List.pairwise_map.mpr m.sorted

theorem keys_nodup (m : OrdMap κ α) : m.keys.Nodup := m.nodupKeys

theorem find?_eq_some {m : OrdMap κ α} {k : κ} {a : α} :
    m.find? k = some a ↔ (⟨k, a⟩ : (_ : κ) × α) ∈ m.entries :=
  List.mem_dlookup_iff m.nodupKeys

instance [DecidableEq α] (m : OrdMap κ α) (p : κ → Prop) [DecidablePred p] (a : α) :
    Decidable (∃ k, p k ∧ m.find? k = some a) :=
  decidable_of_iff (∃ e ∈ m.entries, p e.1 ∧ e.2 = a)
    ⟨fun ⟨e, he, hp, ha⟩ => ⟨e.1, hp, find?_eq_some.mpr (ha ▸ he)⟩,
      fun ⟨k, hp, hk⟩ => ⟨⟨k, a⟩, find?_eq_some.mp hk, hp, rfl⟩⟩

instance [DecidableEq α] (m : OrdMap κ α) (a : α) : Decidable (∃ k, m.find? k = some a) :=
  decidable_of_iff (∃ k, True ∧ m.find? k = some a) (by simp)

theorem find?_eq_none {m : OrdMap κ α} {k : κ} : m.find? k = none ↔ k ∉ m.keys :=
  List.dlookup_eq_none

theorem find?_isSome {m : OrdMap κ α} {k : κ} : (m.find? k).isSome ↔ k ∈ m.keys :=
  List.dlookup_isSome

theorem mem_keys {m : OrdMap κ α} {k : κ} : k ∈ m.keys ↔ ∃ a, m.find? k = some a := by
  rw [← find?_isSome, Option.isSome_iff_exists]

theorem find?_ext {m m' : OrdMap κ α} (h : ∀ k, m.find? k = m'.find? k) : m = m' := by
  have hp : m.entries.Perm m'.entries := by
    refine List.lookup_ext m.nodupKeys m'.nodupKeys (fun k a => ?_)
    change a ∈ m.find? k ↔ a ∈ m'.find? k
    rw [h k]
  refine OrdMap.ext (hp.eq_of_pairwise ?_ m.sorted m'.sorted)
  intro a b _ _ hab hba
  exact absurd hba hab.asymm

@[simp] theorem find?_empty (k : κ) : (empty : OrdMap κ α).find? k = none := rfl

@[simp] theorem keys_empty : (empty : OrdMap κ α).keys = [] := rfl

@[simp] theorem entries_empty : (empty : OrdMap κ α).entries = [] := rfl

theorem mem_set {m : OrdMap κ α} {k : κ} {a : α} {e : (_ : κ) × α} :
    e ∈ (m.set k a).entries ↔ e = ⟨k, a⟩ ∨ e ∈ m.entries ∧ e.1 ≠ k := by
  simp only [set, List.mem_append, List.mem_filter, List.mem_cons, decide_eq_true_eq]
  constructor
  · rintro (⟨hm, hlt⟩ | rfl | ⟨hm, hlt⟩)
    · exact .inr ⟨hm, hlt.ne⟩
    · exact .inl rfl
    · exact .inr ⟨hm, hlt.ne'⟩
  · rintro (rfl | ⟨hm, hne⟩)
    · exact .inr (.inl rfl)
    · exact (lt_or_gt_of_ne hne).elim (fun h => .inl ⟨hm, h⟩) (fun h => .inr (.inr ⟨hm, h⟩))

theorem find?_set (m : OrdMap κ α) (k k' : κ) (a : α) :
    (m.set k a).find? k' = if k' = k then some a else m.find? k' := by
  by_cases hk : k' = k
  · subst hk
    simpa using find?_eq_some.mpr (mem_set.mpr (.inl rfl))
  · ext b
    simp [find?_eq_some, mem_set, hk]

@[simp] theorem find?_set_self (m : OrdMap κ α) (k : κ) (a : α) : (m.set k a).find? k = some a := by
  simp [find?_set]

theorem find?_set_of_ne (m : OrdMap κ α) {k k' : κ} (a : α) (h : k' ≠ k) :
    (m.set k a).find? k' = m.find? k' := by
  simp [find?_set, h]

theorem mem_keys_set {m : OrdMap κ α} {k k' : κ} {a : α} :
    k' ∈ (m.set k a).keys ↔ k' = k ∨ k' ∈ m.keys := by
  rw [← find?_isSome, ← find?_isSome, find?_set]
  by_cases h : k' = k <;> simp [h]

/-- Every value is replaced by its image. -/
def map {β : Type*} (f : α → β) (m : OrdMap κ α) : OrdMap κ β :=
  ⟨m.entries.map fun e => ⟨e.1, f e.2⟩, List.pairwise_map.mpr m.sorted⟩

theorem map_set {β : Type*} (f : α → β) (m : OrdMap κ α) (k : κ) (a : α) :
    (m.set k a).map f = (m.map f).set k (f a) := by
  refine OrdMap.ext ?_
  simp only [map, set, List.map_append, List.map_cons, List.filter_map]
  rfl

theorem find?_map {β : Type*} (f : α → β) (m : OrdMap κ α) (k : κ) :
    (m.map f).find? k = (m.find? k).map f := by
  refine Option.ext (fun b => ?_)
  rw [find?_eq_some, Option.map_eq_some_iff]
  constructor
  · intro h
    obtain ⟨⟨k', a⟩, hm, he⟩ := List.mem_map.mp h
    cases he
    exact ⟨a, find?_eq_some.mpr hm, rfl⟩
  · rintro ⟨a, ha, rfl⟩
    exact List.mem_map.mpr ⟨⟨k, a⟩, find?_eq_some.mp ha, rfl⟩

theorem size_map {β : Type*} (f : α → β) (m : OrdMap κ α) : (m.map f).size = m.size :=
  List.length_map _

/-- What a list of assignments assigns to a key last. -/
def lastAt (l : List (κ × α)) (k : κ) : Option α := (l.reverse.find? (·.1 = k)).map (·.2)

theorem lastAt_concat (l : List (κ × α)) (x : κ × α) (k : κ) :
    lastAt (l ++ [x]) k = if x.1 = k then some x.2 else lastAt l k := by
  unfold lastAt
  rw [List.reverse_append]
  by_cases h : x.1 = k <;> simp [h]

theorem lastAt_map {β : Type*} (f : α → β) (l : List (κ × α)) (k : κ) :
    lastAt (l.map fun x => (x.1, f x.2)) k = (lastAt l k).map f := by
  rw [lastAt, lastAt, ← List.map_reverse, List.find?_map, Option.map_map, Option.map_map]
  rfl

theorem lastAt_eq_none {l : List (κ × α)} {k : κ} : lastAt l k = none ↔ ∀ x ∈ l, x.1 ≠ k := by
  simp [lastAt]

theorem mem_of_lastAt {l : List (κ × α)} {k : κ} {a : α} (h : lastAt l k = some a) : (k, a) ∈ l := by
  obtain ⟨x, hx, rfl⟩ := Option.map_eq_some_iff.mp h
  have hk : x.1 = k := by simpa using List.find?_some hx
  have hm := List.mem_reverse.mp (List.mem_of_find?_eq_some hx)
  rwa [← hk]

theorem find?_foldl_set (l : List (κ × α)) (m : OrdMap κ α) (k : κ) :
    (l.foldl (fun m x => m.set x.1 x.2) m).find? k = (lastAt l k).or (m.find? k) := by
  induction l using List.reverseRecOn with
  | nil => rfl
  | append_singleton l x ih =>
    rw [List.foldl_append, List.foldl_cons, List.foldl_nil, find?_set, lastAt_concat, ih]
    by_cases h : x.1 = k
    · rw [if_pos h.symm, if_pos h]
      rfl
    · rw [if_neg (Ne.symm h), if_neg h]

theorem find?_filter {m : OrdMap κ α} {p : (_ : κ) × α → Bool} {k : κ} {a : α} :
    (m.filter p).find? k = some a ↔ m.find? k = some a ∧ p ⟨k, a⟩ = true := by
  simp only [find?_eq_some, filter, List.mem_filter]

theorem find?_erase (m : OrdMap κ α) (k k' : κ) :
    (m.erase k).find? k' = if k' = k then none else m.find? k' := by
  ext b
  by_cases hk : k' = k <;> simp [erase, find?_filter, hk]

theorem find?_erase_of_ne (m : OrdMap κ α) {k k' : κ} (h : k' ≠ k) :
    (m.erase k).find? k' = m.find? k' := by
  simp [find?_erase, h]

@[simp] theorem find?_erase_self (m : OrdMap κ α) (k : κ) : (m.erase k).find? k = none := by
  simp [find?_erase]

theorem find?_dropFront {m : OrdMap κ α} {n : Nat} {k : κ} {a : α}
    (h : (m.dropFront n).find? k = some a) : m.find? k = some a :=
  find?_eq_some.mpr (List.mem_of_mem_drop (find?_eq_some.mp h))

theorem find?_dropFront_of_mem {m : OrdMap κ α} {n : Nat} {k : κ} (h : k ∈ (m.dropFront n).keys) :
    (m.dropFront n).find? k = m.find? k := by
  obtain ⟨a, ha⟩ := mem_keys.mp h
  rw [ha, find?_dropFront ha]

theorem keys_dropFront (m : OrdMap κ α) (n : Nat) : (m.dropFront n).keys = m.keys.drop n :=
  List.map_drop

theorem mem_take_iff {m : OrdMap κ α} {n : Nat} {e : (_ : κ) × α} :
    e ∈ m.entries.take n ↔ e ∈ m.entries ∧ e.1 ∉ (m.dropFront n).keys := by
  have hs := m.sorted
  rw [← List.take_append_drop n m.entries] at hs
  constructor
  · intro he
    refine ⟨List.mem_of_mem_take he, fun hk => ?_⟩
    obtain ⟨e', he', hkey⟩ := List.mem_map.mp hk
    exact (hkey ▸ (List.pairwise_append.mp hs).2.2 e he e' he').false
  · rintro ⟨he, hk⟩
    rw [← List.take_append_drop n m.entries] at he
    exact (List.mem_append.mp he).resolve_right (fun hd => hk (List.mem_map.mpr ⟨e, hd, rfl⟩))

@[simp] theorem dropFront_zero (m : OrdMap κ α) : m.dropFront 0 = m := rfl

theorem dropFront_dropFront (m : OrdMap κ α) (a b : Nat) :
    (m.dropFront a).dropFront b = m.dropFront (a + b) :=
  OrdMap.ext List.drop_drop

theorem size_eq_length_keys (m : OrdMap κ α) : m.size = m.keys.length := by
  simp [size, keys, List.keys]

theorem size_dropFront (m : OrdMap κ α) (n : Nat) : (m.dropFront n).size = m.size - n :=
  List.length_drop

theorem size_eq_card (m : OrdMap κ α) : m.size = m.keys.toFinset.card := by
  rw [List.toFinset_card_of_nodup m.keys_nodup, size_eq_length_keys]

end OrdMap
