import MbmsMiddleware.Largest
import MbmsMiddleware.OrdMap

/-! A map that takes in entries with new keys only and then drops its smallest
keys until `K` are left. It is the first entries of its history, at the `K`
largest keys. -/

namespace OrdMap

variable {κ : Type*} [LinearOrder κ] {α : Type*}

def setNew (m : OrdMap κ α) (x : κ × α) : OrdMap κ α :=
  match m.find? x.1 with
  | some _ => m
  | none => m.set x.1 x.2

def keepLast (K : Nat) (m : OrdMap κ α) : OrdMap κ α := m.dropFront (m.size - K)

/-- What a list of entries has at a key first. -/
def firstAt (l : List (κ × α)) (k : κ) : Option α := (l.find? (·.1 = k)).map (·.2)

def keySet (l : List (κ × α)) : Finset κ := (l.map (·.1)).toFinset

/-- The first entries of a list, at its `K` largest keys. -/
def Recent (K : Nat) (l : List (κ × α)) (m : OrdMap κ α) : Prop :=
  ∀ k, m.find? k = if k ∈ largest K (keySet l) then firstAt l k else none

theorem mem_keySet {l : List (κ × α)} {k : κ} : k ∈ keySet l ↔ ∃ x ∈ l, x.1 = k := by
  simp [keySet]

theorem keySet_append (l l' : List (κ × α)) : keySet (l ++ l') = keySet l ∪ keySet l' := by
  simp [keySet, List.toFinset_append]

theorem firstAt_eq_none {l : List (κ × α)} {k : κ} : firstAt l k = none ↔ k ∉ keySet l := by
  rw [firstAt, Option.map_eq_none_iff, List.find?_eq_none, mem_keySet]
  simp only [decide_eq_true_eq, not_exists, not_and]

theorem mem_of_firstAt {l : List (κ × α)} {k : κ} {a : α} (h : firstAt l k = some a) : (k, a) ∈ l := by
  obtain ⟨x, hx, rfl⟩ := Option.map_eq_some_iff.mp h
  have hk : x.1 = k := by simpa using List.find?_some hx
  exact hk ▸ List.mem_of_find?_eq_some hx

theorem firstAt_append (l l' : List (κ × α)) (k : κ) :
    firstAt (l ++ l') k = (firstAt l k).or (firstAt l' k) := by
  rw [firstAt, List.find?_append]
  unfold firstAt
  cases l.find? (·.1 = k) <;> rfl

theorem setNew_known {m : OrdMap κ α} {x : κ × α} {a : α} (h : m.find? x.1 = some a) :
    m.setNew x = m := by
  unfold setNew
  rw [h]

theorem setNew_new {m : OrdMap κ α} {x : κ × α} (h : m.find? x.1 = none) :
    m.setNew x = m.set x.1 x.2 := by
  unfold setNew
  rw [h]

theorem find?_setNew (m : OrdMap κ α) (x : κ × α) (k : κ) :
    (m.setNew x).find? k = (m.find? k).or (firstAt [x] k) := by
  unfold firstAt
  cases hx : m.find? x.1 with
  | some a =>
    rw [setNew_known hx]
    by_cases hk : x.1 = k
    · rw [← hk, hx, Option.some_or]
    · simp [hk]
  | none =>
    rw [setNew_new hx, find?_set]
    split_ifs with hk
    · simp [hk, hx]
    · simp [Ne.symm hk]

theorem find?_foldl_setNew (l : List (κ × α)) (m : OrdMap κ α) (k : κ) :
    (l.foldl setNew m).find? k = (m.find? k).or (firstAt l k) := by
  induction l generalizing m with
  | nil => exact (Option.or_none).symm
  | cons x l ih =>
    rw [List.foldl_cons, ih, find?_setNew, Option.or_assoc, ← firstAt_append]
    rfl

theorem mem_keys_foldl_setNew {l : List (κ × α)} {m : OrdMap κ α} {k : κ} :
    k ∈ (l.foldl setNew m).keys ↔ k ∈ m.keys ∨ k ∈ keySet l := by
  have hnone := (firstAt_eq_none (l := l) (k := k)).not_left
  rw [← find?_isSome, ← find?_isSome, find?_foldl_setNew]
  cases hm : m.find? k with
  | some a => simp
  | none =>
    rw [Option.none_or, ← hnone, Option.isSome_iff_ne_none]
    simp

theorem find?_keepLast (K : Nat) (m : OrdMap κ α) (k : κ) :
    (m.keepLast K).find? k = if k ∈ largest K m.keys.toFinset then m.find? k else none := by
  have hkeys : (m.keepLast K).keys.toFinset = largest K m.keys.toFinset := by
    rw [keepLast, keys_dropFront, size_eq_length_keys]
    exact toFinset_drop_length_sub m.keys_sorted K
  have hmem : k ∈ (m.keepLast K).keys ↔ k ∈ largest K m.keys.toFinset := by
    rw [← hkeys, List.mem_toFinset]
  split_ifs with hk
  · exact find?_dropFront_of_mem (hmem.mpr hk)
  · exact find?_eq_none.mpr (hmem.not.mpr hk)

theorem recent_nil (K : Nat) : Recent K [] (empty : OrdMap κ α) := by
  intro k
  have hnone : k ∉ largest K (keySet ([] : List (κ × α))) := by simp [keySet, largest]
  rw [if_neg hnone]
  rfl

theorem Recent.keys {K : Nat} {l : List (κ × α)} {m : OrdMap κ α} (h : Recent K l m) :
    m.keys.toFinset = largest K (keySet l) := by
  ext k
  rw [List.mem_toFinset, ← find?_isSome, h k]
  split_ifs with hk
  · have hmem : firstAt l k ≠ none := firstAt_eq_none.not.mpr (not_not_intro (largest_subset _ _ hk))
    simp [hk, Option.isSome_iff_ne_none, hmem]
  · simp [hk]

theorem Recent.size_le {K : Nat} {l : List (κ × α)} {m : OrdMap κ α} (h : Recent K l m) :
    m.size ≤ K := by
  rw [size_eq_card, h.keys, card_largest]
  exact min_le_left _ _

theorem Recent.mem {K : Nat} {l : List (κ × α)} {m : OrdMap κ α} (h : Recent K l m) {k : κ} {a : α}
    (hk : m.find? k = some a) : (k, a) ∈ l := by
  rw [h k] at hk
  split_ifs at hk
  exact mem_of_firstAt hk

/-- Keys that have been dropped do not come back. -/
theorem Recent.accept {K : Nat} {l : List (κ × α)} {m : OrdMap κ α} (h : Recent K l m)
    (xs : List (κ × α)) : Recent K (l ++ xs) ((xs.foldl setNew m).keepLast K) := by
  have hkeys : largest K (xs.foldl setNew m).keys.toFinset = largest K (keySet (l ++ xs)) := by
    have hunion : (xs.foldl setNew m).keys.toFinset = m.keys.toFinset ∪ keySet xs := by
      ext k
      rw [List.mem_toFinset, mem_keys_foldl_setNew, Finset.mem_union, List.mem_toFinset]
    rw [hunion, h.keys, largest_largest_union, keySet_append]
  intro k
  rw [find?_keepLast, hkeys]
  split_ifs with hk
  · rw [find?_foldl_setNew, h k, firstAt_append]
    split_ifs with hold
    · rfl
    · have hnew : k ∉ keySet l := by
        intro hin
        refine hold (mem_largest_of_subset ?_ hin hk)
        rw [keySet_append]
        exact Finset.subset_union_left
      rw [firstAt_eq_none.mpr hnew]
  · rfl

theorem recent_entries {K : Nat} {m : OrdMap κ α} (h : m.size ≤ K) :
    Recent K (m.entries.map fun e => (e.1, e.2)) m := by
  have hkeys : keySet (m.entries.map fun e => (e.1, e.2)) = m.keys.toFinset := by
    rw [keySet, List.map_map]
    rfl
  have hlargest : largest K m.keys.toFinset = m.keys.toFinset :=
    largest_of_card_le (by rwa [← size_eq_card])
  have hfirst : ∀ k, m.find? k = firstAt (m.entries.map fun e => (e.1, e.2)) k := by
    intro k
    unfold firstAt find?
    induction m.entries with
    | nil => rfl
    | cons e es ih =>
      obtain ⟨k', a⟩ := e
      by_cases hk : k' = k
      · subst hk
        rw [List.dlookup_cons_eq]
        simp
      · rw [List.dlookup_cons_ne _ _ (Ne.symm hk), ih]
        simp [hk]
  intro k
  rw [hkeys, hlargest]
  split_ifs with hk
  · exact hfirst k
  · exact find?_eq_none.mpr fun hmem => hk (List.mem_toFinset.mpr hmem)

theorem Recent.find?_eq {K : Nat} {l l' : List (κ × α)} {m m' : OrdMap κ α} (h : Recent K l m)
    (h' : Recent K (l ++ l') m') {k : κ} {a a' : α} (ha : m.find? k = some a)
    (ha' : m'.find? k = some a') : a' = a := by
  rw [h k] at ha
  rw [h' k, firstAt_append] at ha'
  split_ifs at ha
  split_ifs at ha'
  rw [ha] at ha'
  exact (Option.some.inj ha').symm

theorem Recent.find?_gone {K : Nat} {l l' l'' : List (κ × α)} {m m' m'' : OrdMap κ α}
    (h : Recent K l m) (h' : Recent K (l ++ l') m') (h'' : Recent K (l ++ l' ++ l'') m'') {k : κ}
    (hk : k ∈ m.keys) (hk' : k ∉ m'.keys) : k ∉ m''.keys := by
  rw [← List.mem_toFinset, h.keys] at hk
  rw [← List.mem_toFinset, h'.keys] at hk'
  rw [← List.mem_toFinset, h''.keys]
  have hmem : k ∈ keySet (l ++ l') := by
    rw [keySet_append]
    exact Finset.mem_union_left _ (largest_subset _ _ hk)
  refine fun hk'' => hk' (mem_largest_of_subset ?_ hmem hk'')
  rw [keySet_append (l ++ l')]
  exact Finset.subset_union_left

def Consistent (l : List (κ × α)) : Prop := ∀ x ∈ l, ∀ y ∈ l, x.1 = y.1 → x = y

theorem Consistent.firstAt_eq_some {l : List (κ × α)} (hl : Consistent l) {k : κ} {a : α} :
    firstAt l k = some a ↔ (k, a) ∈ l := by
  unfold firstAt
  rw [Option.map_eq_some_iff]
  constructor
  · rintro ⟨x, hx, rfl⟩
    have hk : x.1 = k := by simpa using List.find?_some hx
    rw [← hk]
    exact List.mem_of_find?_eq_some hx
  · intro hmem
    have hsome : l.find? (·.1 = k) ≠ none := fun hnone =>
      List.find?_eq_none.mp hnone (k, a) hmem (by simp)
    obtain ⟨x, hx⟩ := Option.ne_none_iff_exists'.mp hsome
    have hk : x.1 = k := by simpa using List.find?_some hx
    have heq := hl x (List.mem_of_find?_eq_some hx) (k, a) hmem hk
    exact ⟨x, hx, by rw [heq]⟩

/-- In what order and how often the entries of a consistent history came does not
matter. -/
theorem Recent.unique {K : Nat} {l l' : List (κ × α)} {m m' : OrdMap κ α} (hl : Consistent l)
    (hsame : ∀ x, x ∈ l ↔ x ∈ l') (h : Recent K l m) (h' : Recent K l' m') : m = m' := by
  have hl' : Consistent l' := fun x hx y hy => hl x ((hsame x).mpr hx) y ((hsame y).mpr hy)
  have hkeys : keySet l = keySet l' := by
    ext k
    rw [mem_keySet, mem_keySet]
    exact exists_congr fun x => and_congr_left fun _ => hsame x
  have hfirst : ∀ k, firstAt l k = firstAt l' k := by
    intro k
    refine Option.ext fun a => ?_
    rw [hl.firstAt_eq_some, hl'.firstAt_eq_some]
    exact hsame (k, a)
  refine find?_ext fun k => ?_
  rw [h k, h' k, hkeys, hfirst]

end OrdMap
