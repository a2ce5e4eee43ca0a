import MbmsMiddleware.ExpiryAges
import Mathlib.Algebra.Order.BigOperators.Group.List
import Mathlib.Data.Finset.Max
import Mathlib.Data.Finset.Dedup
import Mathlib.Data.Prod.Lex

/-! The size limit in exact arithmetic: what is to go when the unexpired items
take up more than `mw.cache.max_total_size`, and when the second loop, which
counts in 32 bits, removes that. -/

section

variable {α β : Type*} [LinearOrder β] (f : α → β) (w : α → Nat) (limit : Nat)

/-- The elements up to which the weights stay within a limit stay within it together. -/
theorem sum_filter_within_le (l : List α) :
    ((l.filter fun x => ((l.filter fun y => f y ≤ f x).map w).sum ≤ limit).map w).sum ≤ limit := by
  classical
  generalize hk : l.filter (fun x => ((l.filter fun y => f y ≤ f x).map w).sum ≤ limit) = kept
  by_cases hne : kept = []
  · simp [hne]
  · obtain ⟨m, hm, hmax⟩ := kept.toFinset.exists_max_image f (by simpa using hne)
    rw [List.mem_toFinset, ← hk, List.mem_filter, decide_eq_true_eq] at hm
    have hself : kept.filter (fun y => f y ≤ f m) = kept :=
      List.filter_eq_self.mpr (fun y hy => by simpa using hmax y (List.mem_toFinset.mpr hy))
    have hsub : kept.Sublist (l.filter fun y => f y ≤ f m) := by
      rw [← hself, ← hk, List.filter_comm]
      exact List.filter_sublist
    exact ((hsub.map w).sum_le_sum (fun _ _ => Nat.zero_le _)).trans hm.2

end

namespace MbmsMiddleware

namespace CacheManagement

variable {ι : Type} (cfg : CacheManagement) (view : ItemView ι)

def totalLength (cache : OrdMap Str ι) (items : List (Int × Str)) : Nat :=
  (items.map fun x => lengthAt view cache x.2).sum

/-- Oldest first, and no more than needed to begin with: what a pass from
`before` to `after` is to do to the unexpired items, `ages` being those of all
entries. -/
structure SizeLimitKept (limit : Nat) (ages : List (Str × Option Int)) (before after : OrdMap Str ι) :
    Prop where
  within : totalLength view before
    ((unexpired cfg ages).filter fun x => (after.find? x.2).isSome) ≤ limit
  untouched : totalLength view before (unexpired cfg ages) ≤ limit →
    ∀ x ∈ unexpired cfg ages, after.find? x.2 = before.find? x.2
  oldestFirst : limit < totalLength view before (unexpired cfg ages) →
    ∀ x ∈ unexpired cfg ages, ∀ y ∈ unexpired cfg ages, x.1 < y.1 →
      after.find? x.2 = none → after.find? y.2 = none
  undated : ∀ l, (l, none) ∈ ages → after.find? l = before.find? l
  noneAdded : ∀ l item, after.find? l = some item → before.find? l = some item

/-- The age of the item in 64 bits is above its limit, or the lengths up to
the item in 32 bits are above theirs. -/
def OverLimit (ages : List (Str × Option Int)) (cache : OrdMap Str ι) (x : Int × Str) : Prop :=
  cfg.maxCacheFileAge < wrappedAge x.1 ∨ cfg.maxCacheSize < runningTotal view cache
    (datedItems cfg (ages.map fun a => (a.1, a.2.map wrappedAge))) (wrappedAge x.1, x.2)

instance (ages : List (Str × Option Int)) (cache : OrdMap Str ι) (x : Int × Str) :
    Decidable (OverLimit cfg view ages cache x) := by unfold OverLimit; infer_instance

/-- The items over the limit are those that may go. -/
structure WrapHarmless (limit : Nat) (ages : List (Str × Option Int)) (cache : OrdMap Str ι) : Prop where
  fits : totalLength view cache (unexpired cfg ages) ≤ limit →
    ∀ x ∈ unexpired cfg ages, ¬ OverLimit cfg view ages cache x
  older : limit < totalLength view cache (unexpired cfg ages) →
    ∀ x ∈ unexpired cfg ages, ∀ y ∈ unexpired cfg ages, x.1 < y.1 →
      OverLimit cfg view ages cache x → OverLimit cfg view ages cache y
  rest : totalLength view cache
    ((unexpired cfg ages).filter fun x => ¬ OverLimit cfg view ages cache x) ≤ limit

variable (clock : Clock)

theorem find?_of_unexpired {cache : OrdMap Str ι} {x : Int × Str}
    (hx : x ∈ unexpired cfg (trueAges cfg view clock cache.entries 0)) :
    (checkFileExpiryAndCacheSize cfg view clock cache).find? x.2 =
      if OverLimit cfg view (trueAges cfg view clock cache.entries 0) cache x then none
      else cache.find? x.2 := by
  obtain ⟨hage, -⟩ := (mem_unexpired cfg).mp hx
  have hread : ∀ u, (x.2, some u) ∈ readAges cfg view clock cache.entries 0 ↔ u = wrappedAge x.1 := by
    intro u
    rw [mem_readAges_iff]
    constructor
    · rintro ⟨age, ha, rfl⟩
      exact congrArg wrappedAge (Option.some.inj (trueAges_unique cfg view clock ha hage))
    · rintro rfl
      exact ⟨x.1, hage, rfl⟩
  refine Option.ext (fun item => ?_)
  rw [find?_checkFileExpiryAndCacheSize]
  simp only [hread, forall_eq]
  rw [readAges_eq_map]
  split_ifs with hover
  · simp only [iff_false, not_and]
    intro _ hle
    rcases hover with h | h <;> omega
  · rw [OverLimit, not_or, not_lt, not_lt] at hover
    exact and_iff_left hover

theorem find?_of_undated {cache : OrdMap Str ι} {l : Str}
    (hl : (l, none) ∈ trueAges cfg view clock cache.entries 0) :
    (checkFileExpiryAndCacheSize cfg view clock cache).find? l = cache.find? l := by
  refine Option.ext (fun item => ?_)
  rw [find?_checkFileExpiryAndCacheSize]
  refine and_iff_left (fun u hu => ?_)
  obtain ⟨age, hage, -⟩ := (mem_readAges_iff cfg view clock).mp hu
  exact absurd (trueAges_unique cfg view clock hl hage) (by simp)

theorem sizeLimitKept_iff (limit : Nat) (cache : OrdMap Str ι) :
    SizeLimitKept cfg view limit (trueAges cfg view clock cache.entries 0) cache
        (checkFileExpiryAndCacheSize cfg view clock cache) ↔
      WrapHarmless cfg view limit (trueAges cfg view clock cache.entries 0) cache := by
  generalize hages : trueAges cfg view clock cache.entries 0 = ages
  have hfind : ∀ x ∈ unexpired cfg ages,
      (checkFileExpiryAndCacheSize cfg view clock cache).find? x.2 =
        if OverLimit cfg view ages cache x then none else cache.find? x.2 := by
    intro x hx
    rw [← hages] at hx ⊢
    exact find?_of_unexpired cfg view clock hx
  have hthere : ∀ x ∈ unexpired cfg ages, ∃ item, cache.find? x.2 = some item := by
    intro x hx
    have hm := ((mem_unexpired cfg).mp hx).1
    rw [← hages] at hm
    exact exists_of_mem_trueAges cfg view clock hm
  have hnone : ∀ x ∈ unexpired cfg ages,
      ((checkFileExpiryAndCacheSize cfg view clock cache).find? x.2 = none ↔
        OverLimit cfg view ages cache x) := by
    intro x hx
    obtain ⟨item, hitem⟩ := hthere x hx
    rw [hfind x hx, hitem]
    split_ifs with h <;> simp [h]
  have hrest : ((unexpired cfg ages).filter fun x =>
      ((checkFileExpiryAndCacheSize cfg view clock cache).find? x.2).isSome) =
        (unexpired cfg ages).filter fun x => ¬ OverLimit cfg view ages cache x := by
    refine List.filter_congr (fun x hx => ?_)
    obtain ⟨item, hitem⟩ := hthere x hx
    rw [hfind x hx, hitem]
    split_ifs with h <;> simp [h]
  constructor
  · intro h
    refine ⟨fun hle x hx hover => ?_, fun hlt x hx y hy hxy hover => ?_, hrest ▸ h.within⟩
    · obtain ⟨item, hitem⟩ := hthere x hx
      have heq := h.untouched hle x hx
      rw [(hnone x hx).mpr hover, hitem] at heq
      exact absurd heq (by simp)
    · exact (hnone y hy).mp (h.oldestFirst hlt x hx y hy hxy ((hnone x hx).mpr hover))
  · intro h
    refine ⟨hrest ▸ h.rest, fun hle x hx => ?_, fun hlt x hx y hy hxy hx0 => ?_, fun l hl => ?_,
      fun l item hl => ?_⟩
    · rw [hfind x hx, if_neg (h.fits hle x hx)]
    · exact (hnone y hy).mpr (h.older hlt x hx y hy hxy ((hnone x hx).mp hx0))
    · rw [← hages] at hl
      exact find?_of_undated cfg view clock hl
    · exact ((find?_checkFileExpiryAndCacheSize cfg view clock cache l item).mp hl).1

def exactTotal (cache : OrdMap Str ι) (items : List (Int × Str)) (x : Int × Str) : Nat :=
  totalLength view cache
    (items.filter fun y => toLex (y.1.toNat, y.2) ≤ toLex (x.1.toNat, x.2))

theorem eq_or_before_iff {x y : Nat × Str} : (y = x ∨ Before y x) ↔ toLex y ≤ toLex x := by
  rw [Prod.Lex.toLex_le_toLex, Before, le_iff_lt_or_eq, Prod.ext_iff]
  tauto

theorem runningTotal_eq_exactTotal (cache : OrdMap Str ι) (items : List (Int × Str)) (x : Int × Str) :
    runningTotal view cache (items.map fun y => (y.1.toNat, y.2)) (x.1.toNat, x.2) =
      exactTotal view cache items x % 2 ^ 32 := by
  simp only [runningTotal, eq_or_before_iff, List.filter_map, List.map_map]
  rfl

theorem exactTotal_le_totalLength (cache : OrdMap Str ι) (items : List (Int × Str)) (x : Int × Str) :
    exactTotal view cache items x ≤ totalLength view cache items :=
  (List.filter_sublist.map _).sum_le_sum (fun _ _ => Nat.zero_le _)

theorem exactTotal_mono (cache : OrdMap Str ι) (items : List (Int × Str)) {x y : Int × Str}
    (h : x.1.toNat < y.1.toNat) : exactTotal view cache items x ≤ exactTotal view cache items y := by
  have hxy : toLex (x.1.toNat, x.2) ≤ toLex (y.1.toNat, y.2) :=
    Prod.Lex.toLex_le_toLex.mpr (.inl h)
  refine ((List.monotone_filter_right items (fun z hz => ?_)).map _).sum_le_sum
    (fun _ _ => Nat.zero_le _)
  simp only [decide_eq_true_eq] at hz ⊢
  exact hz.trans hxy

/-- Where nothing wraps around, the second loop does what it is to do. -/
theorem wrapHarmless_of_small {limit : Nat} {ages : List (Str × Option Int)} {cache : OrdMap Str ι}
    (hages : ∀ l age, (l, some age) ∈ ages → 0 ≤ age ∧ age < 2 ^ 64) (hlimit : cfg.maxCacheSize = limit)
    (htotal : totalLength view cache (unexpired cfg ages) < 2 ^ 32) :
    WrapHarmless cfg view limit ages cache := by
  have hover : ∀ x ∈ unexpired cfg ages, (OverLimit cfg view ages cache x ↔
      limit < exactTotal view cache (unexpired cfg ages) x) := by
    intro x hx
    obtain ⟨hm, hle⟩ := (mem_unexpired cfg).mp hx
    obtain ⟨h0, hlt⟩ := hages _ _ hm
    have hmod := exactTotal_le_totalLength view cache (unexpired cfg ages) x
    rw [OverLimit, datedItems_wrapped cfg hages, wrappedAge_of_nonneg h0 hlt, hlimit,
      runningTotal_eq_exactTotal, Nat.mod_eq_of_lt (by omega)]
    exact or_iff_right (by omega)
  refine ⟨fun hle x hx => ?_, fun _ x hx y hy hxy => ?_, ?_⟩
  · rw [hover x hx, not_lt]
    exact (exactTotal_le_totalLength view cache _ x).trans hle
  · rw [hover x hx, hover y hy]
    have h0 := (hages _ _ ((mem_unexpired cfg).mp hx).1).1
    exact fun h => h.trans_le (exactTotal_mono view cache _ (by omega))
  · have hfilter : ((unexpired cfg ages).filter fun x => ¬ OverLimit cfg view ages cache x) =
        (unexpired cfg ages).filter fun x =>
          exactTotal view cache (unexpired cfg ages) x ≤ limit :=
      List.filter_congr (fun x hx => by simp only [hover x hx, not_lt])
    rw [hfilter]
    exact sum_filter_within_le (fun x : Int × Str => toLex (x.1.toNat, x.2))
      (fun x => lengthAt view cache x.2) limit (unexpired cfg ages)

end CacheManagement

open CacheManagement

variable {D : Type}

/-- The size limit is kept, oldest first, exactly where counting in 32 bits
does no harm. It does none below 4096 MiB while the items are smaller together
than 2^32 and none is dated in the future. -/
theorem size_limit_kept_iff (maxTotalSize maxFileAge : Option (Fin (2 ^ 32))) (timeFirst : Bool)
    (objects : Objects D) (clock : Clock) (cache : Cache) :
    let cfg := ofSettings maxTotalSize maxFileAge timeFirst
    let maxMiB := maxTotalSize.elim 512 Fin.val
    let ages := trueAges cfg (itemView objects) clock cache.entries 0
    (SizeLimitKept cfg (itemView objects) (maxMiB * 2 ^ 20) ages cache
        (checkFileExpiryAndCacheSize cfg (itemView objects) clock cache) ↔
      WrapHarmless cfg (itemView objects) (maxMiB * 2 ^ 20) ages cache) ∧
    ((∀ l age, (l, some age) ∈ ages → 0 ≤ age) → maxMiB < 4096 →
      totalLength (itemView objects) cache (unexpired cfg ages) < 2 ^ 32 →
      WrapHarmless cfg (itemView objects) (maxMiB * 2 ^ 20) ages cache) := by
  intro cfg maxMiB ages
  refine ⟨sizeLimitKept_iff cfg (itemView objects) clock _ cache, fun hnonneg hmax htotal => ?_⟩
  have hlimit : cfg.maxCacheSize = maxMiB * 2 ^ 20 := by
    show maxMiB * (1024 * 1024) % 2 ^ 32 = maxMiB * 2 ^ 20
    omega
  refine wrapHarmless_of_small cfg (itemView objects) (fun l age h => ⟨hnonneg l age h, ?_⟩) hlimit htotal
  have hlt := trueAges_lt cfg (itemView objects) clock h
  omega

section Example

/-- A limit of 4096 MiB is stored as 0, and a file of one byte is removed. -/
theorem large_limit_wraps :
    let cfg := ofSettings (some 4096) none true
    let cache := Cache.addItem .empty (receivedFile 970)
    ¬ SizeLimitKept cfg (itemView noObjects) (4096 * 2 ^ 20)
      (trueAges cfg (itemView noObjects) stoppedClock cache.entries 0) cache
      (checkFileExpiryAndCacheSize cfg (itemView noObjects) stoppedClock cache) := by
  intro cfg cache h
  have hages : trueAges cfg (itemView noObjects) stoppedClock cache.entries 0 =
      [("a".toList, some 30)] := by decide
  have htotal : totalLength (itemView noObjects) cache [(30, "a".toList)] = 1 := by decide
  rw [hages] at h
  have heq := h.untouched (by show totalLength _ _ [(30, "a".toList)] ≤ _; rw [htotal]; decide)
    (30, "a".toList) (List.mem_singleton.mpr rfl)
  exact absurd heq (by decide)

/-- A file of 700000 bytes. -/
def largeFile (location : Str) (receivedAt : Nat) : CacheItem :=
  .file location receivedAt
    { contentLocation := location, toi := 1, contentType := [], buffer := List.replicate 700000 'x',
      receivedAt := receivedAt, complete := true }

theorem contentLength_largeFile (location : Str) (receivedAt : Nat) :
    (itemView noObjects).contentLength (largeFile location receivedAt) = 700000 := by
  change (List.replicate 700000 'x').length % 2 ^ 32 = 700000
  rw [List.length_replicate]
  norm_num

/-- Of two files that are too large together for one MiB the older one is removed. -/
theorem small_limit_kept :
    let cfg := ofSettings (some 1) none true
    let cache := Cache.addItem (Cache.addItem .empty (largeFile ['a'] 980)) (largeFile ['b'] 990)
    let after := checkFileExpiryAndCacheSize cfg (itemView noObjects) stoppedClock cache
    SizeLimitKept cfg (itemView noObjects) (1 * 2 ^ 20)
      (trueAges cfg (itemView noObjects) stoppedClock cache.entries 0) cache after ∧
    after.find? ['a'] = none := by
  intro cfg cache after
  have hages : trueAges cfg (itemView noObjects) stoppedClock cache.entries 0 =
      [(['a'], some 20), (['b'], some 10)] := by decide
  have hunexpired : unexpired cfg (trueAges cfg (itemView noObjects) stoppedClock cache.entries 0) =
      [(20, ['a']), (10, ['b'])] := by
    rw [hages]
    decide
  have htotal : totalLength (itemView noObjects) cache [(20, ['a']), (10, ['b'])] =
      700000 + (700000 + 0) := by
    have hfindA : cache.find? ['a'] = some (largeFile ['a'] 980) := rfl
    have hfindB : cache.find? ['b'] = some (largeFile ['b'] 990) := rfl
    rw [totalLength, List.map_cons, List.map_cons, List.map_nil, List.sum_cons, List.sum_cons,
      List.sum_nil, lengthAt, lengthAt, hfindA, hfindB, Option.elim_some, Option.elim_some,
      contentLength_largeFile, contentLength_largeFile]
  obtain ⟨hkept, hharmless⟩ := size_limit_kept_iff (some 1) none true noObjects stoppedClock cache
  have hsize : SizeLimitKept cfg (itemView noObjects) (1 * 2 ^ 20)
      (trueAges cfg (itemView noObjects) stoppedClock cache.entries 0) cache after := by
    refine hkept.mpr (hharmless (fun l age hm => ?_) (by decide) ?_)
    · rw [hages] at hm
      simp only [List.mem_cons, Prod.mk.injEq, Option.some.injEq, List.not_mem_nil, or_false] at hm
      omega
    · rw [hunexpired, htotal]
      norm_num
  refine ⟨hsize, ?_⟩
  have hwithin := hsize.within
  have holdest := hsize.oldestFirst
  rw [hunexpired] at hwithin holdest
  rw [htotal] at holdest
  by_contra ha
  have hb : after.find? ['b'] ≠ none := fun hb =>
    ha (holdest (by norm_num) (10, ['b']) (by simp) (20, ['a']) (by simp) (by norm_num) hb)
  rw [List.filter_eq_self.mpr (by simpa [Option.isSome_iff_ne_none] using ⟨ha, hb⟩), htotal] at hwithin
  norm_num at hwithin

end Example

end MbmsMiddleware
