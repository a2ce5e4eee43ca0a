import MbmsMiddleware.GeneratedEntries

/-! The ages of the items as differences of integers, and when the expiry loop
goes by them. -/

namespace MbmsMiddleware

namespace CacheManagement

variable {ι : Type} (cfg : CacheManagement) (view : ItemView ι) (clock : Clock)

/-- The operands of `time(nullptr) - received_at()`. -/
def ageOperands (tick : Nat) (item : ι) : (Nat × Nat) × Nat :=
  if cfg.timeFirst then
    let (received, next) := readReceivedAt view clock (tick + 1) item
    ((clock.reading tick, received), next)
  else
    let (received, next) := readReceivedAt view clock tick item
    ((clock.reading next, received), next + 1)

/-- The age of each entry as an integer, `none` where `received_at()` is 0. -/
def trueAges : List ((_ : Str) × ι) → Nat → List (Str × Option Int)
  | [], _ => []
  | ⟨location, item⟩ :: rest, tick =>
    let (received, tick) := readReceivedAt view clock tick item
    if received ≠ 0 then
      let ((now, received), tick) := ageOperands cfg view clock tick item
      (location, some ((now : Int) - received)) :: trueAges rest tick
    else (location, none) :: trueAges rest tick

/-- An age as the `unsigned long` it is computed in. -/
def wrappedAge (age : Int) : Nat := (age % 2 ^ 64).toNat

def unexpired (ages : List (Str × Option Int)) : List (Int × Str) :=
  ages.filterMap fun x => x.2.bind fun age =>
    if age > cfg.maxCacheFileAge then none else some (age, x.1)

/-- Only what is too old is removed for its age, and the size pass gets every
other dated item under its own location with its age. -/
structure ExactExpiry (cache : OrdMap Str ι) : Prop where
  kept : ∀ l item, (expiryLoop cfg view clock cache.entries 0 cache []).1.find? l = some item ↔
    cache.find? l = some item ∧
      ∀ age, (l, some age) ∈ trueAges cfg view clock cache.entries 0 → age ≤ cfg.maxCacheFileAge
  aged : (expiryLoop cfg view clock cache.entries 0 cache []).2.Perm
    ((unexpired cfg (trueAges cfg view clock cache.entries 0)).map fun x => (x.1.toNat, x.2))

theorem wrappedAge_of_nonneg {age : Int} (h : 0 ≤ age) (hlt : age < 2 ^ 64) :
    wrappedAge age = age.toNat := by
  rw [wrappedAge, Int.emod_eq_of_lt h hlt]

theorem wrappedAge_of_neg {age : Int} (h : age < 0) (hlt : -2 ^ 64 < age) :
    0 < wrappedAge age := by
  rw [wrappedAge]
  omega

theorem readAge_eq (tick : Nat) (item : ι) :
    readAge cfg view clock tick item =
      (wrappedAge (((ageOperands cfg view clock tick item).1.1 : Int) -
        (ageOperands cfg view clock tick item).1.2), (ageOperands cfg view clock tick item).2) := by
  unfold readAge ageOperands wrappedAge
  split_ifs <;> rfl

theorem readAges_eq_map (es : List ((_ : Str) × ι)) (tick : Nat) :
    readAges cfg view clock es tick =
      (trueAges cfg view clock es tick).map fun x => (x.1, x.2.map wrappedAge) := by
  induction es generalizing tick with
  | nil => rfl
  | cons e es ih =>
    obtain ⟨location, item⟩ := e
    simp only [readAges, trueAges, readAge_eq]
    split_ifs with h
    · rw [List.map_cons, ih, Option.map_some]
    · rw [List.map_cons, ih, Option.map_none]

theorem mem_readAges_iff {es : List ((_ : Str) × ι)} {tick : Nat} {l : Str} {u : Nat} :
    (l, some u) ∈ readAges cfg view clock es tick ↔
      ∃ age, (l, some age) ∈ trueAges cfg view clock es tick ∧ wrappedAge age = u := by
  rw [readAges_eq_map, List.mem_map]
  constructor
  · rintro ⟨⟨l', _ | age⟩, hm, he⟩
    · simp at he
    · simp only [Option.map_some, Prod.mk.injEq, Option.some.injEq] at he
      obtain ⟨rfl, rfl⟩ := he
      exact ⟨age, hm, rfl⟩
  · rintro ⟨age, hm, rfl⟩
    exact ⟨_, hm, rfl⟩

theorem mem_unexpired {ages : List (Str × Option Int)} {x : Int × Str} :
    x ∈ unexpired cfg ages ↔ (x.2, some x.1) ∈ ages ∧ x.1 ≤ cfg.maxCacheFileAge := by
  simp only [unexpired, List.mem_filterMap, Option.bind_eq_some_iff]
  constructor
  · rintro ⟨⟨l, a⟩, hm, age, ha, hx⟩
    split_ifs at hx with hgt
    simp only [Option.some.injEq] at hx ha
    subst hx ha
    exact ⟨hm, by omega⟩
  · rintro ⟨hm, hle⟩
    exact ⟨_, hm, x.1, rfl, by simp [hle]⟩

/-- Ages that are not negative are the keys of the size pass. -/
theorem datedItems_wrapped {ages : List (Str × Option Int)}
    (h : ∀ l age, (l, some age) ∈ ages → 0 ≤ age ∧ age < 2 ^ 64) :
    datedItems cfg (ages.map fun x => (x.1, x.2.map wrappedAge)) =
      (unexpired cfg ages).map fun x => (x.1.toNat, x.2) := by
  rw [datedItems, unexpired, List.filterMap_map, List.map_filterMap]
  refine List.filterMap_congr (fun x hx => ?_)
  obtain ⟨l, _ | age⟩ := x
  · rfl
  · obtain ⟨h0, hlt⟩ := h l age hx
    simp only [Function.comp_apply, Option.map_some, Option.bind_some, wrappedAge_of_nonneg h0 hlt]
    by_cases hle : age ≤ cfg.maxCacheFileAge
    · rw [if_neg (by omega), if_neg (by omega)]
      rfl
    · rw [if_pos (by omega), if_pos (by omega)]
      rfl

theorem trueAges_locations (es : List ((_ : Str) × ι)) (tick : Nat) :
    (trueAges cfg view clock es tick).map Prod.fst = es.map Sigma.fst := by
  induction es generalizing tick with
  | nil => rfl
  | cons e es ih =>
    obtain ⟨location, item⟩ := e
    simp only [trueAges]
    split_ifs with h
    · rw [List.map_cons, List.map_cons, ih]
    · rw [List.map_cons, List.map_cons, ih]

theorem trueAges_unique {cache : OrdMap Str ι} {tick : Nat} {l : Str} {a b : Option Int}
    (ha : (l, a) ∈ trueAges cfg view clock cache.entries tick)
    (hb : (l, b) ∈ trueAges cfg view clock cache.entries tick) : a = b := by
  have hsorted : (cache.entries.map Sigma.fst).Pairwise (· < ·) := List.pairwise_map.mpr cache.sorted
  have hn : ((trueAges cfg view clock cache.entries tick).map Prod.fst).Nodup := by
    rw [trueAges_locations]
    exact hsorted.imp (fun h => h.ne)
  exact congrArg Prod.snd (List.inj_on_of_nodup_map hn ha hb rfl)

theorem exists_of_mem_trueAges {cache : OrdMap Str ι} {tick : Nat} {l : Str} {a : Option Int}
    (h : (l, a) ∈ trueAges cfg view clock cache.entries tick) : ∃ item, cache.find? l = some item := by
  have hl : l ∈ cache.entries.map Sigma.fst :=
    trueAges_locations cfg view clock cache.entries tick ▸ List.mem_map.mpr ⟨_, h, rfl⟩
  obtain ⟨⟨l', item⟩, hm, rfl⟩ := List.mem_map.mp hl
  exact ⟨item, OrdMap.find?_eq_some.mpr hm⟩

theorem exists_operands_of_mem {es : List ((_ : Str) × ι)} {tick : Nat} {l : Str} {age : Int}
    (h : (l, some age) ∈ trueAges cfg view clock es tick) : ∃ e ∈ es, ∃ n,
      age = ((ageOperands cfg view clock n e.2).1.1 : Int) - (ageOperands cfg view clock n e.2).1.2 := by
  induction es generalizing tick with
  | nil => simp [trueAges] at h
  | cons e es ih =>
    obtain ⟨location, item⟩ := e
    simp only [trueAges] at h
    split_ifs at h with hr
    · rcases List.mem_cons.mp h with he | hm
      · simp only [Prod.mk.injEq, Option.some.injEq] at he
        exact ⟨_, List.mem_cons_self, _, he.2⟩
      · obtain ⟨e, he, n, hn⟩ := ih hm
        exact ⟨e, List.mem_cons_of_mem _ he, n, hn⟩
    · rcases List.mem_cons.mp h with he | hm
      · simp at he
      · obtain ⟨e, he, n, hn⟩ := ih hm
        exact ⟨e, List.mem_cons_of_mem _ he, n, hn⟩

theorem now_lt (tick : Nat) (item : ι) : (ageOperands cfg view clock tick item).1.1 < 2 ^ 63 := by
  unfold ageOperands
  split_ifs
  · exact clock.lt _
  · exact clock.lt _

theorem readReceivedAt_lt {item : ι} (hitem : ∀ r, view.receivedAt item = some r → r < 2 ^ 64)
    (tick : Nat) : (readReceivedAt view clock tick item).1 < 2 ^ 64 := by
  unfold readReceivedAt
  cases h : view.receivedAt item with
  | none => exact (clock.lt tick).trans (by norm_num)
  | some r => exact hitem r h

theorem received_lt {item : ι} (hitem : ∀ r, view.receivedAt item = some r → r < 2 ^ 64)
    (tick : Nat) : (ageOperands cfg view clock tick item).1.2 < 2 ^ 64 := by
  unfold ageOperands
  split_ifs
  · exact readReceivedAt_lt view clock hitem _
  · exact readReceivedAt_lt view clock hitem _

theorem trueAges_lt {es : List ((_ : Str) × ι)} {tick : Nat} {l : Str} {age : Int}
    (h : (l, some age) ∈ trueAges cfg view clock es tick) : age < 2 ^ 63 := by
  obtain ⟨e, -, n, rfl⟩ := exists_operands_of_mem cfg view clock h
  have hnow := now_lt cfg view clock n e.2
  omega

theorem neg_lt_trueAges {es : List ((_ : Str) × ι)}
    (hes : ∀ e ∈ es, ∀ r, view.receivedAt e.2 = some r → r < 2 ^ 64) {tick : Nat} {l : Str} {age : Int}
    (h : (l, some age) ∈ trueAges cfg view clock es tick) : -2 ^ 64 < age := by
  obtain ⟨e, he, n, rfl⟩ := exists_operands_of_mem cfg view clock h
  have hreceived := received_lt cfg view clock (hes e he) n
  omega

/-- No difference of a reading of the clock and an `unsigned long` wraps around twice. -/
theorem trueAges_range {cache : OrdMap Str ι}
    (hcache : ∀ l item r, cache.find? l = some item → view.receivedAt item = some r → r < 2 ^ 64)
    {l : Str} {age : Int} (h : (l, some age) ∈ trueAges cfg view clock cache.entries 0) :
    -2 ^ 64 < age ∧ age < 2 ^ 64 := by
  have hes : ∀ e ∈ cache.entries, ∀ r, view.receivedAt e.2 = some r → r < 2 ^ 64 :=
    fun e he r hr => hcache e.1 e.2 r (OrdMap.find?_eq_some.mpr he) hr
  have hlt := trueAges_lt cfg view clock h
  exact ⟨neg_lt_trueAges cfg view clock hes h, by omega⟩

theorem ExactExpiry.nonneg {cache : OrdMap Str ι}
    (hcache : ∀ l item r, cache.find? l = some item → view.receivedAt item = some r → r < 2 ^ 64)
    (hexact : ExactExpiry cfg view clock cache) {l : Str} {age : Int}
    (hage : (l, some age) ∈ trueAges cfg view clock cache.entries 0) : 0 ≤ age := by
  obtain ⟨hkept, -, hperm⟩ := expiryLoop_spec cfg view clock cache.sorted 0 cache
    (List.Pairwise.nil (R := Before)) (by simp)
  rw [List.append_nil] at hperm
  by_contra hneg
  have hwrap : 0 < wrappedAge age :=
    wrappedAge_of_neg (by omega) (trueAges_range cfg view clock hcache hage).1
  have hread : (l, some (wrappedAge age)) ∈ readAges cfg view clock cache.entries 0 :=
    (mem_readAges_iff cfg view clock).mpr ⟨age, hage, rfl⟩
  by_cases hle : wrappedAge age ≤ cfg.maxCacheFileAge
  · -- a small wrapped age is used as the key where it ought to be 0
    have hzero : (0, l) ∈ (expiryLoop cfg view clock cache.entries 0 cache []).2 := by
      refine hexact.aged.symm.subset (List.mem_map.mpr ⟨(age, l), ?_, ?_⟩)
      · exact (mem_unexpired cfg).mpr ⟨hage, by dsimp only; omega⟩
      · exact Prod.ext (by dsimp only; omega) rfl
    have hdated := ((mem_datedItems cfg).mp (hperm.subset hzero)).1
    have heq := readAges_unique cfg view clock cache.sorted hdated hread
    simp only [Option.some.injEq] at heq
    omega
  · -- a large one makes the loop remove the item
    obtain ⟨item, hitem⟩ := exists_of_mem_trueAges cfg view clock hage
    have hfind := (hexact.kept l item).mpr ⟨hitem, fun a ha => by
      have heq := trueAges_unique cfg view clock ha hage
      simp only [Option.some.injEq] at heq
      omega⟩
    exact hle (((hkept l item).mp hfind).2 _ hread)

theorem exactExpiry_of_nonneg {cache : OrdMap Str ι}
    (hcache : ∀ l item r, cache.find? l = some item → view.receivedAt item = some r → r < 2 ^ 64)
    (hnonneg : ∀ l age, (l, some age) ∈ trueAges cfg view clock cache.entries 0 → 0 ≤ age) :
    ExactExpiry cfg view clock cache := by
  obtain ⟨hkept, -, hperm⟩ := expiryLoop_spec cfg view clock cache.sorted 0 cache
    (List.Pairwise.nil (R := Before)) (by simp)
  rw [List.append_nil] at hperm
  have hwrap : ∀ l age, (l, some age) ∈ trueAges cfg view clock cache.entries 0 →
      wrappedAge age = age.toNat := fun l age h =>
    wrappedAge_of_nonneg (hnonneg l age h) (trueAges_range cfg view clock hcache h).2
  refine ⟨fun l item => ?_, ?_⟩
  · rw [hkept]
    refine and_congr_right (fun _ => ⟨fun h age hage => ?_, fun h u hu => ?_⟩)
    · have hle := h _ ((mem_readAges_iff cfg view clock).mpr ⟨age, hage, rfl⟩)
      rw [hwrap l age hage] at hle
      omega
    · obtain ⟨age, hage, rfl⟩ := (mem_readAges_iff cfg view clock).mp hu
      have hle := h age hage
      rw [hwrap l age hage]
      omega
  · have hdated := datedItems_wrapped cfg (fun l age h =>
      ⟨hnonneg l age h, (trueAges_range cfg view clock hcache h).2⟩)
    rw [← readAges_eq_map] at hdated
    rwa [hdated] at hperm

/-- The expiry loop goes by the integer ages exactly when no item it reads is
later than the clock. -/
theorem exactExpiry_iff {cache : OrdMap Str ι}
    (hcache : ∀ l item r, cache.find? l = some item → view.receivedAt item = some r → r < 2 ^ 64) :
    ExactExpiry cfg view clock cache ↔
      ∀ l age, (l, some age) ∈ trueAges cfg view clock cache.entries 0 → 0 ≤ age :=
  ⟨fun h _ _ hage => ExactExpiry.nonneg cfg view clock hcache h hage,
    exactExpiry_of_nonneg cfg view clock hcache⟩

theorem exists_entry_cons {l location : Str} {item : ι} {es : List ((_ : Str) × ι)} {P : ι → Prop} :
    (∃ it, ⟨l, it⟩ ∈ (⟨location, item⟩ : (_ : Str) × ι) :: es ∧ P it) ↔
      (l = location ∧ P item) ∨ ∃ it, ⟨l, it⟩ ∈ es ∧ P it := by
  constructor
  · rintro ⟨it, hm, hp⟩
    rcases List.mem_cons.mp hm with he | hm
    · obtain ⟨rfl, he⟩ := Sigma.mk.inj he
      cases he
      exact .inl ⟨rfl, hp⟩
    · exact .inr ⟨it, hm, hp⟩
  · rintro (⟨rfl, hp⟩ | ⟨it, hm, hp⟩)
    · exact ⟨item, List.mem_cons_self, hp⟩
    · exact ⟨it, List.mem_cons_of_mem _ hm, hp⟩

theorem mem_trueAges_stopped {now : Nat} (hnow : ∀ n, clock.reading n = now)
    {es : List ((_ : Str) × ι)} {tick : Nat} {l : Str} {age : Int} :
    (l, some age) ∈ trueAges cfg view clock es tick ↔ ∃ item, ⟨l, item⟩ ∈ es ∧
      (view.receivedAt item).getD now ≠ 0 ∧ age = (now : Int) - (view.receivedAt item).getD now := by
  have hread : ∀ tick item, (readReceivedAt view clock tick item).1 = (view.receivedAt item).getD now := by
    intro tick item
    unfold readReceivedAt
    cases view.receivedAt item with
    | none => exact hnow tick
    | some r => rfl
  have hops : ∀ tick item, (ageOperands cfg view clock tick item).1 =
      (now, (view.receivedAt item).getD now) := by
    intro tick item
    unfold ageOperands
    split_ifs
    · exact Prod.ext (hnow _) (hread _ item)
    · exact Prod.ext (hnow _) (hread _ item)
  induction es generalizing tick with
  | nil => simp [trueAges]
  | cons e es ih =>
    obtain ⟨location, item⟩ := e
    simp only [trueAges, hread, hops]
    rw [exists_entry_cons]
    split_ifs with hr
    · rw [List.mem_cons]
      exact or_congr (by simp [hr]) ih
    · rw [List.mem_cons]
      exact or_congr (by simp [hr]) ih

end CacheManagement

open CacheManagement

variable {D : Type}

/-- Expiry goes by the integer ages unless an item is dated later than the
clock that is read for it. -/
theorem expiry_exact_iff (cfg : CacheManagement) (objects : Objects D) (clock : Clock) {cache : Cache}
    (hcache : ∀ l item r, cache.find? l = some item →
      (itemView objects).receivedAt item = some r → r < 2 ^ 64) :
    (ExactExpiry cfg (itemView objects) clock cache ↔
      ∀ l age, (l, some age) ∈ trueAges cfg (itemView objects) clock cache.entries 0 → 0 ≤ age) ∧
    ∀ now, (∀ n, clock.reading n = now) → (ExactExpiry cfg (itemView objects) clock cache ↔
      ∀ l item r, cache.find? l = some item → (itemView objects).receivedAt item = some r → r ≤ now) := by
  have hiff := exactExpiry_iff cfg (itemView objects) clock hcache
  refine ⟨hiff, fun now hnow => ?_⟩
  rw [hiff]
  constructor
  · intro h l item r hfind hr
    by_contra hlater
    have hage := h l ((now : Int) - r) ((mem_trueAges_stopped cfg (itemView objects) clock hnow).mpr
      ⟨item, OrdMap.find?_eq_some.mp hfind, by rw [hr, Option.getD_some]; omega,
        by rw [hr, Option.getD_some]⟩)
    omega
  · intro h l age hage
    obtain ⟨item, hm, -, rfl⟩ := (mem_trueAges_stopped cfg (itemView objects) clock hnow).mp hage
    cases hr : (itemView objects).receivedAt item with
    | none => simp
    | some r =>
      have hle := h l item r (OrdMap.find?_eq_some.mpr hm) hr
      rw [Option.getD_some]
      omega

section Example

/-- A file received at the given time, the only item in the cache. -/
def receivedFile (receivedAt : Nat) : CacheItem :=
  .file "a".toList receivedAt
    { contentLocation := "a".toList, toi := 1, contentType := [], buffer := ['x'], receivedAt := receivedAt,
      complete := true }

def noObjects : Objects Int where
  segment _ := { contentLocation := [], seq := 0, extinf := 0 }
  text _ := []

theorem find?_receivedFile {receivedAt r : Nat} {l : Str} {item : CacheItem}
    (hfind : (Cache.addItem .empty (receivedFile receivedAt)).find? l = some item)
    (hr : (itemView noObjects).receivedAt item = some r) : r = receivedAt := by
  have hm : (⟨l, item⟩ : (_ : Str) × CacheItem) ∈ [⟨"a".toList, receivedFile receivedAt⟩] :=
    OrdMap.find?_eq_some.mp hfind
  cases List.mem_singleton.mp hm
  exact (Option.some.inj hr).symm

/-- The clock reads 1000, and the file received at 1001 is removed for its age. -/
theorem future_item_expired :
    ¬ ExactExpiry (ofSettings none none true) (itemView noObjects) stoppedClock
      (Cache.addItem .empty (receivedFile 1001)) := by
  intro h
  have hages : trueAges (ofSettings none none true) (itemView noObjects) stoppedClock
      (Cache.addItem .empty (receivedFile 1001)).entries 0 = [("a".toList, some (-1))] := by decide
  have hkept := (h.kept "a".toList (receivedFile 1001)).mpr ⟨by decide, fun age hage => by
    rw [hages] at hage
    cases List.mem_singleton.mp hage
    decide⟩
  exact absurd hkept (by decide)

theorem recent_item_kept :
    (ofSettings none none true).maxCacheFileAge = 30 ∧
    ((ExactExpiry (ofSettings none none true) (itemView noObjects) stoppedClock
        (Cache.addItem .empty (receivedFile 970)) ↔
      ∀ l age, (l, some age) ∈ trueAges (ofSettings none none true) (itemView noObjects) stoppedClock
        (Cache.addItem .empty (receivedFile 970)).entries 0 → 0 ≤ age) ∧
    ∀ now, (∀ n, stoppedClock.reading n = now) →
      (ExactExpiry (ofSettings none none true) (itemView noObjects) stoppedClock
        (Cache.addItem .empty (receivedFile 970)) ↔
      ∀ l item r, (Cache.addItem .empty (receivedFile 970)).find? l = some item →
        (itemView noObjects).receivedAt item = some r → r ≤ now)) :=
  ⟨rfl, expiry_exact_iff _ noObjects stoppedClock (fun l item r hfind hr => by
    rw [find?_receivedFile hfind hr]
    norm_num)⟩

end Example

end MbmsMiddleware
