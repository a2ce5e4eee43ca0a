import MbmsMiddleware.Cache
import MbmsMiddleware.Runs
import Mathlib.Tactic.NormNum

/-! What one housekeeping pass removes. An entry is dropped by the first loop
when the age read for it is above the limit, and by the second loop when the
sizes of the entries before it in (age, location) order, its own included, add
up to more than the limit. -/

namespace MbmsMiddleware

namespace CacheManagement

variable {ι : Type} (cfg : CacheManagement) (view : ItemView ι) (clock : Clock)

/-- The age the first loop reads for each entry, `none` where `received_at()` is 0. -/
def readAges : List ((_ : Str) × ι) → Nat → List (Str × Option Nat)
  | [], _ => []
  | ⟨location, item⟩ :: rest, tick =>
    let (received, tick) := readReceivedAt view clock tick item
    if received ≠ 0 then
      let (age, tick) := readAge cfg view clock tick item
      (location, some age) :: readAges rest tick
    else (location, none) :: readAges rest tick

/-- The unexpired entries with an age, in the order of the map. -/
def datedItems (ages : List (Str × Option Nat)) : List (Nat × Str) :=
  ages.filterMap fun x => x.2.bind fun age =>
    if age > cfg.maxCacheFileAge then none else some (age, x.1)

/-- The order in which the second loop visits the items. -/
def Before (x y : Nat × Str) : Prop := x.1 < y.1 ∨ x.1 = y.1 ∧ x.2 < y.2

instance : DecidableRel Before := fun x y => by unfold Before; infer_instance

def lengthAt (cache : OrdMap Str ι) (location : Str) : Nat :=
  (cache.find? location).elim 0 view.contentLength

/-- The total the second loop has reached when it comes to `x`. -/
def runningTotal (cache : OrdMap Str ι) (items : List (Nat × Str)) (x : Nat × Str) : Nat :=
  ((items.filter fun y => y = x ∨ Before y x).map fun y => lengthAt view cache y.2).sum % 2 ^ 32

theorem Before.trans {x y z : Nat × Str} (h : Before x y) (h' : Before y z) : Before x z := by
  rcases h with h | ⟨h, hl⟩ <;> rcases h' with h' | ⟨h', hl'⟩
  · exact .inl (h.trans h')
  · exact .inl (h' ▸ h)
  · exact .inl (h ▸ h')
  · exact .inr ⟨h.trans h', hl.trans hl'⟩

theorem Before.irrefl (x : Nat × Str) : ¬ Before x x := by
  rintro (h | ⟨_, h⟩)
  · exact lt_irrefl _ h
  · exact lt_irrefl _ h

theorem insertByAge_perm (age : Nat) (location : Str) (items : List (Nat × Str)) :
    (insertByAge age location items).Perm ((age, location) :: items) := by
  have hh : (items.takeWhile (·.1 ≤ age) ++ (age, location) :: items.dropWhile (·.1 ≤ age)).Perm
      ((age, location) :: (items.takeWhile (·.1 ≤ age) ++ items.dropWhile (·.1 ≤ age))) :=
    List.perm_middle
  rwa [List.takeWhile_append_dropWhile] at hh

theorem lt_of_mem_dropWhile {items : List (Nat × Str)} (hs : items.Pairwise Before) {age : Nat}
    {y : Nat × Str} (hy : y ∈ items.dropWhile (·.1 ≤ age)) : age < y.1 := by
  induction items with
  | nil => simp at hy
  | cons x items ih =>
    obtain ⟨hx, hs⟩ := List.pairwise_cons.mp hs
    by_cases hle : x.1 ≤ age
    · exact ih hs (by simpa [hle] using hy)
    · have hy' : y ∈ x :: items := by simpa [hle] using hy
      rcases List.mem_cons.mp hy' with rfl | hm
      · omega
      · rcases hx y hm with h | ⟨h, _⟩ <;> omega

theorem insertByAge_sorted {age : Nat} {location : Str} {items : List (Nat × Str)}
    (hs : items.Pairwise Before) (hl : ∀ y ∈ items, y.2 < location) :
    (insertByAge age location items).Pairwise Before := by
  refine List.pairwise_append.mpr ⟨hs.sublist (List.takeWhile_sublist _),
    List.pairwise_cons.mpr ⟨?_, hs.sublist (List.dropWhile_sublist _)⟩, ?_⟩
  · intro y hy
    exact .inl (lt_of_mem_dropWhile hs hy)
  · intro x hx y hy
    have hxa : x.1 ≤ age := by simpa using List.mem_takeWhile_imp hx
    rcases List.mem_cons.mp hy with rfl | hy
    · rcases hxa.lt_or_eq with h | h
      · exact .inl h
      · exact .inr ⟨h, hl x ((List.takeWhile_sublist _).subset hx)⟩
    · exact .inl (hxa.trans_lt (lt_of_mem_dropWhile hs hy))

theorem mem_readAges_location {es : List ((_ : Str) × ι)} {tick : Nat} {x : Str × Option Nat}
    (h : x ∈ readAges cfg view clock es tick) : ∃ e ∈ es, e.1 = x.1 := by
  induction es generalizing tick with
  | nil => simp [readAges] at h
  | cons e es ih =>
    obtain ⟨location, item⟩ := e
    simp only [readAges] at h
    split_ifs at h with hr
    all_goals
      rcases List.mem_cons.mp h with rfl | h
      · exact ⟨_, List.mem_cons_self, rfl⟩
      · obtain ⟨e, he, hx⟩ := ih h
        exact ⟨e, List.mem_cons_of_mem _ he, hx⟩

theorem mem_datedItems {ages : List (Str × Option Nat)} {x : Nat × Str} :
    x ∈ datedItems cfg ages ↔ (x.2, some x.1) ∈ ages ∧ x.1 ≤ cfg.maxCacheFileAge := by
  simp only [datedItems, List.mem_filterMap, Option.bind_eq_some_iff]
  constructor
  · rintro ⟨⟨l, a⟩, hm, age, ha, hx⟩
    split_ifs at hx with hgt
    simp only [Option.some.injEq] at hx ha
    subst hx ha
    exact ⟨hm, by omega⟩
  · rintro ⟨hm, hle⟩
    exact ⟨_, hm, x.1, rfl, by simp [hle]⟩

/-- Each location has one age. -/
theorem readAges_unique {es : List ((_ : Str) × ι)} (hs : es.Pairwise (fun a b => a.1 < b.1))
    {tick : Nat} {l : Str} {a b : Option Nat} (ha : (l, a) ∈ readAges cfg view clock es tick)
    (hb : (l, b) ∈ readAges cfg view clock es tick) : a = b := by
  induction es generalizing tick with
  | nil => simp [readAges] at ha
  | cons e es ih =>
    obtain ⟨location, item⟩ := e
    obtain ⟨hlt, hs⟩ := List.pairwise_cons.mp hs
    have hno : ∀ t c, (location, c) ∉ readAges cfg view clock es t := by
      intro t c hm
      obtain ⟨e, he, hx⟩ := mem_readAges_location cfg view clock hm
      exact absurd (hlt e he) (hx ▸ lt_irrefl _)
    simp only [readAges] at ha hb
    split_ifs at ha hb with hr
    all_goals
      rcases List.mem_cons.mp ha with ha | ha <;> rcases List.mem_cons.mp hb with hb | hb
      · simp_all
      · exact absurd ((Prod.mk.inj ha).1 ▸ hb) (hno _ _)
      · exact absurd ((Prod.mk.inj hb).1 ▸ ha) (hno _ _)
      · exact ih hs ha hb

/-- What the first loop leaves: the entries that are not expired, and the
dated ones among them in visiting order. -/
theorem expiryLoop_spec {es : List ((_ : Str) × ι)} (hs : es.Pairwise (fun a b => a.1 < b.1))
    (tick : Nat) (cache : OrdMap Str ι) {items : List (Nat × Str)} (hi : items.Pairwise Before)
    (hl : ∀ y ∈ items, ∀ e ∈ es, y.2 < e.1) :
    let result := expiryLoop cfg view clock es tick cache items
    let ages := readAges cfg view clock es tick
    (∀ l item, result.1.find? l = some item ↔ cache.find? l = some item ∧
      ∀ age, (l, some age) ∈ ages → age ≤ cfg.maxCacheFileAge) ∧
    result.2.Pairwise Before ∧ result.2.Perm (datedItems cfg ages ++ items) := by
  induction es generalizing tick cache items with
  | nil => simp [expiryLoop, readAges, datedItems, hi]
  | cons e es ih =>
    obtain ⟨location, item⟩ := e
    obtain ⟨hlt, hs⟩ := List.pairwise_cons.mp hs
    have hl' : ∀ y ∈ items, ∀ e ∈ es, y.2 < e.1 := fun y hy e he =>
      hl y hy e (List.mem_cons_of_mem _ he)
    simp only [expiryLoop, readAges]
    generalize hrec : readReceivedAt view clock tick item = received
    split_ifs with hr hage
    · generalize readAge cfg view clock received.2 item = age at hage ⊢
      obtain ⟨h1, h2, h3⟩ := ih hs age.2 (cache.erase location) hi hl'
      refine ⟨fun l it => ?_, h2, by simpa [datedItems, hage] using h3⟩
      rw [h1, OrdMap.find?_erase]
      by_cases he : l = location
      · subst he
        simp only [if_true, reduceCtorEq, false_and, List.mem_cons, Prod.mk.injEq, true_and,
          Option.some.injEq, false_iff, not_and, not_forall]
        exact fun _ => ⟨age.1, .inl rfl, by omega⟩
      · simp [he]
    · generalize readAge cfg view clock received.2 item = age at hage ⊢
      have hmod : age.1 % 2 ^ 32 = age.1 := by
        have := cfg.maxCacheFileAge_lt
        exact Nat.mod_eq_of_lt (by omega)
      have hsort : (insertByAge age.1 location items).Pairwise Before :=
        insertByAge_sorted hi (fun y hy => hl y hy ⟨location, item⟩ List.mem_cons_self)
      have hbefore : ∀ y ∈ insertByAge age.1 location items, ∀ e ∈ es, y.2 < e.1 := by
        intro y hy e he
        rcases List.mem_cons.mp ((insertByAge_perm _ _ _).subset hy) with rfl | hy
        · exact hlt e he
        · exact hl' y hy e he
      rw [hmod]
      obtain ⟨h1, h2, h3⟩ := ih hs age.2 cache hsort hbefore
      refine ⟨fun l it => ?_, h2, ?_⟩
      · rw [h1]
        refine and_congr_right (fun _ => ⟨fun h a ha => ?_, fun h a ha =>
          h a (List.mem_cons_of_mem _ ha)⟩)
        rcases List.mem_cons.mp ha with ha | ha
        · simp only [Prod.mk.injEq, Option.some.injEq] at ha
          omega
        · exact h a ha
      · have hd : datedItems cfg ((location, some age.1) :: readAges cfg view clock es age.2) =
            (age.1, location) :: datedItems cfg (readAges cfg view clock es age.2) := by
          simp [datedItems, hage]
        rw [hd]
        exact h3.trans (((insertByAge_perm _ _ _).append_left _).trans List.perm_middle)
    · obtain ⟨h1, h2, h3⟩ := ih hs received.2 cache hi hl'
      exact ⟨fun l it => by simp [h1], h2, by simpa [datedItems] using h3⟩

/-- The second loop deletes the items at which the total is above the limit. -/
theorem find?_sizeLoop {items : List (Nat × Str)} (hn : (items.map (·.2)).Nodup) (total : Nat)
    (cache : OrdMap Str ι) (l : Str) (item : ι) :
    (sizeLoop cfg view items total cache).find? l = some item ↔ cache.find? l = some item ∧
      ∀ pre x post, items = pre ++ x :: post → x.2 = l →
        (total + ((pre ++ [x]).map fun y => lengthAt view cache y.2).sum) % 2 ^ 32 ≤
          cfg.maxCacheSize := by
  induction items generalizing total cache with
  | nil => simp [sizeLoop]
  | cons y items ih =>
    obtain ⟨age, location⟩ := y
    obtain ⟨hnot, hn⟩ := List.nodup_cons.mp hn
    have hnot' : ∀ y ∈ items, y.2 ≠ location := fun y hy he =>
      hnot (List.mem_map.mpr ⟨y, hy, he⟩)
    generalize hlen : lengthAt view cache location = length
    -- the sizes of the later items do not change when this one is deleted
    have hlens : ∀ cache' : OrdMap Str ι, (∀ l, l ≠ location → cache'.find? l = cache.find? l) →
        ∀ pre x post, items = pre ++ x :: post →
        (pre ++ [x]).map (fun y => lengthAt view cache' y.2) =
          (pre ++ [x]).map (fun y => lengthAt view cache y.2) := by
      intro cache' hc pre x post he
      refine List.map_congr_left (fun y hy => ?_)
      have hm : y ∈ items := by
        rw [he]
        rcases List.mem_append.mp hy with hy | hy
        · exact List.mem_append_left _ hy
        · simp [List.mem_singleton.mp hy]
      simp only [lengthAt, hc y.2 (hnot' y hm)]
    have hsum : ∀ pre x, (total + ((((age, location) :: pre) ++ [x]).map
        fun y => lengthAt view cache y.2).sum) % 2 ^ 32 =
        ((total + length) % 2 ^ 32 + ((pre ++ [x]).map fun y => lengthAt view cache y.2).sum) %
          2 ^ 32 := by
      intro pre x
      simp only [List.cons_append, List.map_cons, List.sum_cons, hlen]
      omega
    rw [Runs.forall_splits_cons (P := fun pre (x : Nat × Str) => x.2 = l →
      (total + ((pre ++ [x]).map fun y => lengthAt view cache y.2).sum) % 2 ^ 32 ≤ cfg.maxCacheSize)]
    simp only [sizeLoop]
    rw [show (cache.find? location).elim 0 view.contentLength = length from hlen]
    have h0 : ([(age, location)].map fun y => lengthAt view cache y.2).sum = length := by simp [hlen]
    split_ifs with hgt
    · rw [ih hn, OrdMap.find?_erase]
      have hc := hlens (cache.erase location) (fun l hl => OrdMap.find?_erase_of_ne _ hl)
      by_cases hl : l = location
      · subst hl
        simp only [if_true, reduceCtorEq, false_and, List.nil_append, h0, true_implies, false_iff,
          not_and]
        intro _ hle
        omega
      · simp only [hl, if_false, hsum, Ne.symm hl, false_implies, true_and]
        refine and_congr_right (fun _ => forall_congr' fun pre => forall_congr' fun x =>
          forall_congr' fun post => forall_congr' fun he => ?_)
        rw [hc pre x post he]
    · rw [ih hn]
      simp only [hsum, List.nil_append, h0]
      have hle : (total + length) % 2 ^ 32 ≤ cfg.maxCacheSize := by omega
      simp only [hle, implies_true, true_and]

/-- In the order of the second loop, the items up to `x` are `x` and those before it. -/
theorem filter_before {pre post : List (Nat × Str)} {x : Nat × Str}
    (hs : (pre ++ x :: post).Pairwise Before) :
    ((pre ++ x :: post).filter fun y => y = x ∨ Before y x) = pre ++ [x] := by
  obtain ⟨-, hx, hpre⟩ := List.pairwise_append.mp hs
  have h1 : pre.filter (fun y => y = x ∨ Before y x) = pre :=
    List.filter_eq_self.mpr (fun y hy => by simpa using .inr (hpre y hy x List.mem_cons_self))
  have h2 : post.filter (fun y => y = x ∨ Before y x) = [] := by
    refine List.filter_eq_nil_iff.mpr (fun y hy => ?_)
    have hxy := (List.pairwise_cons.mp hx).1 y hy
    simp only [decide_eq_true_eq, not_or]
    exact ⟨fun he => Before.irrefl x (he ▸ hxy), fun h => Before.irrefl x (hxy.trans h)⟩
  rw [List.filter_append, List.filter_cons, h1, h2]
  simp

/-- One pass keeps exactly the entries whose age is within the limit and at
which the running total is within the limit. -/
theorem find?_checkFileExpiryAndCacheSize (cache : OrdMap Str ι) (l : Str) (item : ι) :
    (checkFileExpiryAndCacheSize cfg view clock cache).find? l = some item ↔
      cache.find? l = some item ∧ ∀ age, (l, some age) ∈ readAges cfg view clock cache.entries 0 →
        age ≤ cfg.maxCacheFileAge ∧ runningTotal view cache
          (datedItems cfg (readAges cfg view clock cache.entries 0)) (age, l) ≤ cfg.maxCacheSize := by
  let ages := readAges cfg view clock cache.entries 0
  obtain ⟨h1, h2, h3⟩ := expiryLoop_spec cfg view clock cache.sorted 0 cache
    (List.Pairwise.nil (R := Before)) (by simp)
  rw [List.append_nil] at h3
  simp only [checkFileExpiryAndCacheSize]
  generalize expiryLoop cfg view clock cache.entries 0 cache [] = result at h1 h2 h3
  obtain ⟨kept, items⟩ := result
  dsimp only at h1 h2 h3 ⊢
  have hmem : ∀ x, x ∈ items ↔ (x.2, some x.1) ∈ ages ∧ x.1 ≤ cfg.maxCacheFileAge := fun x =>
    h3.mem_iff.trans (mem_datedItems cfg)
  have hn : (items.map (·.2)).Nodup := by
    have hitems : items.Nodup := by
      refine h2.imp (fun {a b} h => ?_)
      rintro rfl
      exact Before.irrefl a h
    refine List.Nodup.map_on ?_ hitems
    intro x hx y hy he
    have hxy := readAges_unique cfg view clock cache.sorted ((hmem x).mp hx).1
      (he ▸ ((hmem y).mp hy).1)
    exact Prod.ext (Option.some.inj hxy) he
  have hlen : ∀ x ∈ items, lengthAt view kept x.2 = lengthAt view cache x.2 := by
    intro x hx
    obtain ⟨hx, hle⟩ := (hmem x).mp hx
    have hk : ∀ it, kept.find? x.2 = some it ↔ cache.find? x.2 = some it := by
      intro it
      rw [h1]
      refine and_iff_left (fun age hage => ?_)
      have := Option.some.inj (readAges_unique cfg view clock cache.sorted hage hx)
      omega
    simp only [lengthAt, Option.ext hk]
  have htotal : ∀ pre x post, items = pre ++ x :: post →
      (0 + ((pre ++ [x]).map fun y => lengthAt view kept y.2).sum) % 2 ^ 32 =
        runningTotal view cache (datedItems cfg ages) x := by
    intro pre x post he
    have hmap : (pre ++ [x]).map (fun y => lengthAt view kept y.2) =
        (pre ++ [x]).map fun y => lengthAt view cache y.2 := by
      refine List.map_congr_left (fun y hy => hlen y ?_)
      rw [he]
      rcases List.mem_append.mp hy with hy | hy
      · exact List.mem_append_left _ hy
      · simp [List.mem_singleton.mp hy]
    have hp := (h3.filter fun y => y = x ∨ Before y x).map fun y => lengthAt view cache y.2
    rw [he, filter_before (he ▸ h2)] at hp
    rw [hmap, Nat.zero_add, runningTotal, hp.sum_eq]
  rw [find?_sizeLoop cfg view hn, h1, and_assoc]
  refine and_congr_right (fun _ => ⟨?_, ?_⟩)
  · rintro ⟨hage, hsize⟩ age ha
    obtain ⟨pre, post, he⟩ := List.append_of_mem ((hmem (age, l)).mpr ⟨ha, hage age ha⟩)
    refine ⟨hage age ha, ?_⟩
    rw [← htotal pre _ post he]
    exact hsize pre _ post he rfl
  · intro h
    refine ⟨fun age ha => (h age ha).1, ?_⟩
    rintro pre x post he rfl
    rw [htotal pre x post he]
    have hx : x ∈ items := by rw [he]; simp
    exact (h x.1 ((hmem x).mp hx).1).2

end CacheManagement

end MbmsMiddleware
