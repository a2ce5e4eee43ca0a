import MbmsMiddleware.Housekeeping
import MbmsMiddleware.Segment

/-! When generated entries survive a housekeeping pass. They answer
`received_at()` with the time of the call, so their age is the difference of
two clock readings taken in one expression. -/

namespace MbmsMiddleware

namespace CacheManagement

variable {ι : Type} (cfg : CacheManagement) (view : ItemView ι) (clock : Clock)

/-- How often the clock has been read after an entry. -/
def tickAfter (tick : Nat) (item : ι) : Nat :=
  let (received, tick) := readReceivedAt view clock tick item
  if received ≠ 0 then (readAge cfg view clock tick item).2 else tick

/-- How often the clock has been read when the first loop comes to `location`. -/
def tickAt : List ((_ : Str) × ι) → Nat → Str → Nat
  | [], tick, _ => tick
  | ⟨l, item⟩ :: rest, tick, location =>
    if l = location then tick else tickAt rest (tickAfter cfg view clock tick item) location

/-- The clock stands still between the two readings, or moves within the age
limit when the later one is subtracted from. -/
def AgeInLimit (tick : Nat) : Prop :=
  if cfg.timeFirst then clock.reading tick = clock.reading (tick + 1)
  else clock.reading (tick + 1) ≤ clock.reading tick + cfg.maxCacheFileAge

/-- The age of a generated entry within the limit. -/
def generatedAge (tick : Nat) : Nat :=
  if cfg.timeFirst then 0 else clock.reading (tick + 1) - clock.reading tick

theorem mem_readAges {es : List ((_ : Str) × ι)} (hs : es.Pairwise (fun a b => a.1 < b.1))
    {tick : Nat} {l : Str} {item : ι} (hm : (⟨l, item⟩ : (_ : Str) × ι) ∈ es) (age : Nat) :
    (l, some age) ∈ readAges cfg view clock es tick ↔
      (readReceivedAt view clock (tickAt cfg view clock es tick l) item).1 ≠ 0 ∧
      age = (readAge cfg view clock
        (readReceivedAt view clock (tickAt cfg view clock es tick l) item).2 item).1 := by
  induction es generalizing tick with
  | nil => simp at hm
  | cons e es ih =>
    obtain ⟨location, it⟩ := e
    obtain ⟨hlt, hs⟩ := List.pairwise_cons.mp hs
    rcases List.mem_cons.mp hm with he | hm
    · obtain ⟨rfl, he⟩ := Sigma.mk.inj he
      cases he
      have hno : ∀ t c, (l, c) ∉ readAges cfg view clock es t := by
        intro t c hc
        obtain ⟨e, he, hx⟩ := mem_readAges_location cfg view clock hc
        exact absurd (hlt e he) (hx ▸ lt_irrefl _)
      simp only [readAges, tickAt, if_true]
      split_ifs with hr <;> simp [hno, hr]
    · have hne : location ≠ l := (hlt _ hm).ne
      have hh := @ih hs (tickAfter cfg view clock tick it) hm
      simp only [readAges, tickAt, hne, if_false]
      rw [← hh]
      simp only [tickAfter]
      split_ifs with hr <;> simp [Ne.symm hne]

/-- The age read for a generated entry passes the expiry test exactly when
the two readings allow it. -/
theorem readAge_generated {item : ι} (hg : view.receivedAt item = none) (tick : Nat) :
    ((readAge cfg view clock tick item).1 ≤ cfg.maxCacheFileAge ↔ AgeInLimit cfg clock tick) ∧
      (AgeInLimit cfg clock tick →
        (readAge cfg view clock tick item).1 = generatedAge cfg clock tick) := by
  have hle := clock.monotone (Nat.le_succ tick)
  have hlt := clock.lt (tick + 1)
  have hmax := cfg.maxCacheFileAge_lt
  simp only [Nat.succ_eq_add_one] at hle
  generalize hx : clock.reading tick = x at hle
  generalize hy : clock.reading (tick + 1) = y at hle hlt
  by_cases ht : cfg.timeFirst = true
  · -- the clock can only move ahead of the subtracted value
    have hage : (readAge cfg view clock tick item).1 = (((x : Int) - y) % 2 ^ 64).toNat := by
      simp [readAge, readReceivedAt, hg, ht, hx, hy]
    simp only [AgeInLimit, generatedAge, ht, if_true, hage, hx, hy]
    rcases hle.lt_or_eq with h | rfl
    · have hmod : ((x : Int) - y) % 2 ^ 64 = 2 ^ 64 + x - y := by omega
      rw [hmod]
      omega
    · simp
  · have hage : (readAge cfg view clock tick item).1 = (((y : Int) - x) % 2 ^ 64).toNat := by
      simp [readAge, readReceivedAt, hg, ht, hx, hy]
    have hmod : ((y : Int) - x) % 2 ^ 64 = y - x := by omega
    simp only [AgeInLimit, generatedAge, ht, if_false, hage, hx, hy, hmod, Bool.false_eq_true]
    omega

end CacheManagement

open CacheManagement

variable {D : Type}

/-- A generated entry is left alone by both loops: it reads the time 0, or its
two further readings are close enough and the running total reaches it within
the limit. -/
def GeneratedEntryKept (cfg : CacheManagement) (objects : Objects D) (clock : Clock) (cache : Cache)
    (l : Str) : Prop :=
  let tick := tickAt cfg (itemView objects) clock cache.entries 0 l
  let dated := datedItems cfg (readAges cfg (itemView objects) clock cache.entries 0)
  clock.reading tick = 0 ∨ AgeInLimit cfg clock (tick + 1) ∧
    runningTotal (itemView objects) cache dated (generatedAge cfg clock (tick + 1), l) ≤
      cfg.maxCacheSize

/-- Generated entries survive a pass exactly when each of them is left alone. -/
theorem generated_survive_iff (cfg : CacheManagement) (objects : Objects D) (clock : Clock)
    (cache : Cache) :
    (∀ l item, cache.find? l = some item → item.generated = true →
      (checkFileExpiryAndCacheSize cfg (itemView objects) clock cache).find? l = some item) ↔
    ∀ l item, cache.find? l = some item → item.generated = true →
      GeneratedEntryKept cfg objects clock cache l := by
  refine forall_congr' fun l => forall_congr' fun item => forall_congr' fun hfind =>
    forall_congr' fun hg => ?_
  have hnone : (itemView objects).receivedAt item = none := itemView_receivedAt_eq_none.mpr hg
  rw [find?_checkFileExpiryAndCacheSize, and_iff_right hfind]
  simp only [mem_readAges cfg (itemView objects) clock cache.sorted (OrdMap.find?_eq_some.mp hfind),
    GeneratedEntryKept]
  generalize tickAt cfg (itemView objects) clock cache.entries 0 l = tick
  have hread : readReceivedAt (itemView objects) clock tick item =
      (clock.reading tick, tick + 1) := by
    simp [readReceivedAt, hnone]
  obtain ⟨hiff, hage⟩ := readAge_generated cfg (itemView objects) clock hnone (tick + 1)
  rw [hread]
  constructor
  · intro h
    by_cases hz : clock.reading tick = 0
    · exact .inl hz
    · obtain ⟨h1, h2⟩ := h _ ⟨hz, rfl⟩
      exact .inr ⟨hiff.mp h1, hage (hiff.mp h1) ▸ h2⟩
  · rintro (hz | ⟨h1, h2⟩) age ⟨hnz, rfl⟩
    · exact absurd hz hnz
    · exact ⟨hiff.mpr h1, (hage h1).symm ▸ h2⟩

/-- A clock that reads the next second from its third reading on. -/
def secondBoundary : Clock where
  reading n := if n < 2 then 1000 else 1001
  monotone m n h := by
    show (if m < 2 then 1000 else 1001) ≤ if n < 2 then 1000 else 1001
    split_ifs <;> omega
  lt n := by split_ifs <;> omega

def stoppedClock : Clock := ⟨fun _ => 1000, fun _ _ _ => le_rfl, fun _ => by norm_num⟩

def masterManifestEntry : CacheItem := .playlist "svc/manifest.m3u8".toList 0 (.service 0)

/-- With the default settings the pass removes the manifest when a second
begins between the two readings, and with a size limit of 0 it removes it
whichever operand is evaluated first. -/
theorem generated_entry_removed :
    let objects : Objects Int := ⟨fun _ => { contentLocation := [], seq := 0, extinf := 0 }, fun _ => ['x']⟩
    let cache := Cache.addItem .empty masterManifestEntry
    cache.find? "svc/manifest.m3u8".toList = some masterManifestEntry ∧
    (checkFileExpiryAndCacheSize (ofSettings none none true) (itemView objects) secondBoundary
      cache).find? "svc/manifest.m3u8".toList = none ∧
    ∀ timeFirst, (checkFileExpiryAndCacheSize (ofSettings (some 0) none timeFirst)
      (itemView objects) stoppedClock cache).find? "svc/manifest.m3u8".toList = none := by
  decide

end MbmsMiddleware
