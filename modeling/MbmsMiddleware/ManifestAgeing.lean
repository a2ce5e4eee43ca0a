import MbmsMiddleware.GeneratedEntries
import MbmsMiddleware.ServiceAnnouncement
import MbmsMiddleware.StreamCreation
import Mathlib.Algebra.Order.BigOperators.Group.List

/-! The manifest of a DASH service between the set-up, the MPDs received over
FLUTE, which overwrite the generated entry, and the housekeeping passes, which
age what was received. -/

namespace MbmsMiddleware

open CacheManagement

variable {D : Type}

/-- A stream of a DASH service that was set up with this base path. -/
def DashStream (D : Type) (basePath : Str) : Type :=
  { s : ContentStream D // s.deliveryProtocol = .dash ∧ s.basePath = basePath }

theorem ContentStream.Configures.dashStream {basePath : Str} {s s' : ContentStream D}
    (h : s.Configures s') (hs : s.deliveryProtocol = .dash ∧ s.basePath = basePath) :
    s'.deliveryProtocol = .dash ∧ s'.basePath = basePath := by
  rw [h.deliveryProtocol, h.basePath]
  exact hs

/-- What the legacy set-up makes for the base patterns of a DASH service. -/
theorem ServiceAnnouncement.streamOfLegacyFormat_dash [DoubleText D] {cfg : Config}
    {items : List Item} {basePath sdpUri : Str} {pattern : XmlElement} {s : AnyStream D}
    (h : streamOfLegacyFormat cfg items .dash basePath sdpUri pattern = .ok (some s)) :
    ∃ t : DashStream D basePath, s = .basic t.1 := by
  obtain ⟨url, -, h⟩ := Except.eq_ok_of_bind h
  rw [if_pos (.inl rfl)] at h
  obtain ⟨cs, hcs, h⟩ := Except.eq_ok_of_bind h
  cases h
  exact ⟨⟨cs, (configureFromItems_configures hcs).dashStream ⟨rfl, rfl⟩⟩, rfl⟩

inductive DashEvent (D : Type) (basePath : Str) where
  | fluteFileReceived (stream : DashStream D basePath) (file : FluteFile)
  | checkFileExpiryAndCacheSize (clock : Clock)

namespace DashEvent

variable {basePath : Str} (cfg : CacheManagement) (objects : Objects D)

def step (cache : Cache) : DashEvent D basePath → Cache
  | .fluteFileReceived stream file => stream.1.fluteFileReceived cache file
  | .checkFileExpiryAndCacheSize clock =>
    CacheManagement.checkFileExpiryAndCacheSize cfg (itemView objects) clock cache

/-- At a pass the sizes of the entries that are not expired add up to no more
than the limit. -/
def WithinSizeLimit (cache : Cache) : DashEvent D basePath → Prop
  | .fluteFileReceived .. => True
  | .checkFileExpiryAndCacheSize clock =>
    ((datedItems cfg (readAges cfg (itemView objects) clock cache.entries 0)).map
      fun x => lengthAt (itemView objects) cache x.2).sum ≤ cfg.maxCacheSize

instance (cache : Cache) :
    (e : DashEvent D basePath) → Decidable (WithinSizeLimit cfg objects cache e)
  | .fluteFileReceived .. => isTrue trivial
  | .checkFileExpiryAndCacheSize _ => inferInstanceAs (Decidable (_ ≤ _))

/-- The age test for the entry at a location: a generated entry reads the clock
twice, a received one compares the clock with its own time. -/
def Unexpired (clock : Clock) (cache : Cache) (l : Str) : Prop :=
  let tick := tickAt cfg (itemView objects) clock cache.entries 0 l
  match (cache.find? l).bind (itemView objects).receivedAt with
  | none => clock.reading tick = 0 ∨ AgeInLimit cfg clock (tick + 1)
  | some receivedAt => receivedAt = 0 ∨
      (((clock.reading tick : Int) - receivedAt) % 2 ^ 64).toNat ≤ cfg.maxCacheFileAge

/-- A pass finds an unexpired entry at the location. -/
def FindsUnexpired (l : Str) (cache : Cache) : DashEvent D basePath → Prop
  | .fluteFileReceived .. => True
  | .checkFileExpiryAndCacheSize clock => Unexpired cfg objects clock cache l

/-- Receiving a file removes nothing. -/
theorem isSome_fluteFileReceived (s : ContentStream D) (file : FluteFile) {cache : Cache} {l : Str}
    (h : (cache.find? l).isSome) : ((s.fluteFileReceived cache file).find? l).isSome := by
  have hadd : ∀ item : CacheItem, ((cache.addItem item).find? l).isSome := by
    intro item
    rw [Cache.addItem, OrdMap.find?_set]
    by_cases hl : l = item.contentLocation
    · rw [if_pos hl]
      rfl
    · rwa [if_neg hl]
  unfold ContentStream.fluteFileReceived
  split
  · dsimp only
    split
    · exact hadd _
    · exact hadd _
  · exact h

theorem runningTotal_le (cache : Cache) (items : List (Nat × Str)) (x : Nat × Str) :
    runningTotal (itemView objects) cache items x ≤
      (items.map fun y => lengthAt (itemView objects) cache y.2).sum := by
  have hsub : ((items.filter fun y => y = x ∨ Before y x).map
      fun y => lengthAt (itemView objects) cache y.2).sum ≤
        (items.map fun y => lengthAt (itemView objects) cache y.2).sum :=
    (List.filter_sublist.map _).sum_le_sum (fun _ _ => Nat.zero_le _)
  exact (Nat.mod_le _ _).trans hsub

/-- Within the size limit a pass keeps the entry exactly when it is unexpired. -/
theorem isSome_checkFileExpiryAndCacheSize {clock : Clock} {cache : Cache} {l : Str}
    (h : (cache.find? l).isSome)
    (hsize : WithinSizeLimit cfg objects cache
      (.checkFileExpiryAndCacheSize clock : DashEvent D basePath)) :
    ((CacheManagement.checkFileExpiryAndCacheSize cfg (itemView objects) clock cache).find? l).isSome
      ↔ Unexpired cfg objects clock cache l := by
  obtain ⟨item, hitem⟩ := Option.isSome_iff_exists.mp h
  have hmem := OrdMap.find?_eq_some.mp hitem
  have htotal : ∀ x, runningTotal (itemView objects) cache
      (datedItems cfg (readAges cfg (itemView objects) clock cache.entries 0)) x ≤
        cfg.maxCacheSize := fun x => (runningTotal_le objects cache _ x).trans hsize
  have hkept : ((CacheManagement.checkFileExpiryAndCacheSize cfg (itemView objects) clock
      cache).find? l).isSome ↔
        ∀ age, (l, some age) ∈ readAges cfg (itemView objects) clock cache.entries 0 →
          age ≤ cfg.maxCacheFileAge := by
    rw [Option.isSome_iff_exists]
    constructor
    · rintro ⟨item', hitem'⟩ age hage
      exact ((find?_checkFileExpiryAndCacheSize cfg _ clock cache l item').mp hitem').2 age hage |>.1
    · intro hages
      exact ⟨item, (find?_checkFileExpiryAndCacheSize cfg _ clock cache l item).mpr
        ⟨hitem, fun age hage => ⟨hages age hage, htotal _⟩⟩⟩
  rw [hkept]
  simp only [mem_readAges cfg (itemView objects) clock cache.sorted hmem, Unexpired, hitem,
    Option.bind_some]
  generalize tickAt cfg (itemView objects) clock cache.entries 0 l = tick
  cases hr : (itemView objects).receivedAt item with
  | none =>
    have hread : readReceivedAt (itemView objects) clock tick item =
        (clock.reading tick, tick + 1) := by
      simp only [readReceivedAt, hr]
    have hage := (readAge_generated cfg (itemView objects) clock hr (tick + 1)).1
    rw [hread, ← hage]
    by_cases hz : clock.reading tick = 0
    · simp [hz]
    · simp [hz]
  | some receivedAt =>
    have hread : ∀ t, readReceivedAt (itemView objects) clock t item = (receivedAt, t) := by
      intro t
      simp only [readReceivedAt, hr]
    have hage : (readAge cfg (itemView objects) clock tick item).1 =
        (((clock.reading tick : Int) - receivedAt) % 2 ^ 64).toNat := by
      simp only [readAge, hread]
      split <;> rfl
    rw [hread, hage]
    by_cases hz : receivedAt = 0
    · simp [hz]
    · simp [hz]

theorem step_isSome_iff {cache : Cache} {l : Str} {e : DashEvent D basePath}
    (hsize : WithinSizeLimit cfg objects cache e) (h : (cache.find? l).isSome) :
    ((step cfg objects cache e).find? l).isSome ↔ FindsUnexpired cfg objects l cache e := by
  cases e with
  | fluteFileReceived stream file =>
    exact iff_of_true (isSome_fluteFileReceived stream.1 file h) trivial
  | checkFileExpiryAndCacheSize clock =>
    exact isSome_checkFileExpiryAndCacheSize cfg objects h hsize

/-- From the set-up of the service on, whatever its streams receive and
whenever the cache is checked, the manifest is served exactly when no check
finds an expired entry at its path. -/
theorem manifest_served [DoubleText D] {sv sv' : Service D} {self : Nat} {manifest : Str}
    {cache cache' : Cache} (hdash : sv.deliveryProtocol = .dash)
    (hset : sv.readMasterManifest self manifest basePath cache = .ok (sv', cache'))
    {events : List (DashEvent D basePath)}
    (hsize : Runs.StepsMeet (step cfg objects) (WithinSizeLimit cfg objects) cache' events) :
    (∀ pre, pre <+: events →
      ((pre.foldl (step cfg objects) cache').find? sv'.manifestPath).isSome) ↔
    Runs.StepsMeet (step cfg objects) (FindsUnexpired cfg objects sv'.manifestPath) cache'
      events := by
  have hcache : (cache'.find? sv'.manifestPath).isSome := by
    simp only [Service.readMasterManifest, hdash, pure, Except.pure, bind, Except.bind,
      Except.ok.injEq, Prod.mk.injEq] at hset
    obtain ⟨rfl, rfl⟩ := hset
    simp [Cache.addItem, CacheItem.contentLocation]
  refine Runs.prefixes_iff_of_stepsMeet (I := fun _ => True) (A := WithinSizeLimit cfg objects)
    (G := fun c : Cache => (c.find? sv'.manifestPath).isSome) ?_ ?_ trivial hcache hsize
  · exact fun _ _ _ _ _ _ => trivial
  · exact fun _ _ ha _ hg => step_isSome_iff cfg objects ha hg

section Example

def dashStream : DashStream Int "svc/".toList :=
  ⟨{ deliveryProtocol := .dash, base := [], basePath := "svc/".toList }, rfl, rfl⟩

def receivedManifest (receivedAt : Nat) : FluteFile where
  contentLocation := "live.mpd".toList
  toi := 1
  contentType := ContentTypeConstants.dash
  buffer := "<MPD/>".toList
  receivedAt := receivedAt
  complete := true

def announcedService : Service Int where
  deliveryProtocol := .dash
  dashManifest := ⟨"<MPD/>".toList, "svc/".toList⟩
  manifestPath := "svc/manifest.mpd".toList

def announcedCache : Cache :=
  Cache.addItem .empty (.playlist "svc/manifest.mpd".toList 0 (.service 0))

/-- An MPD is received, and the cache is checked when the clock reads 1000. -/
def refreshedManifest (receivedAt : Nat) : List (DashEvent Int "svc/".toList) :=
  [.fluteFileReceived dashStream (receivedManifest receivedAt),
    .checkFileExpiryAndCacheSize stoppedClock]

def defaultCacheManagement : CacheManagement := .ofSettings none none true

def manifestObjects : Objects Int where
  segment _ := { contentLocation := [], seq := 0, extinf := 0 }
  text _ := "<MPD/>".toList

theorem manifest_served_refreshed :
    Runs.StepsMeet (step defaultCacheManagement manifestObjects)
      (WithinSizeLimit defaultCacheManagement manifestObjects) announcedCache
      (refreshedManifest 990) ∧
    ∀ pre, pre <+: refreshedManifest 990 →
      ((pre.foldl (step defaultCacheManagement manifestObjects) announcedCache).find?
        announcedService.manifestPath).isSome := by
  have hset : Service.readMasterManifest 0 "<MPD/>".toList "svc/".toList
      ({ deliveryProtocol := .dash } : Service Int) .empty =
        .ok (announcedService, announcedCache) := rfl
  have hsize : Runs.StepsMeet (step defaultCacheManagement manifestObjects)
      (WithinSizeLimit defaultCacheManagement manifestObjects) announcedCache
      (refreshedManifest 990) := by decide
  refine ⟨hsize, ?_⟩
  exact (manifest_served defaultCacheManagement manifestObjects rfl hset hsize).mpr
    ⟨trivial, .inr (by decide), trivial⟩

/-- The received MPD takes the place of the generated entry, and with the
default age limit it is gone 31 seconds later. -/
theorem received_manifest_expires :
    Service.readMasterManifest 0 "<MPD/>".toList "svc/".toList
      ({ deliveryProtocol := .dash } : Service Int) .empty =
        .ok (announcedService, announcedCache) ∧
    Runs.StepsMeet (step defaultCacheManagement manifestObjects)
      (WithinSizeLimit defaultCacheManagement manifestObjects) announcedCache
      (refreshedManifest 969) ∧
    ((refreshedManifest 969).foldl (step defaultCacheManagement manifestObjects)
      announcedCache).find? announcedService.manifestPath = none := by
  exact ⟨rfl, by decide, by decide⟩

end Example

end DashEvent

end MbmsMiddleware
