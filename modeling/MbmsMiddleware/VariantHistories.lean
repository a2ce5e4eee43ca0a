import MbmsMiddleware.Owners
import MbmsMiddleware.ServableVariants

/-! What a run has done for the variants of the manifests: whether the entry of a
stream has been put into the item map and left there, and whether a service has
become an HLS service, or one of its streams has got another path, since its
manifest was made. -/

namespace MbmsMiddleware

open SeamlessContentStream

structure VariantHistory where
  entered : Nat → Bool := fun _ => false
  stale : Nat → Bool := fun _ => false

namespace VariantHistory

/-- Another item is stored at the path. -/
def takenOver (r : Registry) (path : Str) (h : VariantHistory) : VariantHistory :=
  { h with entered := fun b => h.entered b && !(r.seamless b && r.path b = path) }

def withProtocol (r : Registry) (service : Nat) (protocol : DeliveryProtocol) (h : VariantHistory) :
    VariantHistory :=
  if protocol = .hls ∧ r.protocol service ≠ .hls then
    { h with stale := Function.update h.stale service true }
  else h

def withPath (r : Registry) (address : Nat) (h : VariantHistory) : VariantHistory where
  entered := Function.update h.entered address false
  stale := fun service => h.stale service || decide (∃ k, (r.contentStreams service).find? k = some address)

def withEndpoint (r : Registry) (address : Nat) (path : Str) (client : Bool) (h : VariantHistory) :
    VariantHistory :=
  let h := if r.path address = path then h else h.withPath r address
  if client then
    { h.takenOver r path with
      entered := Function.update (h.takenOver r path).entered address true }
  else h

/-- The manifest of an HLS service is made anew whenever a stream is added. -/
def withStream (r : Registry) (service : Nat) (h : VariantHistory) : VariantHistory :=
  if r.protocol service = .hls then { h with stale := Function.update h.stale service false } else h

/-- A broadcast file that is stored under the path of a basic stream is its entry. -/
def withReception (r : Registry) (e : ReceptionEffect) (h : VariantHistory) : VariantHistory :=
  { h with
    entered := fun b => !e.drops.contains (r.path b) &&
      if r.seamless b then h.entered b && !e.stores.contains (r.path b)
      else h.entered b || e.stores.contains (r.path b) }

theorem withReception_entered (r : Registry) (e : ReceptionEffect) (h : VariantHistory) (b : Nat) :
    (h.withReception r e).entered b = true ↔ r.path b ∉ e.drops ∧
      if r.seamless b = true then h.entered b = true ∧ r.path b ∉ e.stores
      else h.entered b = true ∨ r.path b ∈ e.stores := by
  cases hs : r.seamless b <;> simp [withReception, hs]

end VariantHistory

namespace Registry

variable (D : Type) [DoubleText D]

/-- What the history says is so. -/
structure Recorded (r : Registry) (h : VariantHistory) : Prop where
  entered : ∀ b, h.entered b = true → r.HasEntry b
  listed : ∀ service, r.protocol service = .hls → h.stale service = false →
    ∀ k b, (r.contentStreams service).find? k = some b → Advertises D (r.manifest service) (r.path b)

variable {D} {r : Registry} {h : VariantHistory}

theorem Recorded.setProtocol (hr : r.Recorded D h) (service : Nat) (p : DeliveryProtocol) :
    (r.setProtocol service p).Recorded D (h.withProtocol r service p) := by
  unfold VariantHistory.withProtocol
  constructor
  · intro b hb
    refine hr.entered b ?_
    split_ifs at hb <;> exact hb
  · intro x hp hstale k b hk
    by_cases hx : x = service
    · subst hx
      have hp' : p = .hls := by simpa [Registry.setProtocol] using hp
      split_ifs at hstale with hnew
      · simp at hstale
      · exact hr.listed x (by_contra fun hne => hnew ⟨hp', hne⟩) hstale k b hk
    · have hsame : h.stale x = false := by
        split_ifs at hstale
        · simpa [hx] using hstale
        · exact hstale
      exact hr.listed x (by simpa [Registry.setProtocol, hx] using hp) hsame k b hk

theorem Recorded.newService (hr : r.Recorded D h) (p : DeliveryProtocol) :
    (r.newService p).Recorded D h := by
  refine ⟨hr.entered, fun x hp hstale k b hk => ?_⟩
  by_cases hx : x = r.nextService
  · subst hx
    simp [Registry.newService] at hk
  · simp only [Registry.newService, ne_eq, hx, not_false_eq_true, Function.update_of_ne] at hk hp ⊢
    exact hr.listed x hp hstale k b hk

theorem Recorded.addItem (hr : r.Recorded D h) (item : CacheItem) :
    Recorded D { r with cache := r.cache.addItem item } (h.takenOver r item.contentLocation) := by
  refine ⟨fun b hb => ?_, hr.listed⟩
  simp only [VariantHistory.takenOver, Bool.and_eq_true, Bool.not_eq_true', Bool.and_eq_false_iff,
    decide_eq_false_iff_not] at hb
  rw [hasEntry_addItem]
  split_ifs with hpath
  · exact fun hs => absurd hpath (hb.2.resolve_left (by simp [hs]))
  · exact hr.entered b hb.1

theorem Recorded.newStream (hr : r.Recorded D h) (path : Str) (seamless : Bool) :
    (r.newStream path seamless).Recorded D (h.withPath r r.nextStream) := by
  constructor
  · intro b hb
    have hne : b ≠ r.nextStream := by
      rintro rfl
      simp [VariantHistory.withPath] at hb
    have hentry := hr.entered b (by simpa [VariantHistory.withPath, hne] using hb)
    simpa [HasEntry, Registry.newStream, hne] using hentry
  · intro x hp hstale k b hk
    simp only [VariantHistory.withPath, Bool.or_eq_false_iff, decide_eq_false_iff_not] at hstale
    have hne : b ≠ r.nextStream := by
      rintro rfl
      exact hstale.2 ⟨k, hk⟩
    simpa [Registry.newStream, hne] using hr.listed x hp hstale.1 k b hk

theorem Recorded.redirect (hr : r.Recorded D h) (address : Nat) (path : Str) :
    (r.redirect address path).Recorded D
      (if r.path address = path then h else h.withPath r address) := by
  by_cases hpath : r.path address = path
  · have hsame : r.redirect address path = r := by
      unfold Registry.redirect
      rw [← hpath, Function.update_eq_self]
    rw [if_pos hpath, hsame]
    exact hr
  · rw [if_neg hpath]
    constructor
    · intro b hb
      have hne : b ≠ address := by
        rintro rfl
        simp [VariantHistory.withPath] at hb
      have hentry := hr.entered b (by simpa [VariantHistory.withPath, hne] using hb)
      simpa [HasEntry, Registry.redirect, hne] using hentry
    · intro x hp hstale k b hk
      simp only [VariantHistory.withPath, Bool.or_eq_false_iff, decide_eq_false_iff_not] at hstale
      have hne : b ≠ address := by
        rintro rfl
        exact hstale.2 ⟨k, hk⟩
      simpa [Registry.redirect, hne] using hr.listed x hp hstale.1 k b hk

theorem Recorded.claimPlaylist (hr : r.Recorded D h) {address : Nat} (path : Str) :
    ((r.redirect address path).claimPlaylist address).Recorded D
      (h.withEndpoint r address path true) := by
  have hpath : (r.redirect address path).path address = path := by simp [Registry.redirect]
  have hitem := (hr.redirect address path).addItem
    (.playlist ((r.redirect address path).path address) 0 (.stream address))
  rw [CacheItem.contentLocation, hpath] at hitem
  unfold VariantHistory.withEndpoint
  generalize (if r.path address = path then h else h.withPath r address) = h' at hitem
  have htaken : (h'.takenOver r path).stale = h'.stale := rfl
  refine ⟨fun b hb => ?_, fun x hp hstale => hitem.listed x hp hstale⟩
  by_cases hba : b = address
  · subst hba
    refine (hasEntry_addItem _ _ b).mpr ?_
    rw [hpath]
    simp [CacheItem.contentLocation]
  · have hsame : (r.redirect address path).path b = r.path b := by simp [Registry.redirect, hba]
    have htaken : (h'.takenOver r path).entered b = true := by
      simpa only [if_true, Function.update_of_ne hba] using hb
    have hb' : (h'.takenOver (r.redirect address path) path).entered b = true := by
      simp only [VariantHistory.takenOver, hsame]
      exact htaken
    have hentry := hitem.entered b hb'
    unfold Registry.claimPlaylist
    rwa [hpath]

theorem Recorded.add (hr : r.Recorded D h) (service address : Nat) (manifest : Str)
    (hadv : r.protocol service = .hls → ∀ k b,
      ((r.add service address).contentStreams service).find? k = some b →
      Advertises D manifest (r.path b)) :
    ((r.add service address).setManifest service manifest).Recorded D (h.withStream r service) := by
  unfold VariantHistory.withStream
  constructor
  · intro b hb
    refine hr.entered b ?_
    split_ifs at hb <;> exact hb
  · intro x hp hstale k b hk
    by_cases hx : x = service
    · subst hx
      have hmanifest : ((r.add x address).setManifest x manifest).manifest x = manifest := by
        simp [Registry.setManifest]
      rw [hmanifest]
      exact hadv hp k b hk
    · have hsame : h.stale x = false := by
        split_ifs at hstale
        · simpa [hx] using hstale
        · exact hstale
      simp only [Registry.setManifest, Registry.add, ne_eq, hx, not_false_eq_true,
        Function.update_of_ne] at hk hp ⊢
      exact hr.listed x hp hsame k b hk

theorem Recorded.reception (hr : r.Recorded D h) {e : ReceptionEffect} {c : Cache}
    (hc : Rewrites e.stores e.drops r.cache c) :
    Recorded D { r with cache := c } (h.withReception r e) := by
  refine ⟨fun b hb => (hasEntry_rewrites hc b).mpr ?_, hr.listed⟩
  obtain ⟨hdrops, hb⟩ := (VariantHistory.withReception_entered r e h b).mp hb
  refine ⟨hdrops, ?_⟩
  split_ifs at hb ⊢
  · exact ⟨hb.2, hr.entered b hb.1⟩
  · exact hb.symm.imp_right (hr.entered b)

/-- A reception stores and drops nothing in the place of an entry of a variant
played so far, and the stream that it is a playlist of has its entry then, and its
manifest is up to date. -/
def Spares (r : Registry) (played : List Nat) (h : VariantHistory) (address : Nat)
    (e : ReceptionEffect) : Prop :=
  (∀ service b, r.Variant service b → b ∈ played →
    r.path b ∉ e.drops ∧ (r.seamless b = true → r.path b ∉ e.stores)) ∧
  (e.isPlaylist = true → ∀ service, r.Variant service address →
    (h.withReception r e).entered address = true ∧ h.stale service = false)

instance (played : List Nat) (P : Nat → Nat → Prop) [∀ service b, Decidable (P service b)] :
    Decidable (∀ service b, r.Variant service b → b ∈ played → P service b) :=
  decidable_of_iff (∀ e ∈ r.services.entries, ∀ c ∈ (r.contentStreams e.2).entries,
      r.protocol e.2 = .hls → c.2 ∈ played → P e.2 c.2)
    ⟨fun h service b hv hb => by
      obtain ⟨⟨⟨id, hid⟩, k, hk⟩, hp⟩ := hv
      exact h ⟨id, service⟩ (OrdMap.find?_eq_some.mp hid) ⟨k, b⟩ (OrdMap.find?_eq_some.mp hk) hp hb,
    fun h e he c hc hp hb => h e.2 c.2
      ⟨⟨⟨e.1, OrdMap.find?_eq_some.mpr he⟩, c.1, OrdMap.find?_eq_some.mpr hc⟩, hp⟩ hb⟩

instance (address : Nat) (P : Nat → Prop) [∀ service, Decidable (P service)] :
    Decidable (∀ service, r.Variant service address → P service) :=
  decidable_of_iff (∀ service b, r.Variant service b → b ∈ [address] → P service)
    ⟨fun h service hv => h service address hv (List.mem_singleton.mpr rfl),
      fun h service _ hv hb => h service (List.mem_singleton.mp hb ▸ hv)⟩

instance (played : List Nat) (path : Str) (address : Option Nat) :
    Decidable (r.FreeFor played path address) :=
  inferInstanceAs (Decidable (∀ service b, r.Variant service b → b ∈ played → _))

instance (played : List Nat) (h : VariantHistory) (address : Nat) (e : ReceptionEffect) :
    Decidable (r.Spares played h address e) :=
  inferInstanceAs (Decidable (_ ∧ _))

theorem Spares.undisturbed {played : List Nat} {address : Nat} {e : ReceptionEffect}
    (hspares : r.Spares played h address e) (hr : r.Recorded D h) (hs : r.Servable D played) :
    r.Undisturbed D played address e := by
  have hentered : ∀ b, r.path b ∉ e.drops → (r.seamless b = true → r.path b ∉ e.stores) →
      r.HasEntry b → r.Survives e b := by
    intro b hdrops hstores hentry
    refine ⟨hdrops, ?_⟩
    split_ifs with hseamless
    · exact ⟨hstores hseamless, hentry⟩
    · exact .inr hentry
  constructor
  · intro service b hv hb
    obtain ⟨hdrops, hstores⟩ := hspares.1 service b hv hb
    exact hentered b hdrops hstores (hs service b hv hb).1
  · intro hplaylist service hv
    obtain ⟨hb, hstale⟩ := hspares.2 hplaylist service hv
    obtain ⟨k, hk⟩ := hv.1.2
    refine ⟨?_, hr.listed service hv.2 hstale k address hk⟩
    obtain ⟨hdrops, hb⟩ := (VariantHistory.withReception_entered r e h address).mp hb
    refine ⟨hdrops, ?_⟩
    split_ifs at hb ⊢
    · exact ⟨hb.2, hr.entered address hb.1⟩
    · exact hb.symm.imp_right (hr.entered address)

end Registry

section Calls

variable {D : Type} [DoubleText D] (env : Environment D)

def World.recordCall (w : World D) (h : VariantHistory) : MiddlewareCall D → VariantHistory
  | .setDeliveryProtocol service mimeType =>
    h.withProtocol w.registry service (Service.deliveryProtocolOfMimeType mimeType)
  | .readMasterManifest service manifest basePath =>
    if ServiceAnnouncement.manifestFaults (w.registry.protocol service) D manifest basePath = [] then
      h.takenOver w.registry (World.manifestLocation (w.registry.protocol service) basePath)
    else h
  | .newStream _ => h.withPath w.registry w.nextStream
  | .setCdnEndpoint address cdnEpt =>
    (env.rest.uri cdnEpt).elim h fun uri =>
      h.withEndpoint w.registry address (pathOfUri uri) (env.rest.httpClient uri.endpoint)
  | .addAndStartContentStream service _ => h.withStream w.registry service
  | .getService _ | .newService | .addName .. | .deliveryProtocol _ | .setBasePath _ | .basePath
  | .contentStreamCount _ | .setService .. => h

/-- The condition on a call of the handlers. -/
def World.CallSpares (w : World D) (played : List Nat) (h : VariantHistory) :
    MiddlewareCall D → Prop
  | .setDeliveryProtocol service mimeType =>
    Service.deliveryProtocolOfMimeType mimeType = .hls → w.registry.protocol service ≠ .hls →
      ∀ a, w.registry.Offers service a → a ∉ played
  | .setService _ service =>
    w.registry.protocol service = .hls → ∀ k a,
      (w.registry.contentStreams service).find? k = some a → a ∈ played →
        h.entered a = true ∧ h.stale service = false
  | .readMasterManifest service manifest basePath =>
    ServiceAnnouncement.manifestFaults (w.registry.protocol service) D manifest basePath = [] →
      w.registry.FreeFor played (World.manifestLocation (w.registry.protocol service) basePath) none
  | .setCdnEndpoint address cdnEpt =>
    w.registry.seamless address = true → ∀ uri, env.rest.uri cdnEpt = some uri →
      (env.rest.httpClient uri.endpoint = true →
        w.registry.FreeFor played (pathOfUri uri) (some address)) ∧
      ∀ service, w.registry.Variant service address → address ∈ played →
        w.registry.path address = pathOfUri uri
  | .addAndStartContentStream service address =>
    ¬ w.ledger.Blocked address → w.registry.Registered service →
      w.registry.protocol service = .hls → address ∈ played → h.entered address = true
  | .getService _ | .newService | .addName .. | .deliveryProtocol _ | .setBasePath _ | .basePath
  | .newStream _ | .contentStreamCount _ => True

variable {env} {w : World D} {played : List Nat} {h : VariantHistory}

instance World.CallSpares.decidable (env : Environment D) (w : World D) (played : List Nat)
    (h : VariantHistory) : (op : MiddlewareCall D) → Decidable (w.CallSpares env played h op)
  | .setDeliveryProtocol service mimeType =>
    decidable_of_iff (Service.deliveryProtocolOfMimeType mimeType = .hls →
        w.registry.protocol service ≠ .hls → ∀ a ∈ played, ¬ w.registry.Offers service a)
      ⟨fun hk hm hp a ho ha => hk hm hp a ha ho, fun hk hm hp a ha ho => hk hm hp a ho ha⟩
  | .setService _ service =>
    decidable_of_iff (w.registry.protocol service = .hls →
        ∀ e ∈ (w.registry.contentStreams service).entries, e.2 ∈ played →
          h.entered e.2 = true ∧ h.stale service = false)
      ⟨fun hk hp k a hka => hk hp ⟨k, a⟩ (OrdMap.find?_eq_some.mp hka),
        fun hk hp e he => hk hp e.1 e.2 (OrdMap.find?_eq_some.mpr he)⟩
  | .readMasterManifest .. => inferInstanceAs (Decidable (_ → _))
  | .setCdnEndpoint address cdnEpt =>
    decidable_of_iff (w.registry.seamless address = true → ∀ uri ∈ env.rest.uri cdnEpt,
        (env.rest.httpClient uri.endpoint = true →
          w.registry.FreeFor played (pathOfUri uri) (some address)) ∧
        ∀ service, w.registry.Variant service address → address ∈ played →
          w.registry.path address = pathOfUri uri) Iff.rfl
  | .addAndStartContentStream _ address =>
    haveI : Decidable (w.ledger.Blocked address) := inferInstanceAs (Decidable (_ ∧ _))
    inferInstanceAs (Decidable (_ → _ → _ → _ → _))
  | .getService _ | .newService | .addName .. | .deliveryProtocol _ | .setBasePath _ | .basePath
  | .newStream _ | .contentStreamCount _ => .isTrue trivial

theorem World.CallSpares.callKeeps {op : MiddlewareCall D} (hop : w.CallSpares env played h op)
    (hr : w.registry.Recorded D h) (hs : w.registry.Servable D played) :
    w.CallKeeps env played op := by
  cases op with
  | setDeliveryProtocol service mimeType =>
    intro hmime a ha hplayed
    by_cases hp : w.registry.protocol service = .hls
    · exact hs service a ⟨ha, hp⟩ hplayed
    · exact absurd hplayed (hop hmime hp a ha)
  | setService id service =>
    intro hp k a hk ha
    obtain ⟨hentered, hstale⟩ := hop hp k a hk ha
    exact ⟨hr.entered a hentered, hr.listed service hp hstale k a hk⟩
  | readMasterManifest service manifest basePath => exact hop
  | setCdnEndpoint address cdnEpt =>
    intro hseamless uri huri
    obtain ⟨hfree, hpath⟩ := hop hseamless uri huri
    refine ⟨hfree, fun service hv ha => ?_⟩
    have hserves := hs service address hv ha
    have hentry := hserves.1
    rw [Registry.HasEntry, if_pos hseamless] at hentry
    rw [← hpath service hv ha]
    exact ⟨hserves.2, .inr hentry⟩
  | addAndStartContentStream service address =>
    exact fun hblocked hregistered hp ha => hr.entered address (hop hblocked hregistered hp ha)
  | getService | newService | addName | deliveryProtocol | setBasePath | basePath | newStream
  | contentStreamCount => trivial

variable (env) in
theorem recorded_endpointRegistry (hr : w.registry.Recorded D h) (address : Nat) (cdnEpt : Str) :
    (World.endpointRegistry env.rest address cdnEpt w.registry).Recorded D
      (w.recordCall env h (.setCdnEndpoint address cdnEpt)) := by
  have hrecord : w.recordCall env h (.setCdnEndpoint address cdnEpt) =
      (env.rest.uri cdnEpt).elim h fun uri =>
        h.withEndpoint w.registry address (pathOfUri uri) (env.rest.httpClient uri.endpoint) := rfl
  unfold World.endpointRegistry
  rw [hrecord]
  cases env.rest.uri cdnEpt with
  | none => exact hr
  | some uri =>
    rw [Option.elim_some]
    dsimp only
    cases env.rest.httpClient uri.endpoint with
    | true => exact hr.claimPlaylist (pathOfUri uri)
    | false => exact hr.redirect _ (pathOfUri uri)

variable (env) in
/-- The history goes along with the calls. -/
theorem perform_recorded (hr : w.registry.Recorded D h) (op : MiddlewareCall D) :
    (World.perform env op w).Ensures
      (fun _ w' => w'.registry.Recorded D (w.recordCall env h op))
      (fun e w' => e.isStdException = true → w'.registry.Recorded D (w.recordCall env h op)) := by
  cases op with
  | getService | deliveryProtocol | setBasePath | basePath | contentStreamCount => exact hr
  | newService =>
    refine (World.registry_newService env w).mono ?_ (fun _ _ hf => hf.elim)
    rintro _ w' ⟨_, hw'⟩
    rw [hw']
    exact hr.newService _
  | addName service name lang =>
    refine (World.registry_addName env service name lang w).mono ?_ (fun _ _ hf => hf.elim)
    intro _ w' hw'
    rw [hw']
    exact hr
  | setDeliveryProtocol service mimeType =>
    refine (World.registry_setDeliveryProtocol env service mimeType w).mono ?_
      (fun _ _ hf => hf.elim)
    intro _ w' hw'
    rw [hw']
    exact hr.setProtocol service _
  | readMasterManifest service manifest basePath =>
    refine (World.registry_readMasterManifest env service manifest basePath w).mono ?_ ?_
    · rintro _ w' ⟨hf, hw'⟩
      rw [hw', World.recordCall, if_pos hf]
      have hitem := hr.addItem
        (.playlist (World.manifestLocation (w.registry.protocol service) basePath) 0 (.service service))
      exact ⟨hitem.entered, hitem.listed⟩
    · rintro e w' ⟨hf, rfl⟩ -
      rw [World.recordCall, if_neg fun hnil => by rw [hnil] at hf; cases hf]
      exact hr
  | newStream s =>
    refine (World.registry_newStream env s w).mono ?_ (fun _ _ hf => hf.elim)
    rintro _ w' ⟨_, hw'⟩
    rw [hw']
    exact hr.newStream _ _
  | setCdnEndpoint address cdnEpt =>
    refine (World.registry_setCdnEndpoint env address cdnEpt w).mono ?_ ?_
    · rintro _ w' ⟨-, hw'⟩
      rw [hw']
      exact recorded_endpointRegistry env hr address cdnEpt
    · rintro e w' (⟨rfl, -⟩ | ⟨-, -, hw'⟩) he
      · cases he
      · rw [hw']
        exact recorded_endpointRegistry env hr address cdnEpt
  | addAndStartContentStream service address =>
    refine (World.registry_addAndStart env service address w).mono ?_ ?_
    · rintro _ w' ⟨-, manifest, hw', hadv⟩
      rw [hw']
      exact hr.add service address manifest hadv
    · rintro e w' ⟨rfl, -⟩ he
      cases he
  | setService id service => exact ⟨hr.entered, hr.listed⟩

end Calls

namespace Session

variable {D : Type} [DoubleText D] (env : Environment D) (cfg : Config)

def record (s : Session D) (h : VariantHistory) (e : SessionEvent) : VariantHistory :=
  if s.running then
    match e with
    | .announcement _ => h
    | .call =>
      match s.handlers with
      | .call op _ :: _ => s.world.recordCall env h op
      | _ => h
    | .reception address indeterminate r =>
      if address < s.world.nextStream then
        h.withReception s.world.registry (s.world.effect address indeterminate r)
      else h
  else h

/-- A session with its history. -/
def stepRecorded (x : Session D × VariantHistory) (e : SessionEvent) : Session D × VariantHistory :=
  (step env cfg x.1 e, x.1.record env x.2 e)

/-- The condition on the next call of the handlers. -/
def NextSpares (w : World D) (played : List Nat) (h : VariantHistory) : List (Handler D Unit) → Prop
  | .call op _ :: _ => w.CallSpares env played h op
  | [] | .pure () :: _ | .throw _ :: _ => True

instance (w : World D) (played : List Nat) (h : VariantHistory) :
    (l : List (Handler D Unit)) → Decidable (NextSpares env w played h l)
  | .call op _ :: _ => inferInstanceAs (Decidable (w.CallSpares env played h op))
  | [] | .pure () :: _ | .throw _ :: _ => .isTrue trivial

/-- The condition on a step. -/
def Spares (x : Session D × VariantHistory) (e : SessionEvent) : Prop :=
  x.1.running = true → match e with
  | .announcement _ => True
  | .call => NextSpares env x.1.world x.1.played x.2 x.1.handlers
  | .reception address indeterminate r => address < x.1.world.nextStream →
    x.1.world.receiveFault? address indeterminate r = none →
      x.1.world.registry.Spares x.1.played x.2 address (x.1.world.effect address indeterminate r)

instance (env : Environment D) (x : Session D × VariantHistory) :
    (e : SessionEvent) → Decidable (Spares env x e)
  | .announcement _ => .isTrue fun _ => trivial
  | .call =>
    inferInstanceAs (Decidable (_ → NextSpares env x.1.world x.1.played x.2 x.1.handlers))
  | .reception .. => inferInstanceAs (Decidable (_ → _ → _ → _))

/-- What holds of a session with its history. -/
structure Followed (x : Session D × VariantHistory) : Prop where
  playedExist : x.1.PlayedExist
  servable : x.1.Servable
  recorded : x.1.running = true → x.1.world.registry.Recorded D x.2

variable {env cfg}

theorem Followed.keeps {x : Session D × VariantHistory} (hx : Followed x) {e : SessionEvent}
    (he : Spares env x e) : x.1.Keeps env e := by
  intro hrun
  have hspares := he hrun
  cases e with
  | announcement str => trivial
  | call =>
    dsimp only at hspares ⊢
    split
    · next op next rest hhandlers =>
      rw [hhandlers] at hspares
      exact World.CallSpares.callKeeps hspares (hx.recorded hrun) (hx.servable hrun)
    · trivial
  | reception address indeterminate r =>
    exact fun hlt hfault =>
      (hspares hlt hfault).undisturbed (hx.recorded hrun) (hx.servable hrun)

theorem recorded_raise {s : Session D} {h : VariantHistory} {e : Fault} {w : World D}
    {rest : List (Handler D Unit)} (hw : e.isStdException = true → w.registry.Recorded D h)
    (hrun : (s.raise e w rest).running = true) : (s.raise e w rest).world.registry.Recorded D h := by
  unfold raise at hrun ⊢
  split_ifs at hrun ⊢ with he
  exact hw he

theorem Followed.recorded_step {x : Session D × VariantHistory} (hx : Followed x) (e : SessionEvent)
    (hrun' : (step env cfg x.1 e).running = true) :
    (step env cfg x.1 e).world.registry.Recorded D (x.1.record env x.2 e) := by
  obtain ⟨s, h⟩ := x
  unfold step record at *
  by_cases hrun : s.running = true
  · have hr := hx.recorded hrun
    rw [if_pos hrun] at hrun' ⊢
    rw [if_pos hrun]
    cases e with
    | announcement str =>
      dsimp only at hrun' ⊢
      split_ifs at hrun' ⊢
      · have hread := readAnnouncement_registry env str s.world
        unfold begin at hrun' ⊢
        cases hres : readAnnouncement env str s.world with
        | ok bundles w =>
          rw [hres] at hread
          change w.registry.Recorded D h
          rw [hread]
          exact hr
        | error e w =>
          rw [hres] at hrun'
          cases hrun'
      · exact hr
    | call =>
      dsimp only at hrun' ⊢
      unfold proceed at hrun' ⊢
      match hh : s.handlers with
      | [] => exact hr
      | .pure () :: rest => exact hr
      | .throw e :: rest =>
        simp only [hh] at hrun' ⊢
        exact recorded_raise (fun _ => hr) hrun'
      | .call op next :: rest =>
        have hop := perform_recorded env hr op
        simp only [hh] at hrun' ⊢
        cases hres : World.perform env op s.world with
        | ok r w =>
          rw [hres] at hop
          exact hop
        | error e w =>
          rw [hres] at hop
          simp only [hres] at hrun'
          exact recorded_raise hop hrun'
    | reception address indeterminate r =>
      have hspec := s.world.receive_spec address indeterminate r
      dsimp only [receive]
      by_cases hlt : address < s.world.nextStream
      · rw [if_pos hlt, if_pos hlt]
        change (s.world.receive address indeterminate r).1.registry.Recorded D _
        rw [hspec.registry]
        exact hr.reception hspec.cache
      · rw [if_neg hlt, if_neg hlt]
        exact hr
  · rw [if_neg hrun] at hrun'
    exact absurd hrun' hrun

theorem Followed.step {x : Session D × VariantHistory} (hx : Followed x) {e : SessionEvent}
    (he : Spares env x e) : Followed (stepRecorded env cfg x e) where
  playedExist := step_playedExist env cfg hx.playedExist e
  servable := (step_servable_iff env cfg hx.playedExist hx.servable e).mpr (hx.keeps he)
  recorded := hx.recorded_step e

variable (env cfg)

section Example

open ServiceAnnouncementXmlElements

def variantManifest : Str := "#EXTM3U\n#EXT-X-STREAM-INF:BANDWIDTH=1\nv.m3u8\n".toList

/-- A service that is delivered over broadcast only. -/
def broadcastOnly : XmlElement :=
  .mk userServiceDescription [(serviceId, "s".toList)] none
    [.mk appService [(mimeType, ContentTypeConstants.hls),
        (appServiceDescriptionUri, "a.m3u8".toList)] none
      [.mk alternativeContent [] none [.mk basePattern [] (some "a/".toList) []]],
      ServiceAnnouncement.broadcastDelivery]

def broadcastEnvironment : Environment Int where
  xml _ := [.mk bundleDescription [] none [broadcastOnly]]
  mimeParts _ :=
    [⟨ContentTypeConstants.mbmsUserServiceDescription, some "usd.xml".toList, []⟩,
     ⟨ContentTypeConstants.hls, some "a.m3u8".toList, variantManifest⟩,
     ⟨ContentTypeConstants.hls, some "a/".toList, variantManifest⟩,
     ⟨ContentTypeConstants.sdp, some "a.sdp".toList,
       ServiceAnnouncement.sessionDescription.content⟩]
  rest := ServiceAnnouncement.bareEnvironment.rest
  indeterminate := ServiceAnnouncement.bareEnvironment.indeterminate

def playlistFile : FluteFile where
  contentLocation := "v.m3u8".toList
  toi := 1
  contentType := []
  buffer := "#EXTM3U\n#EXT-X-MEDIA-SEQUENCE:1\na.ts\n".toList
  receivedAt := 1000
  complete := true

/-- The service over the CDN, with a stream that the endpoint gives the path of the
variant. -/
def unicastOnly : XmlElement :=
  .mk userServiceDescription [(serviceId, "s".toList)] none
    [.mk appService [(mimeType, ContentTypeConstants.hls),
        (appServiceDescriptionUri, "a.m3u8".toList)] none
      [.mk alternativeContent [] none [.mk basePattern [] (some "/v.m3u8".toList) []]]]

def unicastVariant : Environment Int :=
  { broadcastEnvironment with xml := fun _ => [.mk bundleDescription [] none [unicastOnly]] }

/-- A playlist comes from the CDN as soon as the stream has its endpoint, and another
over broadcast when the service is set up. -/
def unicastEvents : List SessionEvent :=
  .announcement [] :: List.replicate 10 .call ++
    .reception 0 0 (.cdnPlaylist "#EXTM3U\n#EXT-X-MEDIA-SEQUENCE:1\na.ts\nb.ts\n".toList) ::
    List.replicate 8 .call ++ [.reception 0 0 (.fluteFile playlistFile)]

/-- With seamless switching, the service is set up and its playlist received. -/
def broadcastEvents : List SessionEvent :=
  .announcement [] :: List.replicate 12 .call ++ [.reception 0 0 (.fluteFile playlistFile)]

end Example

end Session

end MbmsMiddleware
