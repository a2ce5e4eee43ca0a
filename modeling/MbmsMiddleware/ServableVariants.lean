import MbmsMiddleware.Receptions

/-! Variants of the generated manifests and the item map. Once its playlist has
come in, a variant is served under the path that the manifest gives for it. -/

namespace MbmsMiddleware

open SeamlessContentStream

namespace Registry

/-- The item map has an entry at the path of the stream; that of a seamless
stream is the one whose callback returns its playlist. -/
def HasEntry (r : Registry) (address : Nat) : Prop :=
  if r.seamless address then
    r.cache.find? (r.path address) = some (.playlist (r.path address) 0 (.stream address))
  else r.path address ∈ r.cache.keys

/-- A variant of an HLS service. -/
def Variant (r : Registry) (service address : Nat) : Prop :=
  r.Offers service address ∧ r.protocol service = .hls

variable (D : Type) [DoubleText D]

def Serves (r : Registry) (service address : Nat) : Prop :=
  r.HasEntry address ∧ Advertises D (r.manifest service) (r.path address)

/-- The variants whose playlist has been received are advertised and served. -/
def Servable (r : Registry) (played : List Nat) : Prop :=
  ∀ service address, r.Variant service address → address ∈ played → r.Serves D service address

/-- No variant that has been played needs its own entry at the path. -/
def FreeFor (r : Registry) (played : List Nat) (path : Str) (address : Option Nat) : Prop :=
  ∀ service b, r.Variant service b → b ∈ played → some b ≠ address → r.seamless b = true →
    r.path b ≠ path

variable {D} {r : Registry} {played : List Nat}

theorem hasEntry_addItem (r : Registry) (item : CacheItem) (b : Nat) :
    HasEntry { r with cache := r.cache.addItem item } b ↔
      if r.path b = item.contentLocation then
        r.seamless b = true → item = .playlist (r.path b) 0 (.stream b)
      else r.HasEntry b := by
  unfold HasEntry
  simp only [Cache.addItem, OrdMap.find?_set, OrdMap.mem_keys_set]
  by_cases hl : r.path b = item.contentLocation
  · simp [hl]
  · simp [hl]

theorem servable_setProtocol (h : r.Servable D played) (service : Nat) (p : DeliveryProtocol) :
    (r.setProtocol service p).Servable D played ↔
      (p = .hls → ∀ a, r.Offers service a → a ∈ played → r.Serves D service a) := by
  constructor
  · intro h' hp a ho ha
    exact h' service a ⟨ho, by simp [setProtocol, hp]⟩ ha
  · rintro hk x a ⟨ho, hp⟩ ha
    by_cases hx : x = service
    · subst hx
      exact hk (by simpa [setProtocol] using hp) a ho ha
    · exact h x a ⟨ho, by simpa [setProtocol, hx] using hp⟩ ha

theorem servable_newService (h : r.Servable D played) (p : DeliveryProtocol) :
    (r.newService p).Servable D played := by
  rintro x a ⟨⟨hx, k, hk⟩, hp⟩ ha
  by_cases hxn : x = r.nextService
  · subst hxn
    simp [newService] at hk
  · simp only [newService, ne_eq, hxn, not_false_eq_true, Function.update_of_ne] at hk hp
    have hserves := h x a ⟨⟨hx, k, hk⟩, hp⟩ ha
    exact ⟨hserves.1, by simpa [newService, hxn] using hserves.2⟩

theorem servable_register (h : r.Servable D played) (id : Str) (service : Nat) :
    (r.register id service).Servable D played ↔
      (r.protocol service = .hls → ∀ k a, (r.contentStreams service).find? k = some a →
        a ∈ played → r.Serves D service a) := by
  constructor
  · intro h' hp k a hk ha
    exact h' service a ⟨⟨⟨id, OrdMap.find?_set_self _ _ _⟩, k, hk⟩, hp⟩ ha
  · rintro hk x a ⟨⟨⟨id', hid⟩, k, hka⟩, hp⟩ ha
    simp only [register, OrdMap.find?_set] at hid
    split_ifs at hid with hi
    · cases hid
      exact hk hp k a hka ha
    · exact h x a ⟨⟨⟨id', hid⟩, k, hka⟩, hp⟩ ha

theorem servable_claimManifest (h : r.Servable D played) (service : Nat) (path : Str) :
    (r.claimManifest service path).Servable D played ↔ r.FreeFor played path none := by
  have hentry : ∀ b, (r.claimManifest service path).HasEntry b ↔
      if r.path b = path then r.seamless b ≠ true else r.HasEntry b := by
    intro b
    refine (hasEntry_addItem r (.playlist path 0 (.service service)) b).trans ?_
    simp [CacheItem.contentLocation]
  constructor
  · intro h' x b hb hp _ hs hpath
    have := (hentry b).mp (h' x b hb hp).1
    rw [if_pos hpath] at this
    exact this hs
  · intro hfree x b hb hp
    refine ⟨(hentry b).mpr ?_, (h x b hb hp).2⟩
    split_ifs with hpath
    · exact fun hs => hfree x b hb hp (by simp) hs hpath
    · exact (h x b hb hp).1

theorem servable_newStream (h : r.Servable D played) (hlt : ∀ a ∈ played, a < r.nextStream)
    (path : Str) (seamless : Bool) : (r.newStream path seamless).Servable D played := by
  intro x b hb hp
  have hne : b ≠ r.nextStream := (hlt b hp).ne
  have hserves := h x b hb hp
  simpa [Serves, HasEntry, newStream, hne] using hserves

theorem servable_add (h : r.Servable D played) (service address : Nat) (manifest : Str)
    (hadv : r.protocol service = .hls → ∀ k b,
      ((r.add service address).contentStreams service).find? k = some b →
      Advertises D manifest (r.path b)) :
    ((r.add service address).setManifest service manifest).Servable D played ↔
      (r.Registered service → r.protocol service = .hls → address ∈ played →
        r.HasEntry address) := by
  have hset : (r.add service address).contentStreams service =
      (r.contentStreams service).set (r.path address) address := by simp [add]
  constructor
  · intro h' hr hp ha
    have hk : ((r.add service address).contentStreams service).find? (r.path address) =
        some address := by
      rw [hset, OrdMap.find?_set_self]
    exact (h' service address ⟨⟨hr, _, hk⟩, hp⟩ ha).1
  · rintro hentry x b ⟨⟨hr, k, hk⟩, hp⟩ hb
    by_cases hx : x = service
    · subst hx
      refine ⟨?_, by simpa [setManifest, add] using hadv hp k b hk⟩
      change r.HasEntry b
      simp only [setManifest, hset, OrdMap.find?_set] at hk
      split_ifs at hk with hpath
      · cases hk
        exact hentry hr hp hb
      · exact (h x b ⟨⟨hr, k, hk⟩, hp⟩ hb).1
    · have hk' : (r.contentStreams x).find? k = some b := by
        simpa [setManifest, add, hx] using hk
      have hserves := h x b ⟨⟨hr, k, hk'⟩, hp⟩ hb
      exact ⟨hserves.1, by simpa [setManifest, add, hx] using hserves.2⟩

/-- What a new path must be like for a played stream. -/
def Repath (D : Type) [DoubleText D] (r : Registry) (played : List Nat) (address : Nat) (path : Str)
    (claimed : Bool) : Prop :=
  ∀ service, r.Variant service address → address ∈ played →
    Advertises D (r.manifest service) path ∧
      (claimed = true ∨ r.cache.find? path = some (.playlist path 0 (.stream address)))

theorem servable_redirect (h : r.Servable D played) {address : Nat}
    (hs : r.seamless address = true) (path : Str) :
    (r.redirect address path).Servable D played ↔ r.Repath D played address path false := by
  have hother : ∀ b, b ≠ address → ((r.redirect address path).HasEntry b ↔ r.HasEntry b) := by
    intro b hb
    simp [HasEntry, redirect, hb]
  have hself : (r.redirect address path).HasEntry address ↔
      r.cache.find? path = some (.playlist path 0 (.stream address)) := by
    simp [HasEntry, redirect, hs]
  constructor
  · intro h' service hv ha
    have hserves := h' service address hv ha
    exact ⟨by simpa [redirect] using hserves.2, .inr (hself.mp hserves.1)⟩
  · intro hre service b hv hb
    by_cases hba : b = address
    · subst hba
      obtain ⟨hadv, hentry⟩ := hre service hv hb
      exact ⟨hself.mpr (hentry.resolve_left (by simp)), by simpa [redirect] using hadv⟩
    · have hserves := h service b hv hb
      exact ⟨(hother b hba).mpr hserves.1, by simpa [redirect, hba] using hserves.2⟩

theorem servable_claimPlaylist (h : r.Servable D played) {address : Nat}
    (hs : r.seamless address = true) (path : Str) :
    ((r.redirect address path).claimPlaylist address).Servable D played ↔
      r.FreeFor played path (some address) ∧ r.Repath D played address path true := by
  have hpath : (r.redirect address path).path address = path := by simp [redirect]
  have hentry : ∀ b, ((r.redirect address path).claimPlaylist address).HasEntry b ↔
      if (r.redirect address path).path b = path then r.seamless b = true → b = address
      else (r.redirect address path).HasEntry b := by
    intro b
    refine (hasEntry_addItem (r.redirect address path) _ b).trans ?_
    rw [CacheItem.contentLocation, hpath]
    split_ifs with hb
    · rw [hb]
      simp only [CacheItem.playlist.injEq, PlaylistOwner.stream.injEq, true_and]
      exact ⟨fun he hsb => (he hsb).symm, fun he hsb => (he hsb).symm⟩
    · rfl
  have hother : ∀ b, b ≠ address → (r.redirect address path).path b = r.path b := by
    intro b hb
    simp [redirect, hb]
  constructor
  · refine fun h' => ⟨fun service b hv hb hba hsb hpb => ?_, fun service hv ha => ?_⟩
    · have hne : b ≠ address := by simpa using hba
      have he := (hentry b).mp (h' service b hv hb).1
      rw [if_pos ((hother b hne).trans hpb)] at he
      exact hne (he hsb)
    · have hserves := h' service address hv ha
      exact ⟨hpath ▸ hserves.2, .inl rfl⟩
  · rintro ⟨hfree, hre⟩ service b hv hb
    by_cases hba : b = address
    · subst hba
      refine ⟨(hentry b).mpr ?_, ?_⟩
      · rw [if_pos hpath]
        exact fun _ => rfl
      · have := (hre service hv hb).1
        rwa [← hpath] at this
    · have hserves := h service b hv hb
      refine ⟨(hentry b).mpr ?_, ?_⟩
      · rw [hother b hba]
        split_ifs with hpb
        · exact fun hsb => absurd hpb (hfree service b hv hb (by simpa using hba) hsb)
        · simpa [HasEntry, redirect, hba] using hserves.1
      · change Advertises D (r.manifest service) ((r.redirect address path).path b)
        rw [hother b hba]
        exact hserves.2

/-- The entry of a stream is there after a reception. -/
def Survives (r : Registry) (e : ReceptionEffect) (b : Nat) : Prop :=
  r.path b ∉ e.drops ∧
    if r.seamless b then r.path b ∉ e.stores ∧ r.HasEntry b
    else r.path b ∈ e.stores ∨ r.HasEntry b

theorem hasEntry_rewrites {e : ReceptionEffect} {c : Cache}
    (hc : Rewrites e.stores e.drops r.cache c) (b : Nat) :
    HasEntry { r with cache := c } b ↔ r.Survives e b := by
  unfold HasEntry Survives
  by_cases hd : r.path b ∈ e.drops
  · have hnone := hc.dropped _ hd
    rw [← OrdMap.find?_isSome, hnone]
    simp [hd]
  · by_cases hst : r.path b ∈ e.stores
    · obtain ⟨item, hitem, hne⟩ := hc.stored _ hst hd
      rw [← OrdMap.find?_isSome, hitem]
      by_cases hs : r.seamless b = true
      · simp [hs, hd, hst, (hne _ _).1]
      · simp [hs, hd, hst]
    · have hkept := hc.kept _ hd hst
      rw [← OrdMap.find?_isSome, hkept, OrdMap.find?_isSome]
      unfold HasEntry
      by_cases hs : r.seamless b = true
      · simp [hs, hd, hst]
      · simp [hs, hd, hst]

/-- A reception leaves the variants played so far their entries, and the stream
that it is a playlist of is advertised and has one. -/
def Undisturbed (D : Type) [DoubleText D] (r : Registry) (played : List Nat) (address : Nat)
    (e : ReceptionEffect) : Prop :=
  (∀ service b, r.Variant service b → b ∈ played → r.Survives e b) ∧
  (e.isPlaylist = true → ∀ service, r.Variant service address →
    r.Survives e address ∧ Advertises D (r.manifest service) (r.path address))

theorem servable_reception (h : r.Servable D played) {e : ReceptionEffect} {c : Cache}
    (hc : Rewrites e.stores e.drops r.cache c) (address : Nat) :
    Servable D { r with cache := c } (if e.isPlaylist then address :: played else played) ↔
      r.Undisturbed D played address e := by
  have hentry := hasEntry_rewrites (r := r) hc
  constructor
  · intro h'
    refine ⟨fun service b hv hb => (hentry b).mp (h' service b hv ?_).1, fun he service hv => ?_⟩
    · split_ifs
      · exact List.mem_cons_of_mem _ hb
      · exact hb
    · have hserves := h' service address hv (by simp [he])
      exact ⟨(hentry address).mp hserves.1, hserves.2⟩
  · rintro ⟨hold, hnew⟩ service b hv hb
    have hcases : b ∈ played ∨ e.isPlaylist = true ∧ b = address := by
      split_ifs at hb with he
      · rcases List.mem_cons.mp hb with rfl | hb
        · exact .inr ⟨he, rfl⟩
        · exact .inl hb
      · exact .inl hb
    rcases hcases with hb | ⟨he, rfl⟩
    · exact ⟨(hentry b).mpr (hold service b hv hb), (h service b hv hb).2⟩
    · obtain ⟨hsurvives, hadv⟩ := hnew he service hv
      exact ⟨(hentry b).mpr hsurvives, hadv⟩

end Registry

section Calls

variable {D : Type} [DoubleText D] (env : Environment D)

/-- The condition on a call of the handlers. -/
def World.CallKeeps (w : World D) (played : List Nat) : MiddlewareCall D → Prop
  | .setDeliveryProtocol service mimeType =>
    Service.deliveryProtocolOfMimeType mimeType = .hls → ∀ a, w.registry.Offers service a →
      a ∈ played → w.registry.Serves D service a
  | .setService _ service =>
    w.registry.protocol service = .hls → ∀ k a,
      (w.registry.contentStreams service).find? k = some a → a ∈ played →
        w.registry.Serves D service a
  | .readMasterManifest service manifest basePath =>
    ServiceAnnouncement.manifestFaults (w.registry.protocol service) D manifest basePath = [] →
      w.registry.FreeFor played (World.manifestLocation (w.registry.protocol service) basePath) none
  | .setCdnEndpoint address cdnEpt =>
    w.registry.seamless address = true → ∀ uri, env.rest.uri cdnEpt = some uri →
      (env.rest.httpClient uri.endpoint = true →
        w.registry.FreeFor played (pathOfUri uri) (some address)) ∧
      w.registry.Repath D played address (pathOfUri uri) (env.rest.httpClient uri.endpoint)
  | .addAndStartContentStream service address =>
    ¬ w.ledger.Blocked address → w.registry.Registered service →
      w.registry.protocol service = .hls → address ∈ played → w.registry.HasEntry address
  | .getService _ | .newService | .addName .. | .deliveryProtocol _ | .setBasePath _ | .basePath
  | .newStream _ | .contentStreamCount _ => True

theorem endpointRegistry_servable {r : Registry} {played : List Nat} (h : r.Servable D played)
    {address : Nat} (hs : r.seamless address = true) (cdnEpt : Str) :
    (World.endpointRegistry env.rest address cdnEpt r).Servable D played ↔
      ∀ uri, env.rest.uri cdnEpt = some uri →
        (env.rest.httpClient uri.endpoint = true →
          r.FreeFor played (pathOfUri uri) (some address)) ∧
        r.Repath D played address (pathOfUri uri) (env.rest.httpClient uri.endpoint) := by
  unfold World.endpointRegistry
  cases env.rest.uri cdnEpt with
  | none => exact iff_of_true h (by simp)
  | some uri =>
    simp only [Option.some.injEq, forall_eq']
    cases hc : env.rest.httpClient uri.endpoint with
    | true => simpa using Registry.servable_claimPlaylist h hs (pathOfUri uri)
    | false => simpa using Registry.servable_redirect h hs (pathOfUri uri)

theorem perform_servable {w : World D} {played : List Nat} (h : w.registry.Servable D played)
    (hlt : ∀ a ∈ played, a < w.registry.nextStream) (call : MiddlewareCall D) :
    (World.perform env call w).Ensures
      (fun _ w' => w'.registry.Servable D played ↔ w.CallKeeps env played call)
      (fun e w' => if e.isStdException = true then
          (w'.registry.Servable D played ↔ w.CallKeeps env played call)
        else w.CallKeeps env played call) := by
  cases call with
  | getService | deliveryProtocol | setBasePath | basePath | contentStreamCount =>
    exact iff_of_true h trivial
  | newService =>
    refine (World.registry_newService env w).mono ?_ (fun _ _ hf => hf.elim)
    rintro _ w' ⟨_, hw'⟩
    rw [hw']
    exact iff_of_true (Registry.servable_newService h _) trivial
  | addName service name lang =>
    refine (World.registry_addName env service name lang w).mono ?_ (fun _ _ hf => hf.elim)
    intro _ w' hw'
    rw [hw']
    exact iff_of_true h trivial
  | setDeliveryProtocol service mimeType =>
    refine (World.registry_setDeliveryProtocol env service mimeType w).mono ?_
      (fun _ _ hf => hf.elim)
    intro _ w' hw'
    rw [hw']
    exact Registry.servable_setProtocol h service _
  | readMasterManifest service manifest basePath =>
    refine (World.registry_readMasterManifest env service manifest basePath w).mono ?_ ?_
    · rintro _ w' ⟨hf, hw'⟩
      rw [hw', World.CallKeeps, Registry.servable_claimManifest h]
      exact ⟨fun hfree _ => hfree, fun hk => hk hf⟩
    · rintro e w' ⟨he, rfl⟩
      have hk : w'.CallKeeps env played (.readMasterManifest service manifest basePath) := by
        intro hf
        rw [hf] at he
        cases he
      split_ifs
      · exact iff_of_true h hk
      · exact hk
  | newStream s =>
    refine (World.registry_newStream env s w).mono ?_ (fun _ _ hf => hf.elim)
    rintro _ w' ⟨_, hw'⟩
    rw [hw']
    exact iff_of_true (Registry.servable_newStream h hlt _ _) trivial
  | setCdnEndpoint address cdnEpt =>
    have hiff : w.registry.seamless address = true → ∀ w' : World D,
        w'.registry = World.endpointRegistry env.rest address cdnEpt w.registry →
        (w'.registry.Servable D played ↔ w.CallKeeps env played (.setCdnEndpoint address cdnEpt)) := by
      intro hs w' hw'
      rw [hw', endpointRegistry_servable env h hs, World.CallKeeps]
      exact ⟨fun hk _ => hk, fun hk => hk hs⟩
    refine (World.registry_setCdnEndpoint env address cdnEpt w).mono ?_ ?_
    · exact fun _ w' h => hiff h.1 w' h.2
    · rintro e w' (⟨rfl, hs⟩ | ⟨he, hs, hw'⟩)
      · exact fun hs' => absurd hs' (by simp [hs])
      · rw [if_pos he]
        exact hiff hs w' hw'
  | addAndStartContentStream service address =>
    refine (World.registry_addAndStart env service address w).mono ?_ ?_
    · rintro _ w' ⟨hblocked, manifest, hw', hadv⟩
      rw [hw', Registry.servable_add h service address manifest hadv, World.CallKeeps]
      exact ⟨fun hk _ => hk, fun hk => hk hblocked⟩
    · rintro e w' ⟨rfl, hblocked⟩
      exact fun hn => absurd hblocked hn
  | setService id service => exact Registry.servable_register h id service

theorem le_nextStream_perform (call : MiddlewareCall D) (w : World D) :
    w.nextStream ≤ (World.perform env call w).state.nextStream := by
  cases call with
  | newStream s => exact Nat.le_succ _
  | readMasterManifest service manifest basePath =>
    simp only [World.perform, World.callReadMasterManifest]
    split <;> exact le_rfl
  | setCdnEndpoint address cdnEpt =>
    simp only [World.perform, World.callSetCdnEndpoint]
    split
    · exact le_rfl
    · split <;> exact le_rfl
  | addAndStartContentStream service address =>
    simp only [World.perform, World.addAndStartContentStream]
    split <;> exact le_rfl
  | getService | newService | addName | setDeliveryProtocol | deliveryProtocol | setBasePath
  | basePath | contentStreamCount | setService => exact le_rfl

end Calls

namespace Session

variable {D : Type} [DoubleText D] (env : Environment D) (cfg : Config)

def Servable (s : Session D) : Prop := s.running = true → s.world.registry.Servable D s.played

/-- The condition on a step. -/
def Keeps (s : Session D) (e : SessionEvent) : Prop :=
  s.running = true → match e with
  | .announcement _ => True
  | .call =>
    match s.handlers with
    | .call op _ :: _ => s.world.CallKeeps env s.played op
    | _ => True
  | .reception address indeterminate r => address < s.world.nextStream →
    s.world.receiveFault? address indeterminate r = none →
      s.world.registry.Undisturbed D s.played address (s.world.effect address indeterminate r)

/-- Only streams that exist have received anything. -/
def PlayedExist (s : Session D) : Prop := ∀ a ∈ s.played, a < s.world.registry.nextStream

theorem proceed_played (s : Session D) :
    (s.proceed env).played = s.played ∧
      s.world.nextStream ≤ (s.proceed env).world.nextStream := by
  unfold proceed
  match s.handlers with
  | [] => exact ⟨rfl, le_rfl⟩
  | .pure () :: rest => exact ⟨rfl, le_rfl⟩
  | .throw e :: rest =>
    dsimp only [raise]
    split_ifs <;> exact ⟨rfl, le_rfl⟩
  | .call op next :: rest =>
    have hnext := le_nextStream_perform env op s.world
    dsimp only
    cases hr : World.perform env op s.world with
    | ok r w =>
      rw [hr] at hnext
      exact ⟨rfl, hnext⟩
    | error e w =>
      rw [hr] at hnext
      dsimp only [raise]
      split_ifs <;> exact ⟨rfl, hnext⟩

theorem begin_playedExist {s : Session D} (hp : s.PlayedExist) (str : Str) :
    (s.begin env cfg str).PlayedExist := by
  have hr := readAnnouncement_registry env str s.world
  unfold begin
  intro a ha
  cases hread : readAnnouncement env str s.world with
  | ok bundles w =>
    rw [hread] at hr ha
    change a < w.registry.nextStream
    rw [hr]
    exact hp a ha
  | error e w =>
    rw [hread] at hr ha
    change a < w.registry.nextStream
    rw [hr]
    exact hp a ha

theorem receive_playedExist {s : Session D} (hp : s.PlayedExist) (address : Nat)
    (indeterminate : Int) (r : Reception) :
    (s.receive address indeterminate r).PlayedExist := by
  have hspec := s.world.receive_spec address indeterminate r
  dsimp only [receive]
  by_cases hlt : address < s.world.nextStream
  · rw [if_pos hlt]
    intro a ha
    change a < (s.world.receive address indeterminate r).1.registry.nextStream
    rw [hspec.registry]
    have ha' : a = address ∨ a ∈ s.played := by
      dsimp only at ha
      split_ifs at ha
      · exact List.mem_cons.mp ha
      · exact .inr ha
    rcases ha' with rfl | ha'
    · exact hlt
    · exact hp a ha'
  · rw [if_neg hlt]
    exact hp

theorem step_playedExist {s : Session D} (hp : s.PlayedExist) (e : SessionEvent) :
    (step env cfg s e).PlayedExist := by
  unfold step
  by_cases hrun : s.running = true
  · rw [if_pos hrun]
    cases e with
    | announcement str =>
      dsimp only
      split_ifs
      · exact begin_playedExist env cfg hp str
      · exact hp
    | call =>
      obtain ⟨hplayed, hnext⟩ := proceed_played env s
      intro a ha
      rw [hplayed] at ha
      exact (hp a ha).trans_le hnext
    | reception address indeterminate r => exact receive_playedExist hp address indeterminate r
  · rw [if_neg hrun]
    exact hp

theorem raise_servable_iff {s : Session D} {e : Fault} {w : World D} {rest : List (Handler D Unit)}
    {K : Prop} (h : if e.isStdException = true then (w.registry.Servable D s.played ↔ K) else K)
    (hrun : s.running = true) : (s.raise e w rest).Servable ↔ K := by
  unfold raise
  split_ifs at h with he
  · rw [if_pos he]
    exact ⟨fun hs => h.mp (hs hrun), fun hk _ => h.mpr hk⟩
  · rw [if_neg he]
    exact iff_of_true (fun hf => by cases hf) h

theorem proceed_servable_iff {s : Session D} (hrun : s.running = true) (hp : s.PlayedExist)
    (h : s.world.registry.Servable D s.played) :
    (s.proceed env).Servable ↔ match s.handlers with
      | .call op _ :: _ => s.world.CallKeeps env s.played op
      | _ => True := by
  unfold proceed
  match s.handlers with
  | [] => exact iff_of_true (fun _ => h) trivial
  | .pure () :: rest => exact iff_of_true (fun _ => h) trivial
  | .throw e :: rest =>
    refine raise_servable_iff ?_ hrun
    split_ifs
    · exact iff_of_true h trivial
    · trivial
  | .call op next :: rest =>
    have hop := perform_servable env h hp op
    dsimp only
    cases hr : World.perform env op s.world with
    | ok r w =>
      rw [hr] at hop
      exact ⟨fun hs => hop.mp (hs hrun), fun hk _ => hop.mpr hk⟩
    | error e w =>
      rw [hr] at hop
      exact raise_servable_iff hop hrun

theorem step_servable_iff {s : Session D} (hp : s.PlayedExist) (h : s.Servable)
    (e : SessionEvent) : (step env cfg s e).Servable ↔ s.Keeps env e := by
  by_cases hrun : s.running = true
  · unfold step Keeps
    rw [if_pos hrun]
    simp only [hrun, true_imp_iff]
    cases e with
    | announcement str =>
      dsimp only
      refine iff_of_true ?_ trivial
      split_ifs
      · have hr := readAnnouncement_registry env str s.world
        unfold begin
        cases hread : readAnnouncement env str s.world with
        | ok bundles w =>
          rw [hread] at hr
          intro _
          change w.registry.Servable D s.played
          rw [hr]
          exact h hrun
        | error e w => exact fun hf => by cases hf
      · exact h
    | call => exact proceed_servable_iff env hrun hp (h hrun)
    | reception address indeterminate r =>
      have hspec := s.world.receive_spec address indeterminate r
      dsimp only [receive]
      by_cases hlt : address < s.world.nextStream
      · rw [if_pos hlt]
        have hiff := Registry.servable_reception (h hrun) hspec.cache address
        rw [← hspec.registry, ← hspec.isPlaylist] at hiff
        constructor
        · exact fun hs _ hfault => hiff.mp (hs (by simp [hrun, hfault]))
        · intro hk hrun'
          simp only [Bool.and_eq_true, Option.isNone_iff_eq_none] at hrun'
          exact hiff.mpr (hk hlt hrun'.2)
      · rw [if_neg hlt]
        exact iff_of_true h (fun hl => absurd hl hlt)
  · have hstep : step env cfg s e = s := by
      unfold step
      rw [if_neg hrun]
    rw [hstep]
    exact iff_of_true h (fun hr => absurd hr hrun)

end Session

end MbmsMiddleware
