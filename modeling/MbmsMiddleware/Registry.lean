import MbmsMiddleware.StreamLedger

/-! Who serves what. All that the item map's generated entries depend on: the
services, the streams they hold, the paths, and the item map itself. -/

namespace MbmsMiddleware

structure Registry where
  services : OrdMap Str Nat
  protocol : Nat → DeliveryProtocol
  contentStreams : Nat → OrdMap Str Nat
  manifestPath : Nat → Str
  manifest : Nat → Str
  path : Nat → Str
  seamless : Nat → Bool
  nextService : Nat
  nextStream : Nat
  cache : Cache

namespace Registry

def Registered (r : Registry) (service : Nat) : Prop := ∃ id, r.services.find? id = some service

/-- A stream in a registered service. -/
def Offers (r : Registry) (service address : Nat) : Prop :=
  r.Registered service ∧ ∃ k, (r.contentStreams service).find? k = some address

/-- The owner is a registered service or a stream in one. -/
def Keeps (r : Registry) : PlaylistOwner → Prop
  | .service a => r.Registered a
  | .stream a => ∃ service, r.Offers service a

section Decidable

variable (r : Registry)

instance (service : Nat) : Decidable (r.Registered service) :=
  inferInstanceAs (Decidable (∃ id, r.services.find? id = some service))

instance (service address : Nat) : Decidable (r.Offers service address) :=
  inferInstanceAs (Decidable (r.Registered service ∧
    ∃ k, (r.contentStreams service).find? k = some address))

instance : (owner : PlaylistOwner) → Decidable (r.Keeps owner)
  | .service a => inferInstanceAs (Decidable (r.Registered a))
  | .stream a => decidable_of_iff (∃ e ∈ r.services.entries, r.Offers e.2 a)
    ⟨fun ⟨e, _, h⟩ => ⟨e.2, h⟩,
      fun ⟨service, ⟨id, hid⟩, hk⟩ => ⟨⟨id, service⟩, OrdMap.find?_eq_some.mp hid, ⟨id, hid⟩, hk⟩⟩

end Decidable

def setProtocol (r : Registry) (service : Nat) (protocol : DeliveryProtocol) : Registry :=
  { r with protocol := Function.update r.protocol service protocol }

def newService (r : Registry) (protocol : DeliveryProtocol) : Registry where
  services := r.services
  protocol := Function.update r.protocol r.nextService protocol
  contentStreams := Function.update r.contentStreams r.nextService .empty
  manifestPath := Function.update r.manifestPath r.nextService []
  manifest := Function.update r.manifest r.nextService []
  path := r.path
  seamless := r.seamless
  nextService := r.nextService + 1
  nextStream := r.nextStream
  cache := r.cache

def register (r : Registry) (id : Str) (service : Nat) : Registry :=
  { r with services := r.services.set id service }

def claimManifest (r : Registry) (service : Nat) (path : Str) : Registry :=
  { r with
    manifestPath := Function.update r.manifestPath service path
    cache := r.cache.addItem (.playlist path 0 (.service service)) }

def newStream (r : Registry) (path : Str) (seamless : Bool) : Registry :=
  { r with
    path := Function.update r.path r.nextStream path
    seamless := Function.update r.seamless r.nextStream seamless
    nextStream := r.nextStream + 1 }

def redirect (r : Registry) (address : Nat) (path : Str) : Registry :=
  { r with path := Function.update r.path address path }

def claimPlaylist (r : Registry) (address : Nat) : Registry :=
  { r with cache := r.cache.addItem (.playlist (r.path address) 0 (.stream address)) }

def add (r : Registry) (service address : Nat) : Registry :=
  { r with
    contentStreams := Function.update r.contentStreams service
      ((r.contentStreams service).set (r.path address) address) }

def setManifest (r : Registry) (service : Nat) (manifest : Str) : Registry :=
  { r with manifest := Function.update r.manifest service manifest }

end Registry

/-- The manifest lists a variant at the path. -/
def Advertises (D : Type) [DoubleText D] (manifest path : Str) : Prop :=
  ∃ pl : HlsPrimaryPlaylist D, manifest = pl.toString ∧ ∃ v ∈ pl.streams, v.uri = '/' :: path

namespace World

variable {D : Type}

def registry (w : World D) : Registry where
  services := w.services
  protocol a := (w.service a).deliveryProtocol
  contentStreams a := (w.service a).contentStreams
  manifestPath a := (w.service a).manifestPath
  manifest a := (w.service a).manifest
  path a := (w.stream a).content.playlistPath
  seamless a := (w.stream a).asSeamless?.isSome
  nextService := w.nextService
  nextStream := w.nextStream
  cache := w.memory.cache

theorem apply_update {α β : Type} (g : α → β) (f : Nat → α) (a : Nat) (x : α) :
    (fun b => g (Function.update f a x b)) = Function.update (fun b => g (f b)) a (g x) :=
  Function.comp_update g f a x

theorem registry_setService (w : World D) (a : Nat) (sv : Service D) :
    (w.setService a sv).registry = { w.registry with
      protocol := Function.update w.registry.protocol a sv.deliveryProtocol
      contentStreams := Function.update w.registry.contentStreams a sv.contentStreams
      manifestPath := Function.update w.registry.manifestPath a sv.manifestPath
      manifest := Function.update w.registry.manifest a sv.manifest } := by
  simp only [registry, setService, apply_update Service.deliveryProtocol,
    apply_update Service.contentStreams, apply_update Service.manifestPath,
    apply_update Service.manifest]

theorem registry_setStream (w : World D) (a : Nat) (s : AnyStream D) :
    (w.setStream a s).registry = { w.registry with
      path := Function.update w.registry.path a s.content.playlistPath
      seamless := Function.update w.registry.seamless a s.asSeamless?.isSome } := by
  simp only [registry, setStream, apply_update (fun s : AnyStream D => s.content.playlistPath),
    apply_update (fun s : AnyStream D => s.asSeamless?.isSome)]

variable [DoubleText D] (env : Environment D)

theorem registry_newService (w : World D) :
    (perform env .newService w).Ensures
      (fun a w' => a = w.registry.nextService ∧
        w'.registry = w.registry.newService env.indeterminate.deliveryProtocol)
      (fun _ _ => False) := by
  refine ⟨rfl, ?_⟩
  change { (w.setService w.nextService _).registry with nextService := w.nextService + 1 } = _
  rw [registry_setService]
  rfl

theorem registry_addName (service : Nat) (name lang : Str) (w : World D) :
    (perform env (.addName service name lang) w).Ensures (fun _ w' => w'.registry = w.registry)
      (fun _ _ => False) := by
  change (w.setService service _).registry = w.registry
  rw [registry_setService]
  simp [Service.addName, registry]

theorem registry_setDeliveryProtocol (service : Nat) (mimeType : Str) (w : World D) :
    (perform env (.setDeliveryProtocol service mimeType) w).Ensures
      (fun _ w' => w'.registry =
        w.registry.setProtocol service (Service.deliveryProtocolOfMimeType mimeType))
      (fun _ _ => False) := by
  change (w.setService service _).registry = _
  rw [registry_setService]
  simp [Service.setDeliveryProtocolFromMimeType, registry, Registry.setProtocol]

/-- Where a service serves its manifest. -/
def manifestLocation (protocol : DeliveryProtocol) (basePath : Str) : Str :=
  if protocol = .hls then basePath ++ "manifest.m3u8".toList else basePath ++ "manifest.mpd".toList

theorem readMasterManifest_ensures (self : Nat) (manifest basePath : Str) (sv : Service D)
    (cache : Cache) :
    (sv.readMasterManifest self manifest basePath cache).Ensures
      (fun r => ServiceAnnouncement.manifestFaults sv.deliveryProtocol D manifest basePath = [] ∧
        r.1.deliveryProtocol = sv.deliveryProtocol ∧ r.1.contentStreams = sv.contentStreams ∧
        r.1.manifestPath = manifestLocation sv.deliveryProtocol basePath ∧
        r.1.manifest = sv.manifest ∧
        r.2 = cache.addItem
          (.playlist (manifestLocation sv.deliveryProtocol basePath) 0 (.service self)))
      (fun e =>
        (ServiceAnnouncement.manifestFaults sv.deliveryProtocol D manifest basePath).head? = some e) := by
  unfold Service.readMasterManifest ServiceAnnouncement.manifestFaults manifestLocation
  cases hp : sv.deliveryProtocol with
  | hls =>
    cases (HlsPrimaryPlaylist.parse manifest basePath : Except Fault (HlsPrimaryPlaylist D)) with
    | error e => exact rfl
    | ok pl =>
      exact ⟨rfl, rfl, rfl, rfl, rfl, rfl⟩
  | dash => exact ⟨rfl, rfl, rfl, rfl, rfl, rfl⟩
  | rtp =>
    simp only [bind, Except.bind, pure, Except.pure, hp]
    exact ⟨rfl, rfl, rfl, rfl, rfl, rfl⟩

theorem registry_readMasterManifest (service : Nat) (manifest basePath : Str) (w : World D) :
    (perform env (.readMasterManifest service manifest basePath) w).Ensures
      (fun _ w' =>
        ServiceAnnouncement.manifestFaults (w.registry.protocol service) D manifest basePath = [] ∧
        w'.registry = w.registry.claimManifest service
          (manifestLocation (w.registry.protocol service) basePath))
      (fun e w' =>
        (ServiceAnnouncement.manifestFaults (w.registry.protocol service) D manifest
          basePath).head? = some e ∧ w' = w) := by
  have hread := readMasterManifest_ensures service manifest basePath (w.service service)
    w.memory.cache
  simp only [perform, callReadMasterManifest]
  cases hr : (w.service service).readMasterManifest service manifest basePath w.memory.cache with
  | error e =>
    rw [hr] at hread
    exact ⟨hread, rfl⟩
  | ok r =>
    rw [hr] at hread
    obtain ⟨hf, hprotocol, hstreams, hpath, hmanifest, hcache⟩ := hread
    refine ⟨hf, ?_⟩
    change { (w.setService service r.1).registry with cache := r.2 } = _
    rw [registry_setService, hprotocol, hstreams, hpath, hmanifest, hcache]
    simp [registry, Registry.claimManifest]

theorem registry_newStream (s : AnyStream D) (w : World D) :
    (perform env (.newStream s) w).Ensures
      (fun a w' => a = w.registry.nextStream ∧
        w'.registry = w.registry.newStream s.content.playlistPath s.asSeamless?.isSome)
      (fun _ _ => False) := by
  refine ⟨rfl, ?_⟩
  change { (w.setStream w.nextStream s).registry with nextStream := w.nextStream + 1 } = _
  rw [registry_setStream]
  rfl

/-- What becomes of the registry when a stream is given an endpoint; what was
set before an exception stays set. -/
def endpointRegistry (rest : CppRest) (address : Nat) (cdnEpt : Str) (r : Registry) : Registry :=
  match rest.uri cdnEpt with
  | none => r
  | some uri =>
    let r := r.redirect address (SeamlessContentStream.pathOfUri uri)
    if rest.httpClient uri.endpoint then r.claimPlaylist address else r

theorem registry_setCdnEndpoint (address : Nat) (cdnEpt : Str) (w : World D) :
    (perform env (.setCdnEndpoint address cdnEpt) w).Ensures
      (fun _ w' => w.registry.seamless address = true ∧
        w'.registry = endpointRegistry env.rest address cdnEpt w.registry)
      (fun e w' => e = .nullDereference ∧ w.registry.seamless address = false ∨
        e.isStdException = true ∧ w.registry.seamless address = true ∧
          w'.registry = endpointRegistry env.rest address cdnEpt w.registry) := by
  simp only [perform, callSetCdnEndpoint]
  cases hs : w.stream address with
  | basic cs => exact .inl ⟨rfl, by simp [registry, hs, AnyStream.asSeamless?]⟩
  | seamless s =>
    have hsa : w.registry.seamless address = true := by
      simp [registry, hs, AnyStream.asSeamless?]
    have hseamless : Function.update w.registry.seamless address true = w.registry.seamless :=
      Function.update_eq_self_iff.mpr hsa.symm
    have hregistry : ∀ (s' : SeamlessContentStream D) (cache : Cache),
        World.registry { w.setStream address (.seamless s') with
          memory := { w.memory with cache := cache } } =
        { w.registry with
          path := Function.update w.registry.path address s'.playlistPath
          cache := cache } := by
      intro s' cache
      change { (w.setStream address (.seamless s')).registry with cache := cache } = _
      rw [registry_setStream]
      simp only [AnyStream.asSeamless?, Option.isSome_some, hseamless, AnyStream.content]
    have hsame : Function.update w.registry.path address s.playlistPath = w.registry.path := by
      refine Function.update_eq_self_iff.mpr ?_
      simp [registry, hs, AnyStream.content]
    simp only [AnyStream.asSeamless?, SeamlessContentStream.setCdnEndpoint, endpointRegistry]
    cases env.rest.uri cdnEpt with
    | none =>
      refine .inr ⟨rfl, hsa, (hregistry s w.memory.cache).trans ?_⟩
      rw [hsame]
      rfl
    | some uri =>
      cases hc : env.rest.httpClient uri.endpoint with
      | true =>
        simp only [hc, if_true]
        refine ⟨hsa, (hregistry _ _).trans ?_⟩
        simp [Registry.claimPlaylist, Registry.redirect, registry]
      | false =>
        simp only [hc, Bool.false_eq_true, if_false]
        exact .inr ⟨rfl, hsa, (hregistry _ _).trans rfl⟩

theorem advertises_recreateManifest (sv : Service D) (hp : sv.deliveryProtocol = .hls)
    (stream : Nat → AnyStream D) {k : Str} {b : Nat} (hb : sv.contentStreams.find? k = some b) :
    Advertises D (sv.recreateManifest env.indeterminate stream).manifest
      (stream b).content.playlistPath := by
  simp only [Service.recreateManifest, hp]
  refine ⟨_, rfl, Service.variant env.indeterminate (stream b).content, ?_, rfl⟩
  exact List.mem_map.mpr ⟨⟨k, b⟩, OrdMap.find?_eq_some.mp hb, rfl⟩

theorem recreateManifest_eq (sv : Service D) (stream : Nat → AnyStream D) :
    ∃ manifest, sv.recreateManifest env.indeterminate stream = { sv with manifest := manifest } := by
  unfold Service.recreateManifest
  split
  · exact ⟨_, rfl⟩
  · exact ⟨_, rfl⟩
  · exact ⟨sv.manifest, rfl⟩

omit [DoubleText D] in
theorem start_playlistPath {cs cs' : ContentStream D} (h : cs.start = .ok cs') :
    cs'.playlistPath = cs.playlistPath := by
  obtain ⟨receiver, rfl⟩ := ContentStream.eq_of_start h
  rfl

/-- A stream is kept in a service under its path, and started. -/
theorem registry_added (w : World D) (service address : Nat) {cs cs' : ContentStream D}
    (hcs : cs.playlistPath = w.registry.path address) (hcs' : cs'.playlistPath = cs.playlistPath)
    (passed : List Nat) (stream : Nat → AnyStream D) :
    let sv := { w.service service with
      contentStreams := (w.service service).contentStreams.set cs.playlistPath address }
    let s := w.stream address
    World.registry (((World.setService { (w.setStream address (s.setContent cs)) with
        passed := passed } service sv).setStream address (s.setContent cs')).setService service
          (sv.recreateManifest env.indeterminate stream)) =
      (w.registry.add service address).setManifest service
        (sv.recreateManifest env.indeterminate stream).manifest := by
  intro sv s
  obtain ⟨manifest, hm⟩ := recreateManifest_eq env sv stream
  have hpath : Function.update w.registry.path address cs.playlistPath = w.registry.path := by
    rw [hcs, Function.update_eq_self]
  have hseamless : Function.update w.registry.seamless address s.asSeamless?.isSome =
      w.registry.seamless := Function.update_eq_self ..
  have hpassed : World.registry { (w.setStream address (s.setContent cs)) with passed := passed } =
      (w.setStream address (s.setContent cs)).registry := rfl
  rw [hm, registry_setService, registry_setStream, registry_setService, hpassed, registry_setStream]
  simp only [AnyStream.content_setContent, AnyStream.isSome_asSeamless?_setContent, hcs', hpath,
    hseamless, Function.update_idem]
  simp [Registry.add, Registry.setManifest, sv, hcs, registry]

theorem registry_addAndStart (service address : Nat) (w : World D) :
    (perform env (.addAndStartContentStream service address) w).Ensures
      (fun _ w' => ¬ w.ledger.Blocked address ∧ ∃ manifest,
        w'.registry = (w.registry.add service address).setManifest service manifest ∧
        (w.registry.protocol service = .hls → ∀ k b,
          ((w.registry.add service address).contentStreams service).find? k = some b →
          Advertises D manifest (w.registry.path b)))
      (fun e _ => e = .terminate ∧ w.ledger.Blocked address) := by
  have hledger := ledger_addAndStart env service address w
  obtain ⟨r, c, b, f, hm⟩ := (w.service service).matchStream_eq (w.stream address).content
  simp only [perform, addAndStartContentStream] at hledger ⊢
  generalize hcs : (w.service service).matchStream (w.stream address).content = cs at hledger ⊢
  have hpath : cs.playlistPath = (w.stream address).content.playlistPath := by
    rw [← hcs, hm]
  cases hstart : cs.start with
  | error e =>
    rw [hstart] at hledger
    exact ⟨hledger.1, hledger.2.1⟩
  | ok cs' =>
    rw [hstart] at hledger
    refine ⟨hledger.1, _, registry_added env w service address hpath (start_playlistPath hstart)
      (w.passed ++ [address]) _, fun hp k b hb => ?_⟩
    have hb' : ((w.service service).contentStreams.set cs.playlistPath address).find? k = some b := by
      simpa [Registry.add, hpath, registry] using hb
    have hadv := advertises_recreateManifest env ({ w.service service with
      contentStreams := (w.service service).contentStreams.set cs.playlistPath address }) hp
      (Function.update (Function.update w.stream address ((w.stream address).setContent cs)) address
        ((w.stream address).setContent cs')) hb'
    have hb'' : (Function.update (Function.update w.stream address
        ((w.stream address).setContent cs)) address
        ((w.stream address).setContent cs') b).content.playlistPath = w.registry.path b := by
      by_cases hba : b = address
      · subst hba
        simp [start_playlistPath hstart, hpath, registry]
      · simp [hba, registry]
    rwa [hb''] at hadv

end World

end MbmsMiddleware
