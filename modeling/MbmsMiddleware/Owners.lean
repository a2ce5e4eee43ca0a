import MbmsMiddleware.ConditionalRuns
import MbmsMiddleware.OwnService
import MbmsMiddleware.Session

/-! The owners of the generated entries. An entry comes into the item map before
its owner is registered, so in between some owners are still to be registered. -/

namespace MbmsMiddleware

open ServiceAnnouncement

namespace Registry

/-- The item map has a generated playlist of the owner under the key. -/
def Generates (r : Registry) (key : Str) (owner : PlaylistOwner) : Prop :=
  ∃ location receivedAt, r.cache.find? key = some (.playlist location receivedAt owner)

/-- Every generated playlist belongs to a registered service or to a stream in
one, and is found where its owner is served. -/
structure Owned (r : Registry) : Prop where
  service : ∀ key a, r.Generates key (.service a) → r.Registered a ∧ r.manifestPath a = key
  stream : ∀ key a, r.Generates key (.stream a) →
    (∃ service, r.Offers service a) ∧ r.seamless a = true ∧ r.path a = key

/-- The owners of generated playlists are registered, or are among the given. -/
def Awaited (r : Registry) (given : List PlaylistOwner) : Prop :=
  ∀ key owner, r.Generates key owner → r.Keeps owner ∨ owner ∈ given

/-- A service that is registered or at hand. -/
def Serving (services : OrdMap Str Nat) (own : Option Nat) (service : Nat) : Prop :=
  own = some service ∨ ∃ id, services.find? id = some service

/-- As `Owned`, where the service at hand may not be registered yet, and the
pending streams not be added. -/
structure Owners (services : OrdMap Str Nat) (own : Option Nat) (pending : List Nat)
    (r : Registry) : Prop where
  same : r.services = services
  made : ∀ a, Serving services own a → a < r.nextService
  bounded : ∀ a ∈ pending, a < r.nextStream
  service : ∀ key a, r.Generates key (.service a) →
    Serving services own a ∧ r.manifestPath a = key
  stream : ∀ key a, r.Generates key (.stream a) →
    a < r.nextStream ∧ r.seamless a = true ∧ r.path a = key ∧
      (a ∈ pending ∨ ∃ service k, Serving services own service ∧
        (r.contentStreams service).find? k = some a)

theorem generates_addItem (r : Registry) (location key : Str) (receivedAt : Nat)
    (owner owner' : PlaylistOwner) :
    Generates { r with cache := r.cache.addItem (.playlist location receivedAt owner) } key owner' ↔
      if key = location then owner' = owner else r.Generates key owner' := by
  unfold Generates
  simp only [Cache.addItem, OrdMap.find?_set, CacheItem.contentLocation]
  by_cases hk : key = location
  · simp [hk, eq_comm]
  · simp [hk]

instance (r : Registry) (key : Str) (owner : PlaylistOwner) : Decidable (r.Generates key owner) :=
  match h : r.cache.find? key with
  | some (.playlist location receivedAt owner') => decidable_of_iff (owner' = owner) <| by
    simp [Generates, h]
  | some (.file ..) | some (.segment ..) | some (.manifest ..) | none => .isFalse <| by
    simp [Generates, h]

section Operations

variable {r : Registry} {services : OrdMap Str Nat} {own : Option Nat} {pending : List Nat}

theorem serving_none {a : Nat} : Serving services none a ↔ ∃ id, services.find? id = some a := by
  simp [Serving]

theorem Owners.owned (h : Owners services none [] r) : r.Owned where
  service key a hg := by
    obtain ⟨hserving, hpath⟩ := h.service key a hg
    obtain ⟨id, hid⟩ := serving_none.mp hserving
    exact ⟨⟨id, by rw [h.same, hid]⟩, hpath⟩
  stream key a hg := by
    obtain ⟨-, hs, hpath, hm⟩ := h.stream key a hg
    refine ⟨?_, hs, hpath⟩
    rcases hm with hm | ⟨service, k, hserving, hk⟩
    · cases hm
    · obtain ⟨id, hid⟩ := serving_none.mp hserving
      exact ⟨service, ⟨id, by rw [h.same, hid]⟩, k, hk⟩

theorem Owners.mono {pending' : List Nat} (h : Owners services own pending r)
    (hsub : pending ⊆ pending') (hlt : ∀ a ∈ pending', a < r.nextStream) :
    Owners services own pending' r where
  same := h.same
  made := h.made
  bounded := hlt
  service := h.service
  stream key a hg := by
    obtain ⟨ha, hs, hpath, hm⟩ := h.stream key a hg
    exact ⟨ha, hs, hpath, hm.imp_left fun hm => hsub hm⟩

theorem Owners.congr {pending' : List Nat} (h : Owners services own pending r)
    (hm : ∀ a, a ∈ pending ↔ a ∈ pending') : Owners services own pending' r :=
  h.mono (fun a ha => (hm a).mp ha) (fun a ha => h.bounded a ((hm a).mpr ha))

theorem Owners.cons (h : Owners services own pending r) {a : Nat} (ha : a < r.nextStream) :
    Owners services own (a :: pending) r := by
  refine h.mono (List.subset_cons_self ..) fun b hb => ?_
  rcases List.mem_cons.mp hb with rfl | hb
  · exact ha
  · exact h.bounded b hb

/-- Where no owner is awaited, nothing is pending. -/
theorem Owners.of_awaited (h : Owners services own pending r) (ha : r.Awaited []) :
    Owners r.services none [] r where
  same := rfl
  made a ha := h.made a (.inr (h.same ▸ serving_none.mp ha))
  bounded := by simp
  service key a hg := by
    have hkept := (ha key (.service a) hg).resolve_right List.not_mem_nil
    exact ⟨serving_none.mpr hkept, (h.service key a hg).2⟩
  stream key a hg := by
    obtain ⟨hlt, hs, hpath, -⟩ := h.stream key a hg
    obtain ⟨service, hreg, k, hk⟩ := (ha key (.stream a) hg).resolve_right List.not_mem_nil
    exact ⟨hlt, hs, hpath, .inr ⟨service, k, serving_none.mpr hreg, hk⟩⟩

theorem Owners.awaited (h : Owners services none [] r) : r.Awaited [] := by
  intro key owner hg
  cases owner with
  | service a => exact .inl (h.owned.service key a hg).1
  | stream a => exact .inl (h.owned.stream key a hg).1

theorem Owners.newService (h : Owners services none [] r) (protocol : DeliveryProtocol) :
    Owners services (some r.nextService) [] (r.newService protocol) where
  same := h.same
  made a ha := by
    rcases ha with ha | ha
    · cases ha
      exact Nat.lt_succ_self _
    · exact (h.made a (serving_none.mpr ha)).trans (Nat.lt_succ_self _)
  bounded := by simp
  service key a hg := by
    obtain ⟨hserving, hpath⟩ := h.service key a hg
    refine ⟨.inr (serving_none.mp hserving), ?_⟩
    have hne : a ≠ r.nextService := (h.made a hserving).ne
    simp [Registry.newService, hne, hpath]
  stream key a hg := by
    obtain ⟨ha, hs, hpath, hm⟩ := h.stream key a hg
    refine ⟨ha, hs, hpath, ?_⟩
    rcases hm with hm | ⟨service, k, hserving, hk⟩
    · cases hm
    · refine .inr ⟨service, k, .inr (serving_none.mp hserving), ?_⟩
      have hne : service ≠ r.nextService := (h.made service hserving).ne
      simp [Registry.newService, hne, hk]

theorem Owners.setProtocol (h : Owners services own pending r) (service : Nat)
    (protocol : DeliveryProtocol) : Owners services own pending (r.setProtocol service protocol) :=
  ⟨h.same, h.made, h.bounded, h.service, h.stream⟩

theorem Owners.setManifest (h : Owners services own pending r) (service : Nat) (manifest : Str) :
    Owners services own pending (r.setManifest service manifest) :=
  ⟨h.same, h.made, h.bounded, h.service, h.stream⟩

theorem Owners.claimManifest {service : Nat} (h : Owners services own pending r)
    (hservice : Serving services own service) {path : Str}
    (hkeep : r.Generates (r.manifestPath service) (.service service) →
      path = r.manifestPath service) :
    Owners services own pending (r.claimManifest service path) where
  same := h.same
  made := h.made
  bounded := h.bounded
  service key a hg := by
    replace hg := (generates_addItem r path key 0 (.service service) (.service a)).mp hg
    change _ ∧ Function.update r.manifestPath service path a = key
    split_ifs at hg with hk
    · cases hg
      exact ⟨hservice, by rw [Function.update_self, hk]⟩
    · obtain ⟨hserving, hpath⟩ := h.service key a hg
      refine ⟨hserving, ?_⟩
      have hne : a ≠ service := by
        rintro rfl
        rw [hpath] at hkeep
        exact hk (hkeep hg).symm
      rw [Function.update_of_ne hne, hpath]
  stream key a hg := by
    replace hg := (generates_addItem r path key 0 (.service service) (.stream a)).mp hg
    split_ifs at hg with hk
    exact h.stream key a hg

theorem Owners.newStream (h : Owners services own pending r) (path : Str) (seamless : Bool) :
    Owners services own pending (r.newStream path seamless) where
  same := h.same
  made := h.made
  bounded a ha := (h.bounded a ha).trans (Nat.lt_succ_self _)
  service := h.service
  stream key a hg := by
    obtain ⟨ha, hs, hpath, hm⟩ := h.stream key a hg
    refine ⟨ha.trans (Nat.lt_succ_self _), ?_, ?_, hm⟩
    · simp [Registry.newStream, ha.ne, hs]
    · simp [Registry.newStream, ha.ne, hpath]

theorem Owners.redirect (h : Owners services own pending r) {address : Nat} {path : Str}
    (hkeep : r.Generates (r.path address) (.stream address) → path = r.path address) :
    Owners services own pending (r.redirect address path) where
  same := h.same
  made := h.made
  bounded := h.bounded
  service := h.service
  stream key a hg := by
    obtain ⟨ha, hs, hpath, hm⟩ := h.stream key a hg
    refine ⟨ha, hs, ?_, hm⟩
    change Function.update r.path address path a = key
    by_cases haa : a = address
    · subst haa
      rw [hpath] at hkeep
      rw [Function.update_self]
      exact hkeep hg
    · rw [Function.update_of_ne haa, hpath]

theorem Owners.claimPlaylist (h : Owners services own pending r) {address : Nat}
    (hm : address ∈ pending) (hs : r.seamless address = true) :
    Owners services own pending (r.claimPlaylist address) where
  same := h.same
  made := h.made
  bounded := h.bounded
  service key a hg := by
    replace hg := (generates_addItem r _ key 0 (.stream address) (.service a)).mp hg
    split_ifs at hg with hk
    exact h.service key a hg
  stream key a hg := by
    replace hg := (generates_addItem r _ key 0 (.stream address) (.stream a)).mp hg
    split_ifs at hg with hk
    · cases hg
      exact ⟨h.bounded address hm, hs, hk.symm, .inl hm⟩
    · exact h.stream key a hg

/-- No stream that a generated playlist belongs to is lost from a service when
the stream is added. -/
def NoneDisplaced (r : Registry) (service address : Nat) : Prop :=
  ∀ b ≠ address, (r.contentStreams service).find? (r.path address) = some b →
    r.Generates (r.path b) (.stream b) →
      ∃ k ≠ r.path address, (r.contentStreams service).find? k = some b

instance (r : Registry) (service address : Nat) : Decidable (r.NoneDisplaced service address) :=
  decidable_of_iff (∀ b ∈ (r.contentStreams service).find? (r.path address), b ≠ address →
      r.Generates (r.path b) (.stream b) →
        ∃ k, k ≠ r.path address ∧ (r.contentStreams service).find? k = some b)
    ⟨fun h b hb hf hg => h b hf hb hg, fun h b hf hb hg => h b hb hf hg⟩

theorem Owners.add {service address : Nat} (h : Owners services own (address :: pending) r)
    (hservice : Serving services own service) (hkeep : r.NoneDisplaced service address) :
    Owners services own pending (r.add service address) where
  same := h.same
  made := h.made
  bounded a ha := h.bounded a (List.mem_cons_of_mem _ ha)
  service := h.service
  stream key a hg := by
    obtain ⟨ha, hs, hpath, hm⟩ := h.stream key a hg
    refine ⟨ha, hs, hpath, ?_⟩
    have hset : (r.add service address).contentStreams service =
        (r.contentStreams service).set (r.path address) address := Function.update_self ..
    by_cases haa : a = address
    · subst haa
      exact .inr ⟨service, r.path a, hservice, by rw [hset, OrdMap.find?_set_self]⟩
    · rcases hm with hm | ⟨service', k, hserving, hk⟩
      · exact .inl (List.mem_of_ne_of_mem haa hm)
      · by_cases hss : service' = service
        · subst hss
          have hkept : ∃ k' ≠ r.path address, (r.contentStreams service').find? k' = some a := by
            by_cases hkp : k = r.path address
            · rw [hkp] at hk
              exact hkeep a haa hk (by rwa [hpath])
            · exact ⟨k, hkp, hk⟩
          obtain ⟨k', hkp, hk'⟩ := hkept
          exact .inr ⟨service', k', hserving, by rw [hset, OrdMap.find?_set_of_ne _ _ hkp, hk']⟩
        · refine .inr ⟨service', k, hserving, ?_⟩
          change (Function.update r.contentStreams service _ service').find? k = _
          rw [Function.update_of_ne hss, hk]

/-- The service at hand is registered under an id without a service. -/
theorem Owners.register {service : Nat} {id : Str} (h : Owners services (some service) [] r)
    (hid : services.find? id = none) :
    Owners (services.set id service) none [] (r.register id service) := by
  have hserving : ∀ a, Serving services (some service) a →
      Serving (services.set id service) none a := by
    rintro a (ha | ⟨id', hid'⟩)
    · cases ha
      exact serving_none.mpr ⟨id, OrdMap.find?_set_self _ _ _⟩
    · have hne : id' ≠ id := by
        rintro rfl
        rw [hid] at hid'
        cases hid'
      exact serving_none.mpr ⟨id', by rw [OrdMap.find?_set_of_ne _ _ hne, hid']⟩
  have hmade : ∀ a, Serving (services.set id service) none a →
      Serving services (some service) a := by
    intro a ha
    obtain ⟨id', hid'⟩ := serving_none.mp ha
    rw [OrdMap.find?_set] at hid'
    split_ifs at hid' with hi
    · exact .inl hid'
    · exact .inr ⟨id', hid'⟩
  constructor
  · rw [← h.same]
    rfl
  · exact fun a ha => h.made a (hmade a ha)
  · simp
  · exact fun key a hg => (h.service key a hg).imp_left (hserving a)
  · intro key a hg
    obtain ⟨ha, hs, hpath, hm⟩ := h.stream key a hg
    exact ⟨ha, hs, hpath, hm.imp_right fun ⟨s, k, hserv, hk⟩ => ⟨s, k, hserving s hserv, hk⟩⟩

/-- The service at hand is given up. It has no streams, and the item map has no
manifest of it. -/
theorem Owners.discard {service : Nat} (h : Owners services (some service) [] r)
    (hempty : ∀ k, (r.contentStreams service).find? k = none)
    (hno : ¬ r.Generates (r.manifestPath service) (.service service)) :
    Owners services none [] r where
  same := h.same
  made a ha := h.made a (.inr (serving_none.mp ha))
  bounded := by simp
  service key a hg := by
    obtain ⟨hserving, hpath⟩ := h.service key a hg
    refine ⟨?_, hpath⟩
    rcases hserving with ha | ha
    · cases ha
      rw [← hpath] at hg
      exact absurd hg hno
    · exact serving_none.mpr ha
  stream key a hg := by
    obtain ⟨ha, hs, hpath, hm⟩ := h.stream key a hg
    refine ⟨ha, hs, hpath, hm.imp_right ?_⟩
    rintro ⟨s, k, hserv, hk⟩
    rcases hserv with hs' | hs'
    · cases hs'
      rw [hempty k] at hk
      cases hk
    · exact ⟨s, k, serving_none.mpr hs', hk⟩

end Operations

section Awaiting

variable {r : Registry} {services : OrdMap Str Nat} {own : Option Nat} {pending : List Nat}
  {given : List PlaylistOwner}

/-- An owner that is not registered is awaited once it is given an entry. -/
def handOut (r : Registry) (owner : PlaylistOwner) (given : List PlaylistOwner) :
    List PlaylistOwner :=
  if r.Keeps owner then given else owner :: given

theorem Awaited.handOut (h : r.Awaited given) (location : Str) (owner : PlaylistOwner) :
    Awaited { r with cache := r.cache.addItem (.playlist location 0 owner) }
      (r.handOut owner given) := by
  intro key owner' hg
  have hkept : r.Keeps owner' ∨ owner' ∈ r.handOut owner given := by
    rw [generates_addItem] at hg
    unfold Registry.handOut
    by_cases hk : key = location
    · rw [if_pos hk] at hg
      subst hg
      split_ifs with hkeep
      · exact .inl hkeep
      · exact .inr List.mem_cons_self
    · rw [if_neg hk] at hg
      split_ifs
      · exact h key owner' hg
      · exact (h key owner' hg).imp_right (List.mem_cons_of_mem _)
  cases owner' <;> exact hkept

theorem Awaited.newService (h : r.Awaited given) (ho : Owners services none [] r)
    (protocol : DeliveryProtocol) : (r.newService protocol).Awaited given := by
  intro key owner hg
  refine (h key owner hg).imp_left fun hkept => ?_
  cases owner with
  | service a => exact hkept
  | stream a =>
    obtain ⟨service, ⟨id, hid⟩, k, hk⟩ := hkept
    have hne : service ≠ r.nextService :=
      (ho.made service (serving_none.mpr ⟨id, ho.same ▸ hid⟩)).ne
    exact ⟨service, ⟨id, hid⟩, k, by simpa [Registry.newService, hne] using hk⟩

/-- A stream in a registered service is not awaited any longer. -/
def settle (r : Registry) (service address : Nat) (given : List PlaylistOwner) :
    List PlaylistOwner :=
  if r.Registered service then given.filter (· ≠ .stream address) else given

theorem Awaited.add {service address : Nat} (h : r.Awaited given)
    (ho : Owners services own (address :: pending) r) (hkeep : r.NoneDisplaced service address) :
    (r.add service address).Awaited (r.settle service address given) := by
  have hset : (r.add service address).contentStreams service =
      (r.contentStreams service).set (r.path address) address := Function.update_self ..
  have hother : ∀ s ≠ service, (r.add service address).contentStreams s = r.contentStreams s :=
    fun s hs => Function.update_of_ne hs ..
  have hmem : ∀ owner ∈ given, owner ≠ .stream address →
      owner ∈ r.settle service address given := by
    intro owner ho hne
    unfold settle
    split_ifs
    · simp [ho, hne]
    · exact ho
  intro key owner hg
  replace hg : r.Generates key owner := hg
  cases owner with
  | service a => exact (h key _ hg).imp id fun ha => hmem _ ha (by simp)
  | stream b =>
    by_cases hb : b = address
    · subst hb
      by_cases hreg : r.Registered service
      · exact .inl ⟨service, hreg, r.path b, by rw [hset, OrdMap.find?_set_self]⟩
      · rcases h key _ hg with ⟨s, hs, k, hk⟩ | ha
        · have hne : s ≠ service := fun he => hreg (he ▸ hs)
          exact .inl ⟨s, hs, k, by rw [hother s hne, hk]⟩
        · exact .inr (by simpa [settle, hreg] using ha)
    · rcases h key _ hg with ⟨s, hs, k, hk⟩ | ha
      · left
        by_cases hss : s = service
        · subst hss
          by_cases hkp : k = r.path address
          · rw [hkp] at hk
            rw [← (ho.stream key b hg).2.2.1] at hg
            obtain ⟨k', hne, hk'⟩ := hkeep b hb hk hg
            exact ⟨s, hs, k', by rw [hset, OrdMap.find?_set_of_ne _ _ hne, hk']⟩
          · exact ⟨s, hs, k, by rw [hset, OrdMap.find?_set_of_ne _ _ hkp, hk]⟩
        · exact ⟨s, hs, k, by rw [hother s hss, hk]⟩
      · exact .inr (hmem _ ha (by simpa using hb))

end Awaiting

end Registry

end MbmsMiddleware
