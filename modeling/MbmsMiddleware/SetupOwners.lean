import MbmsMiddleware.CallLog
import MbmsMiddleware.DeliveryFormats
import MbmsMiddleware.Owners

/-! The owners of the generated entries in a set-up. Its streams are all added
in the end, so it depends on what its calls take away from the owners. -/

namespace MbmsMiddleware

open ServiceAnnouncementXmlElements ServiceAnnouncement Registry

namespace World

variable {D : Type} [DoubleText D] (env : Environment D)

/-- A call neither moves an owner away from its generated playlist nor puts
another stream in its place, and a new service with a manifest has streams. -/
def KeepsOwners (call : MiddlewareCall D) (w : World D) : Prop :=
  match call with
  | .readMasterManifest service manifest basePath =>
    manifestFaults (w.registry.protocol service) D manifest basePath = [] →
      w.registry.Generates (w.registry.manifestPath service) (.service service) →
        manifestLocation (w.registry.protocol service) basePath = w.registry.manifestPath service
  | .setCdnEndpoint address cdnEpt => ∀ uri ∈ env.rest.uri cdnEpt,
    w.registry.Generates (w.registry.path address) (.stream address) →
      SeamlessContentStream.pathOfUri uri = w.registry.path address
  | .addAndStartContentStream service address =>
    ¬ w.ledger.Blocked address → w.registry.NoneDisplaced service address
  | .contentStreamCount service =>
    ¬ w.registry.Registered service →
      w.registry.Generates (w.registry.manifestPath service) (.service service) →
        (w.service service).contentStreams.size > 0
  | _ => True

instance (call : MiddlewareCall D) (w : World D) : Decidable (KeepsOwners env call w) :=
  match call with
  | .readMasterManifest .. => inferInstanceAs (Decidable (_ → _ → _))
  | .setCdnEndpoint .. => inferInstanceAs (Decidable (∀ uri ∈ _, _ → _))
  | .addAndStartContentStream .. => inferInstanceAs (Decidable (¬ (_ ∧ _) → _))
  | .contentStreamCount _ => inferInstanceAs (Decidable (_ → _ → _))
  | .getService _ | .newService | .addName .. | .setDeliveryProtocol .. | .deliveryProtocol _
  | .setBasePath _ | .basePath | .newStream _ | .setService .. => .isTrue trivial

/-- The owners that have an entry without being registered, after one more call. -/
def await (given : List PlaylistOwner) (c : MiddlewareCall D × World D) : List PlaylistOwner :=
  match c.1 with
  | .readMasterManifest service manifest basePath =>
    if manifestFaults (c.2.registry.protocol service) D manifest basePath = [] then
      c.2.registry.handOut (.service service) given
    else given
  | .setCdnEndpoint address cdnEpt =>
    if endpointFaults env.rest cdnEpt = [] then c.2.registry.handOut (.stream address) given
    else given
  | .addAndStartContentStream service address => c.2.registry.settle service address given
  | _ => given

/-- The owners that are awaited after the calls of a description. -/
def awaited (log : List (MiddlewareCall D × World D)) : List PlaylistOwner :=
  log.foldl (await env) []

/-- What is known of the owners while some are not registered. -/
structure Owning (services : OrdMap Str Nat) (own : Option Nat) (pending : List Nat)
    (t : World D × List (MiddlewareCall D × World D)) : Prop where
  owners : Owners services own pending t.1.registry
  awaited : t.1.registry.Awaited (awaited env t.2)

/-- If its calls keep the owners, a program ends as `Q` says or with what is
known of the owners while some are not registered. -/
abbrev Keeping {α : Type} (Q : α → World D × List (MiddlewareCall D × World D) → Prop)
    (p : Handler D α) (t : World D × List (MiddlewareCall D × World D)) : Prop :=
  Program.Yields (Program.logged (perform env)) (fun call t => KeepsOwners env call t.1) Q
    (fun e t' => e.isStdException = true → ∃ services own pending,
      Owning env services own pending t') p t

variable {env} {services : OrdMap Str Nat} {own : Option Nat} {pending : List Nat}
  {t : World D × List (MiddlewareCall D × World D)}

theorem awaited_append (log : List (MiddlewareCall D × World D))
    (c : MiddlewareCall D × World D) : awaited env (log ++ [c]) = await env (awaited env log) c := by
  simp [awaited]

namespace Owning

theorem cons (h : Owning env services own pending t) {a : Nat}
    (ha : a < t.1.registry.nextStream) : Owning env services own (a :: pending) t :=
  ⟨h.owners.cons ha, h.awaited⟩

theorem congr {pending' : List Nat} (h : Owning env services own pending t)
    (hm : ∀ a, a ∈ pending ↔ a ∈ pending') : Owning env services own pending' t :=
  ⟨h.owners.congr hm, h.awaited⟩

theorem mono {pending' : List Nat} (h : Owning env services own pending t)
    (hsub : pending ⊆ pending') (hlt : ∀ a ∈ pending', a < t.1.registry.nextStream) :
    Owning env services own pending' t :=
  ⟨h.owners.mono hsub hlt, h.awaited⟩

/-- A call comes to what it makes of the owners and of the awaited ones. -/
theorem after {own' : Option Nat} {pending' : List Nat} {w' : World D} {call : MiddlewareCall D}
    {log : List (MiddlewareCall D × World D)} {w : World D} {given : List PlaylistOwner}
    (howners : Owners services own' pending' w'.registry) (hgiven : w'.registry.Awaited given)
    (hawait : await env (World.awaited env log) (call, w) = given) :
    Owning env services own' pending' (w', log ++ [(call, w)]) :=
  ⟨howners, by rw [awaited_append, hawait]; exact hgiven⟩

end Owning

section Calls

theorem addName_keeping (h : Owning env services own pending t) (service : Nat)
    (name lang : Str) :
    Keeping env (fun _ t' => Owning env services own pending t') (addName service name lang) t := by
  apply Program.yields_logged (MiddlewareCall.addName service name lang)
  intro _
  apply (registry_addName env service name lang t.1).mono
  · intro _ w' hw'
    refine Owning.after ?_ ?_ rfl
    · rw [hw']
      exact h.owners
    · rw [hw']
      exact h.awaited
  · exact fun _ _ hf => hf.elim

theorem setDeliveryProtocol_keeping (h : Owning env services own pending t) (service : Nat)
    (mimeType : Str) :
    Keeping env (fun _ t' => Owning env services own pending t')
      (setDeliveryProtocol service mimeType) t := by
  apply Program.yields_logged (MiddlewareCall.setDeliveryProtocol service mimeType)
  intro _
  apply (registry_setDeliveryProtocol env service mimeType t.1).mono
  · intro _ w' hw'
    refine Owning.after ?_ ?_ rfl
    · rw [hw']
      exact h.owners.setProtocol service _
    · rw [hw']
      exact h.awaited
  · exact fun _ _ hf => hf.elim

theorem readMasterManifest_keeping (h : Owning env services own pending t) {service : Nat}
    (hservice : Serving services own service) (manifest basePath : Str) :
    Keeping env (fun _ t' => Owning env services own pending t')
      (readMasterManifest service manifest basePath) t := by
  apply Program.yields_logged (MiddlewareCall.readMasterManifest service manifest basePath)
  intro hkeep
  apply (registry_readMasterManifest env service manifest basePath t.1).mono
  · rintro _ w' ⟨hf, hw'⟩
    refine Owning.after ?_ ?_ (if_pos hf)
    · rw [hw']
      exact h.owners.claimManifest hservice (hkeep hf)
    · rw [hw']
      exact h.awaited.handOut _ (.service service)
  · rintro e w' ⟨hf, rfl⟩ _
    have hne : manifestFaults (t.1.registry.protocol service) D manifest basePath ≠ [] := by
      intro hnil
      rw [hnil] at hf
      cases hf
    exact ⟨services, own, pending, .after h.owners h.awaited (if_neg hne)⟩

theorem newStream_keeping (h : Owning env services own pending t) (s : AnyStream D) :
    Keeping env
      (fun a t' => Owning env services own pending t' ∧ a < t'.1.registry.nextStream)
      (newStream s) t := by
  apply Program.yields_logged (MiddlewareCall.newStream s)
  intro _
  apply (registry_newStream env s t.1).mono
  · rintro a w' ⟨rfl, hw'⟩
    refine ⟨.after ?_ ?_ rfl, ?_⟩
    · rw [hw']
      exact h.owners.newStream _ _
    · rw [hw']
      exact h.awaited
    · rw [hw']
      exact Nat.lt_succ_self _
  · exact fun _ _ hf => hf.elim

/-- The entry is handed out if the endpoint is a URI that a client accepts. -/
theorem endpointRegistry_awaited {given : List PlaylistOwner} {r : Registry} (h : r.Awaited given)
    (rest : CppRest) (address : Nat) (url : Str) :
    (endpointRegistry rest address url r).Awaited
      (if endpointFaults rest url = [] then r.handOut (.stream address) given else given) := by
  unfold endpointRegistry endpointFaults
  cases rest.uri url with
  | none => exact h
  | some uri =>
    have hredirect : (r.redirect address (SeamlessContentStream.pathOfUri uri)).Awaited given := h
    by_cases hc : rest.httpClient uri.endpoint = true
    · simp only [if_pos hc, if_true]
      exact hredirect.handOut _ (.stream address)
    · simp only [if_neg hc]
      rw [if_neg (List.cons_ne_nil _ _)]
      exact hredirect

theorem setCdnEndpoint_keeping (h : Owning env services own pending t) {address : Nat}
    (hm : address ∈ pending) (url : Str) :
    Keeping env (fun _ t' => Owning env services own pending t') (setCdnEndpoint address url) t := by
  apply Program.yields_logged (MiddlewareCall.setCdnEndpoint address url)
  intro hkeep
  have hregistry : t.1.registry.seamless address = true →
      Owners services own pending (endpointRegistry env.rest address url t.1.registry) := by
    intro hs
    unfold endpointRegistry
    cases huri : env.rest.uri url with
    | none => exact h.owners
    | some uri =>
      have hredirect := h.owners.redirect (hkeep uri huri)
      dsimp only
      split_ifs
      · exact hredirect.claimPlaylist hm hs
      · exact hredirect
  have hawaited := endpointRegistry_awaited h.awaited env.rest address url
  apply (registry_setCdnEndpoint env address url t.1).mono
  · rintro _ w' ⟨hs, hw'⟩
    rw [← hw'] at hregistry hawaited
    exact .after (hregistry hs) hawaited rfl
  · rintro e w' (⟨rfl, -⟩ | ⟨-, hs, hw'⟩) he
    · cases he
    · rw [← hw'] at hregistry hawaited
      exact ⟨services, own, pending, .after (hregistry hs) hawaited rfl⟩

theorem addAndStart_keeping {service address : Nat}
    (h : Owning env services own (address :: pending) t)
    (hservice : Serving services own service) :
    Keeping env
      (fun _ t' => Owning env services own pending t' ∧
        t'.1.registry.nextStream = t.1.registry.nextStream)
      (ServiceAnnouncement.addAndStartContentStream service address) t := by
  apply Program.yields_logged (MiddlewareCall.addAndStartContentStream service address)
  intro hkeep
  apply (registry_addAndStart env service address t.1).mono
  · rintro _ w' ⟨hblocked, manifest, hw', -⟩
    refine ⟨.after ?_ ?_ rfl, ?_⟩
    · rw [hw']
      exact (h.owners.add hservice (hkeep hblocked)).setManifest service manifest
    · rw [hw']
      exact h.awaited.add h.owners (hkeep hblocked)
    · rw [hw']
      rfl
  · rintro e w' ⟨rfl, -⟩ he
    cases he

/-- Adding all that is pending. -/
theorem addAll_keeping {service : Nat} (hservice : Serving services own service) {n : Nat}
    (h : Owning env services own pending t) (hn : t.1.registry.nextStream = n) :
    Keeping env (fun _ t' => Owning env services own [] t' ∧ t'.1.registry.nextStream = n)
      (pending.forM (ServiceAnnouncement.addAndStartContentStream service)) t := by
  refine Program.yields_forM (I := fun l (t' : World D × List (MiddlewareCall D × World D)) =>
    Owning env services own l t' ∧ t'.1.registry.nextStream = n) ?_ ⟨h, hn⟩
  rintro a l t' ⟨ht', hn'⟩
  apply (addAndStart_keeping ht' hservice).imp
  · rintro _ t'' ⟨ht'', hnext⟩
    exact ⟨ht'', hnext.trans hn'⟩
  · exact fun _ _ he => he

end Calls

section Setups

theorem pushBack_keeping {others streams : List Handle}
    (h : Owning env services own ((others ++ streams).map Handle.address) t)
    (s : AnyStream D) :
    Keeping env
      (fun streams' t' => Owning env services own ((others ++ streams').map Handle.address) t')
      (pushBack streams s) t := by
  apply Program.yields_bind
  apply (newStream_keeping h s).imp
  · rintro a t' ⟨ht', ha⟩
    apply Program.yields_pure
    apply (ht'.cons ha).congr
    intro b
    simp [or_comm, or_left_comm]
  · exact fun _ _ he => he

theorem createBroadcastStreams_keeping (others : List Handle) {streams : List Handle}
    (streamOf : XmlElement → Except Fault (Option (AnyStream D))) (deliveryMethod : XmlElement)
    (h : Owning env services own ((others ++ streams).map Handle.address) t) :
    Keeping env
      (fun streams' t' => Owning env services own ((others ++ streams').map Handle.address) t')
      (createBroadcastStreams streamOf streams deliveryMethod) t := by
  unfold createBroadcastStreams
  cases deliveryMethod.firstChildElement broadcastAppService with
  | none => exact h
  | some broadcast =>
    refine Program.yields_foldlM ?_ h
    intro streams' pattern t' ht'
    apply Program.yields_bind
    apply Program.yields_ofExcept
    cases streamOf pattern with
    | error e => exact fun _ => ⟨services, own, _, ht'⟩
    | ok s? =>
      cases s? with
      | none => exact ht'
      | some s => exact pushBack_keeping ht' s

variable (cfg : Config) (items : List Item) (protocol : DeliveryProtocol)

theorem setupUnicast_keeping (manifestUrl : Str) (appService : Option XmlElement)
    {broadcast streams : List Handle} (pattern : XmlElement)
    (h : Owning env services own ((streams ++ broadcast).map Handle.address) t) :
    Keeping env
      (fun streams' t' =>
        Owning env services own ((streams' ++ broadcast).map Handle.address) t')
      (setupUnicast cfg protocol manifestUrl appService broadcast streams pattern) t := by
  unfold setupUnicast
  apply Program.yields_bind
  apply Program.yields_ofExcept
  cases pattern.getText with
  | none => exact fun _ => ⟨services, own, _, h⟩
  | some url =>
    apply Program.yields_bind
    apply Program.yields_ofExcept
    cases appService with
    | none => exact fun _ => ⟨services, own, _, h⟩
    | some appService =>
      refine Program.yields_foldlM ?_ h
      intro streams' identical t' ht'
      have hnew : Keeping env
          (fun streams' t' =>
            Owning env services own ((streams' ++ broadcast).map Handle.address) t')
          (do
            let cs := newSeamlessContentStream cfg (newContentStream cfg protocol manifestUrl)
            let address ← newStream (.seamless cs)
            setCdnEndpoint address url
            pure (streams' ++ [⟨address, manifestUrl, true⟩])) t' := by
        apply Program.yields_bind
        apply (newStream_keeping ht' _).imp
        · rintro a t₁ ⟨ht₁, ha⟩
          apply Program.yields_bind
          apply (setCdnEndpoint_keeping (ht₁.cons ha) List.mem_cons_self url).imp
          · intro _ t₂ ht₂
            apply Program.yields_pure
            apply ht₂.congr
            intro b
            simp [or_comm, or_assoc]
          · exact fun _ _ he => he
        · exact fun _ _ he => he
      apply Program.yields_bind
      apply Program.yields_ofExcept
      apply (identicalContentStream_ensures broadcast url identical).mono
      · rintro ⟨stream, found⟩ ⟨-, hstream⟩
        cases stream with
        | none => exact hnew
        | some a =>
          cases found with
          | false => exact hnew
          | true =>
            obtain ⟨x, hx, rfl, -⟩ := hstream a rfl
            have hm : x.address ∈ (streams' ++ broadcast).map Handle.address :=
              List.mem_map_of_mem (List.mem_append_right _ hx)
            apply Program.yields_bind
            apply (setCdnEndpoint_keeping ht' hm url).imp
            · exact fun _ t'' ht'' => ht''
            · exact fun _ _ he => he
      · exact fun _ _ _ => ⟨services, own, _, ht'⟩

theorem createUnicastStreams_keeping (manifestUrl : Str) (appService : Option XmlElement)
    {broadcast streams : List Handle} (deliveryMethod : XmlElement)
    (h : Owning env services own ((streams ++ broadcast).map Handle.address) t) :
    Keeping env
      (fun streams' t' =>
        Owning env services own ((streams' ++ broadcast).map Handle.address) t')
      (createUnicastStreams cfg protocol manifestUrl appService broadcast streams deliveryMethod)
      t := by
  unfold createUnicastStreams
  split
  · cases deliveryMethod.firstChildElement unicastAppService with
    | none => exact h
    | some unicast =>
      refine Program.yields_foldlM ?_ h
      exact fun streams' pattern t' ht' =>
        setupUnicast_keeping cfg protocol manifestUrl appService pattern ht'
  · exact h

theorem createBy5GMagConfig_keeping (appService : Option XmlElement)
    (streams : List Handle × List Handle) (deliveryMethod : XmlElement)
    (h : Owning env services own ((streams.2 ++ streams.1).map Handle.address) t) :
    Keeping env
      (fun streams' t' =>
        Owning env services own ((streams'.2 ++ streams'.1).map Handle.address) t')
      (createBy5GMagConfig cfg items protocol appService streams deliveryMethod) t := by
  unfold createBy5GMagConfig
  apply Program.yields_bind
  apply Program.yields_ofExcept
  cases deliveryMethod.attributeValue sessionDescriptionUri with
  | none => exact fun _ => ⟨services, own, _, h⟩
  | some sdpUri =>
    apply Program.yields_bind
    apply (createBroadcastStreams_keeping streams.2 _ deliveryMethod h).imp
    · intro broadcast t' ht'
      apply Program.yields_bind
      apply (createUnicastStreams_keeping cfg protocol _ appService deliveryMethod ht').imp
      · exact fun unicast t'' ht'' => ht''
      · exact fun _ _ he => he
    · exact fun _ _ he => he

theorem createByLegacyFormat_keeping (basePath : Str) (streams : List Handle)
    (deliveryMethod : XmlElement)
    (h : Owning env services own (streams.map Handle.address) t) :
    Keeping env (fun streams' t' => Owning env services own (streams'.map Handle.address) t')
      (createByLegacyFormat cfg items protocol basePath streams deliveryMethod) t := by
  unfold createByLegacyFormat
  apply Program.yields_bind
  apply Program.yields_ofExcept
  cases deliveryMethod.attributeValue sessionDescriptionUri with
  | none => exact fun _ => ⟨services, own, _, h⟩
  | some sdpUri => exact createBroadcastStreams_keeping [] _ deliveryMethod h

/-- All streams in the vectors are added behind each delivery method. -/
theorem DeliveryFormat.run_keeping {service n : Nat} (F : DeliveryFormat env service n)
    (hservice : Serving services own service)
    (hcreate : ∀ streams deliveryMethod (t : World D × List (MiddlewareCall D × World D)),
      Owning env services own ((F.all streams).map Handle.address) t →
      Keeping env
        (fun streams' t' => Owning env services own ((F.all streams').map Handle.address) t')
        (F.create streams deliveryMethod) t)
    (h : Owning env services own [] t) (deliveryMethods : List XmlElement) :
    Keeping env (fun _ t' => Owning env services own [] t')
      (deliveryMethods.foldlM F.step F.none) t := by
  have hrun : Keeping env (fun streams t' => Owning env services own [] t' ∧
      ∀ x ∈ F.all streams, x.address < t'.1.registry.nextStream)
      (deliveryMethods.foldlM F.step F.none) t := by
    refine Program.yields_foldlM ?_ ⟨h, by simp [F.all_none]⟩
    rintro streams deliveryMethod t' ⟨ht', hlt⟩
    have hpending : Owning env services own ((F.all streams).map Handle.address) t' := by
      refine ht'.mono (List.nil_subset _) fun a ha => ?_
      obtain ⟨x, hx, rfl⟩ := List.mem_map.mp ha
      exact hlt x hx
    apply Program.yields_bind
    apply (hcreate streams deliveryMethod t' hpending).imp
    · intro streams' t₁ ht₁
      apply Program.yields_bind
      apply (addAll_keeping hservice ht₁ rfl).imp
      · rintro _ t₂ ⟨ht₂, hnext⟩
        refine ⟨ht₂, fun x hx => ?_⟩
        rw [hnext]
        exact ht₁.owners.bounded _ (List.mem_map_of_mem hx)
      · exact fun _ _ he => he
    · exact fun _ _ he => he
  exact hrun.imp (fun _ _ h => h.1) (fun _ _ he => he)

theorem setupUnicastDelivery_keeping (appService : XmlElement) (base : Str) {address : Nat}
    (available : Bool) (h : Owning env services own [] t)
    (ha : address < t.1.registry.nextStream) :
    Keeping env
      (fun unicast t' => Owning env services own [address] t' ∧
        ((unicast || available) = false → Owning env services own [] t'))
      (setupUnicastDelivery cfg appService base address available) t := by
  have hpending := h.cons ha
  unfold setupUnicastDelivery
  split_ifs with hseamless havailable
  · apply Program.yields_bind
    apply (setCdnEndpoint_keeping hpending List.mem_cons_self base).imp
    · exact fun _ t' ht' => ⟨ht', fun hf => by simp at hf⟩
    · exact fun _ _ he => he
  · apply Program.yields_bind
    apply (Program.yields_forM (I := fun _ (t' : World D × List (MiddlewareCall D × World D)) =>
      Owning env services own [address] t') ?_ hpending).imp
    · intro _ t' ht'
      refine ⟨ht', fun hf => ?_⟩
      simp_all
    · exact fun _ _ he => he
    · intro identical l t' ht'
      apply Program.yields_bind
      apply Program.yields_ofExcept
      cases identicalContentBase base identical with
      | error e => exact fun _ => ⟨services, own, _, ht'⟩
      | ok r =>
        obtain ⟨matched, found⟩ := r
        change Keeping env _ (if _ then _ else _) t'
        split_ifs
        · exact setCdnEndpoint_keeping ht' List.mem_cons_self found
        · exact ht'
  · exact ⟨hpending, fun _ => h⟩

theorem setupBasePattern_keeping {service : Nat} (hservice : Serving services own service)
    (appService usd pattern : XmlElement) (h : Owning env services own [] t) :
    Keeping env (fun _ t' => Owning env services own [] t')
      (setupBasePattern cfg items protocol service appService usd pattern) t := by
  unfold setupBasePattern
  apply Program.yields_bind
  apply Program.yields_ofExcept
  cases pattern.getText with
  | none => exact fun _ => ⟨services, own, _, h⟩
  | some base =>
    apply Program.yields_bind
    apply Program.yields_ofExcept
    dsimp only
    cases (usd.childElements deliveryMethod).foldlM (readDeliveryMethod items base)
        (newContentStream (D := D) cfg protocol base, false) with
    | error e => exact fun _ => ⟨services, own, _, h⟩
    | ok r =>
      obtain ⟨cs, available⟩ := r
      apply Program.yields_bind
      apply (newStream_keeping h _).imp
      · rintro a t₁ ⟨ht₁, ha⟩
        apply Program.yields_bind
        apply (setupUnicastDelivery_keeping cfg appService base available ht₁ ha).imp
        · rintro unicast t₂ ⟨ht₂, hnone⟩
          change Keeping env _ (if _ then _ else _) t₂
          split_ifs with hadd
          · exact (addAndStart_keeping ht₂ hservice).imp (fun _ _ h => h.1) (fun _ _ he => he)
          · exact hnone (by simpa using hadd)
        · exact fun _ _ he => he
      · exact fun _ _ he => he

theorem setup_keeping {service : Nat} (hservice : Serving services own service) (basePath : Str)
    (appService : Option XmlElement) (usd : XmlElement) (h : Owning env services own [] t) :
    Keeping env (fun _ t' => Owning env services own [] t')
      (setup cfg items protocol service basePath appService usd) t := by
  unfold setup
  dsimp only
  split_ifs
  · rw [setupBy5GMagConfig,
      deliveryMethodBy5GMagConfig_eq env service 0 cfg items protocol appService]
    apply Program.yields_bind
    apply (DeliveryFormat.run_keeping
      (format5GMagConfig env service 0 cfg items protocol appService) hservice
      (fun streams d t ht => createBy5GMagConfig_keeping cfg items protocol appService streams d ht)
      h (usd.childElements deliveryMethod)).imp
    · exact fun _ t' ht' => ht'
    · exact fun _ _ he => he
  · rw [setupBy5GMagLegacyFormat,
      deliveryMethodByLegacyFormat_eq env service 0 cfg items protocol basePath]
    apply Program.yields_bind
    apply (DeliveryFormat.run_keeping
      (formatLegacy env service 0 cfg items protocol basePath) hservice
      (fun streams d t ht => createByLegacyFormat_keeping cfg items protocol basePath streams d ht)
      h (usd.childElements deliveryMethod)).imp
    · exact fun _ t' ht' => ht'
    · exact fun _ _ he => he
  · unfold setupByAlternativeContentElement
    apply Program.yields_bind
    apply Program.yields_ofExcept
    cases appService with
    | none => exact fun _ => ⟨services, own, _, h⟩
    | some appService =>
      dsimp only [deref, Except.Ensures]
      cases appService.firstChildElement alternativeContent with
      | none => exact h
      | some alternative =>
        refine Program.yields_forM (I := fun _ (t' : World D × List (MiddlewareCall D × World D)) => Owning env services own [] t') ?_ h
        exact fun pattern l t' ht' =>
          setupBasePattern_keeping cfg items protocol hservice appService usd pattern ht'

end Setups

end World

end MbmsMiddleware
