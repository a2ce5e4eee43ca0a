import MbmsMiddleware.UnicastPairing

/-! A whole set-up in the format `5gmag_bc_uc`: the unicast base patterns that
have been served after each delivery method, and when all of them get the
streams they should. -/

namespace MbmsMiddleware

open ServiceAnnouncementXmlElements

namespace ServiceAnnouncement

/-- A unicast base pattern, the number of broadcast streams made before it, and
the `identicalContent` elements it has been looked up in. -/
structure Served where
  soFar : Nat
  u : Str
  ics : List XmlElement

def Served.each (soFar : Nat) (ics : List XmlElement) (us : List Str) : List Served :=
  us.map fun u => ⟨soFar, u, ics⟩

@[simp] theorem Served.map_u_each (soFar : Nat) (ics : List XmlElement) (us : List Str) :
    (Served.each soFar ics us).map Served.u = us := by
  simp [Served.each, Function.comp_def]

/-- What a set-up knows after some of its calls. -/
structure Pairing (bases : List Str) (served : List Served) (broadcast unicast : List Handle)
    (next : Nat) (endpoints : Str → List Nat) : Prop where
  base_eq : broadcast.map Handle.base = bases
  seamless : ∀ h ∈ broadcast, h.seamless = true
  nodup : ((broadcast ++ unicast).map Handle.address).Nodup
  made : ∀ h ∈ broadcast ++ unicast, h.address < next
  soFar : ∀ p ∈ served, p.soFar ≤ broadcast.length
  leads : ∀ p ∈ served, List.Forall₂
    (LeadsTo (broadcast.take p.soFar) (unicast.map Handle.address) p.u) p.ics (endpoints p.u)
  others : ∀ u, u ∉ served.map Served.u → endpoints u = []

namespace Pairing

variable {bases : List Str} {served : List Served} {broadcast unicast : List Handle} {next : Nat}
  {endpoints : Str → List Nat}

theorem initial (next : Nat) : Pairing [] [] [] [] next fun _ => [] where
  base_eq := rfl
  seamless := by simp
  nodup := .nil
  made := by simp
  soFar := by simp
  leads := by simp
  others := by simp

theorem next_notMem (h : Pairing bases served broadcast unicast next endpoints) :
    next ∉ (broadcast ++ unicast).map Handle.address := by
  intro hm
  obtain ⟨x, hx, he⟩ := List.mem_map.mp hm
  have hlt := h.made x hx
  omega

theorem push (h : Pairing bases served broadcast unicast next endpoints) (base : Str) :
    Pairing (bases ++ [base]) served (broadcast ++ [⟨next, base, true⟩]) unicast (next + 1)
      endpoints where
  base_eq := by
    rw [List.map_append, h.base_eq]
    rfl
  seamless x hx := by
    rcases List.mem_append.mp hx with hx | hx
    · exact h.seamless x hx
    · rw [List.mem_singleton.mp hx]
  nodup := by
    have hperm : (broadcast ++ [(⟨next, base, true⟩ : Handle)] ++ unicast).Perm
        (⟨next, base, true⟩ :: (broadcast ++ unicast)) := by
      rw [List.append_assoc]
      exact List.perm_middle
    rw [(hperm.map Handle.address).nodup_iff]
    exact List.nodup_cons.mpr ⟨h.next_notMem, h.nodup⟩
  made x hx := by
    have hx' : x = ⟨next, base, true⟩ ∨ x ∈ broadcast ++ unicast := by
      simp only [List.mem_append, List.mem_singleton] at hx ⊢
      tauto
    rcases hx' with rfl | hx'
    · exact Nat.lt_succ_self next
    · exact (h.made x hx').trans (Nat.lt_succ_self next)
  soFar p hp := by
    have hle := h.soFar p hp
    rw [List.length_append]
    omega
  leads p hp := by
    rw [List.take_append_of_le_length (h.soFar p hp)]
    exact h.leads p hp
  others := h.others

theorem begin (h : Pairing bases served broadcast unicast next endpoints) {u : Str}
    (hu : u ∉ served.map Served.u) :
    Pairing bases (served ++ [⟨broadcast.length, u, []⟩]) broadcast unicast next endpoints where
  base_eq := h.base_eq
  seamless := h.seamless
  nodup := h.nodup
  made := h.made
  soFar p hp := by
    rcases List.mem_append.mp hp with hp | hp
    · exact h.soFar p hp
    · rw [List.mem_singleton.mp hp]
  leads p hp := by
    rcases List.mem_append.mp hp with hp | hp
    · exact h.leads p hp
    · rw [List.mem_singleton.mp hp, h.others u hu]
      exact .nil
  others v hv := h.others v (fun hm => hv (by simp [List.mem_map.mp hm]))

/-- A stream is made for a unicast base pattern. -/
theorem create (h : Pairing bases served broadcast unicast next endpoints) (base : Str) :
    Pairing bases served broadcast (unicast ++ [⟨next, base, true⟩]) (next + 1) endpoints where
  base_eq := h.base_eq
  seamless := h.seamless
  nodup := by
    have hperm : (broadcast ++ (unicast ++ [(⟨next, base, true⟩ : Handle)])).Perm
        (⟨next, base, true⟩ :: (broadcast ++ unicast)) := by
      rw [← List.append_assoc]
      exact List.perm_append_singleton _ _
    rw [(hperm.map Handle.address).nodup_iff]
    exact List.nodup_cons.mpr ⟨h.next_notMem, h.nodup⟩
  made x hx := by
    have hx' : x = ⟨next, base, true⟩ ∨ x ∈ broadcast ++ unicast := by
      simp only [List.mem_append, List.mem_singleton] at hx ⊢
      tauto
    rcases hx' with rfl | hx'
    · exact Nat.lt_succ_self next
    · exact (h.made x hx').trans (Nat.lt_succ_self next)
  soFar := h.soFar
  leads p hp := by
    apply (h.leads p hp).imp
    intro identical a hlead
    apply hlead.mono
    rw [List.map_append]
    exact List.subset_append_left _ _
  others := h.others

/-- The pattern served last is looked up in one more element. -/
theorem lookUp {k : Nat} {u : Str} {d : List XmlElement} {identical : XmlElement} {a : Nat}
    (h : Pairing bases (served ++ [⟨k, u, d⟩]) broadcast unicast next endpoints)
    (hu : u ∉ served.map Served.u)
    (hlead : LeadsTo (broadcast.take k) (unicast.map Handle.address) u identical a) :
    Pairing bases (served ++ [⟨k, u, d ++ [identical]⟩]) broadcast unicast next
      (fun v => endpoints v ++ if u = v then [a] else []) where
  base_eq := h.base_eq
  seamless := h.seamless
  nodup := h.nodup
  made := h.made
  soFar p hp := by
    rcases List.mem_append.mp hp with hp | hp
    · exact h.soFar p (by simp [hp])
    · obtain rfl := List.mem_singleton.mp hp
      exact h.soFar ⟨k, u, d⟩ (by simp)
  leads p hp := by
    rcases List.mem_append.mp hp with hp | hp
    · have hne : u ≠ p.u := fun he => hu (he ▸ List.mem_map_of_mem hp)
      rw [if_neg hne, List.append_nil]
      exact h.leads p (by simp [hp])
    · obtain rfl := List.mem_singleton.mp hp
      rw [if_pos rfl]
      exact List.rel_append (h.leads ⟨k, u, d⟩ (by simp)) (.cons hlead .nil)
  others v hv := by
    rw [List.map_append, List.mem_append, not_or] at hv
    have hne : u ≠ v := fun he => hv.2 (by simp [he])
    rw [if_neg hne, List.append_nil]
    exact h.others v (by simpa using ⟨by simpa using hv.1, hne.symm⟩)

end Pairing

section Calls

variable {D : Type} [DoubleText D] (env : Environment D)

abbrev Logged (D : Type) := World D × List (MiddlewareCall D × World D)

/-- What holds of a part of the set-up that returns, with its log. -/
abbrev Logs {α : Type} (Q : α → Logged D → Prop) (p : Handler D α) (t : Logged D) : Prop :=
  Program.Holds (Program.logged (World.perform env)) (fun _ _ => True) Q (fun _ _ => True) p t

def endpoints (t : Logged D) (u : Str) : List Nat := endpointsOf u t.2

variable {env}

theorem newStream_logs (s : AnyStream D) (t : Logged D) :
    Logs env (fun a t' => a = t.1.nextStream ∧ t'.1.nextStream = t.1.nextStream + 1 ∧
      endpoints t' = endpoints t) (newStream s) t := by
  refine ⟨trivial, rfl, rfl, ?_⟩
  funext u
  simp [endpoints, endpointsOf]

theorem setCdnEndpoint_logs (a : Nat) (u : Str) (t : Logged D) :
    Logs env (fun _ t' => t'.1.nextStream = t.1.nextStream ∧
      endpoints t' = fun v => endpoints t v ++ if u = v then [a] else [])
      (setCdnEndpoint a u) t := by
  refine ⟨trivial, ?_⟩
  unfold Program.logged
  have hnext : (World.perform env (.setCdnEndpoint a u) t.1).state.nextStream = t.1.nextStream := by
    simp only [World.perform, World.callSetCdnEndpoint]
    split
    · rfl
    · split <;> rfl
  cases hr : World.perform env (.setCdnEndpoint a u) t.1 with
  | error e w => exact trivial
  | ok r w =>
    rw [hr] at hnext
    refine ⟨hnext, ?_⟩
    funext v
    by_cases hv : u = v <;> simp [endpoints, endpointsOf, hv]

theorem addAndStart_logs (service a : Nat) (t : Logged D) :
    Logs env (fun _ t' => t'.1.nextStream = t.1.nextStream ∧ endpoints t' = endpoints t)
      (addAndStartContentStream service a) t := by
  refine ⟨trivial, ?_⟩
  unfold Program.logged
  have hnext : (World.perform env (.addAndStartContentStream service a) t.1).state.nextStream =
      t.1.nextStream := by
    simp only [World.perform, World.addAndStartContentStream]
    split <;> rfl
  cases hr : World.perform env (.addAndStartContentStream service a) t.1 with
  | error e w => exact trivial
  | ok r w =>
    rw [hr] at hnext
    refine ⟨hnext, ?_⟩
    funext v
    simp [endpoints, endpointsOf]

end Calls

section SetUp

variable {D : Type} [DoubleText D] {env : Environment D} (cfg : Config) (items : List Item)
  (protocol : DeliveryProtocol) (service : Nat)

abbrev PairingAt (bases : List Str) (served : List Served) (broadcast unicast : List Handle)
    (t : Logged D) : Prop :=
  Pairing bases served broadcast unicast t.1.nextStream (endpoints t)

variable {cfg}

theorem streamOf5GMagConfig_some (hs : cfg.seamless = true) {sdpUri : Str} {pattern : XmlElement}
    {r : Option (AnyStream D)}
    (h : streamOf5GMagConfig cfg items protocol sdpUri pattern = .ok r) :
    ∃ s : AnyStream D, r = some s ∧ pattern.getText = some s.content.base ∧
      s.asSeamless?.isSome = true := by
  obtain ⟨url, hurl, h⟩ := Except.eq_ok_of_bind h
  obtain ⟨cs, hcs, h⟩ := Except.eq_ok_of_bind h
  cases h
  have hstream : makeStream cfg cs = .seamless (newSeamlessContentStream cfg cs) := by
    rw [makeStream, if_pos hs]
  refine ⟨_, rfl, ?_, ?_⟩
  · rw [hstream, stdString_eq_ok hurl]
    exact congrArg some (configureFromItems_configures hcs).base.symm
  · rw [hstream]
    rfl

theorem createBroadcastStreams_logs (hs : cfg.seamless = true) (sdpUri : Str) {bases : List Str}
    {served : List Served} {broadcast unicast : List Handle} (deliveryMethod : XmlElement)
    {t : Logged D} (h : PairingAt bases served broadcast unicast t) :
    Logs env (fun broadcast' t' =>
        PairingAt (bases ++ texts deliveryMethod.broadcastPatterns) served broadcast' unicast t')
      (createBroadcastStreams (streamOf5GMagConfig cfg items protocol sdpUri) broadcast
        deliveryMethod) t := by
  simp only [createBroadcastStreams, XmlElement.broadcastPatterns]
  cases deliveryMethod.firstChildElement broadcastAppService with
  | none =>
    apply Program.holds_pure
    simpa [texts] using h
  | some element =>
    apply Program.holds_foldlM_of_returns (I := fun d broadcast' (t' : Logged D) =>
      PairingAt (bases ++ texts d) served broadcast' unicast t')
    · intro d pattern post broadcast' t' _ h'
      apply Program.holds_bind
      apply Program.holds_ofExcept
      cases hstream : streamOf5GMagConfig (D := D) cfg items protocol sdpUri pattern with
      | error e => exact trivial
      | ok r =>
        obtain ⟨s, rfl, htext, hseamless⟩ := streamOf5GMagConfig_some items protocol hs hstream
        apply Program.holds_bind
        apply (newStream_logs s t').imp
        · rintro _ t'' ⟨rfl, hnext, hend⟩
          apply Program.holds_pure
          rw [texts_concat d htext, hseamless, ← List.append_assoc, PairingAt, hnext, hend]
          exact h'.push s.content.base
        · exact fun _ _ h => h
    · simpa [texts] using h

theorem setupUnicast_logs (manifestUrl : Str) (appService : Option XmlElement) {bases : List Str}
    {served : List Served} {broadcast unicast : List Handle} {pattern : XmlElement} {t : Logged D}
    (h : PairingAt bases served broadcast unicast t)
    (hu : ∀ u ∈ pattern.getText, u ∉ served.map Served.u) :
    Logs env (fun unicast' t' => ∃ u ∈ pattern.getText, PairingAt bases
        (served ++ [⟨broadcast.length, u, identicalContents appService⟩])
        broadcast unicast' t')
      (setupUnicast cfg protocol manifestUrl appService broadcast unicast pattern) t := by
  unfold setupUnicast
  cases htext : pattern.getText with
  | none => exact trivial
  | some u =>
    have hnew := hu u htext
    cases appService with
    | none => exact trivial
    | some appService =>
      change Logs env _ ((appService.childElements identicalContent).foldlM _ unicast) t
      apply Program.Holds.imp (Program.holds_foldlM_of_returns
        (I := fun d unicast' (t' : Logged D) =>
          PairingAt bases (served ++ [⟨broadcast.length, u, d⟩]) broadcast unicast' t') ?_
        (h.begin hnew)) (fun _ _ h => ⟨u, rfl, h⟩) (fun _ _ h => h)
      intro d identical post unicast' t' _ h'
      apply Program.holds_bind
      apply Program.holds_ofExcept
      cases hr : identicalContentStream broadcast u identical with
      | error e => exact trivial
      | ok r =>
        obtain ⟨stream, found⟩ := r
        -- a new stream is made wherever the element leads to none
        have hmake : (∀ a, (stream, found) ≠ (some a, true)) → Logs env
            (fun unicast'' t'' => PairingAt bases (served ++ [⟨broadcast.length, u, d ++ [identical]⟩])
              broadcast unicast'' t'')
            (do
              let cs := newSeamlessContentStream cfg (newContentStream cfg protocol manifestUrl)
              let address ← newStream (.seamless cs)
              setCdnEndpoint address u
              pure (unicast' ++ [⟨address, manifestUrl, true⟩])) t' := by
          intro hno
          apply Program.holds_bind
          apply (newStream_logs _ t').imp
          · rintro _ t₁ ⟨rfl, hnext₁, hend₁⟩
            apply Program.holds_bind
            apply (setCdnEndpoint_logs _ u t₁).imp
            · rintro _ t₂ ⟨hnext₂, hend₂⟩
              apply Program.holds_pure
              rw [PairingAt, hnext₂, hnext₁, hend₂, hend₁]
              refine (h'.create manifestUrl).lookUp hnew ?_
              rw [List.take_length, LeadsTo, hr]
              split
              · next b hb => exact absurd (Except.ok.inj hb) (hno b)
              · simp
            · exact fun _ _ h => h
          · exact fun _ _ h => h
        cases stream with
        | none => exact hmake (by simp)
        | some a =>
          cases found with
          | false => exact hmake (by simp)
          | true =>
            apply Program.holds_bind
            apply (setCdnEndpoint_logs a u t').imp
            · rintro _ t₁ ⟨hnext, hend⟩
              apply Program.holds_pure
              rw [PairingAt, hnext, hend]
              refine h'.lookUp hnew ?_
              rw [List.take_length, LeadsTo, hr]
            · exact fun _ _ h => h

theorem createUnicastStreams_logs (hs : cfg.seamless = true) (manifestUrl : Str)
    (appService : Option XmlElement) {bases : List Str} {served : List Served}
    {broadcast unicast : List Handle} (deliveryMethod : XmlElement) {t : Logged D}
    (h : PairingAt bases served broadcast unicast t)
    (hd : (served.map Served.u ++ texts deliveryMethod.unicastPatterns).Nodup) :
    Logs env (fun unicast' t' => PairingAt bases (served ++
        Served.each broadcast.length (identicalContents appService)
          (texts deliveryMethod.unicastPatterns)) broadcast unicast' t')
      (createUnicastStreams cfg protocol manifestUrl appService broadcast unicast deliveryMethod)
      t := by
  unfold createUnicastStreams
  rw [if_pos hs]
  unfold XmlElement.unicastPatterns at hd ⊢
  cases hf : deliveryMethod.firstChildElement unicastAppService with
  | none =>
    apply Program.holds_pure
    simpa [texts, Served.each] using h
  | some element =>
    rw [hf] at hd
    apply Program.holds_foldlM_of_returns (I := fun d unicast' (t' : Logged D) =>
      PairingAt bases (served ++ Served.each broadcast.length (identicalContents appService) (texts d))
        broadcast unicast' t')
    · intro d pattern post unicast' t' hsplit h'
      refine (setupUnicast_logs protocol manifestUrl appService h' ?_).imp ?_ (fun _ _ h => h)
      · intro u hu hm
        change element.childElements basePattern = _ at hsplit
        have hpatterns : texts (element.childElements basePattern) = texts d ++ u :: texts post := by
          rw [hsplit, texts, List.filterMap_append, List.filterMap_cons, hu]
          rfl
        change (served.map Served.u ++ texts (element.childElements basePattern)).Nodup at hd
        rw [hpatterns, ← List.append_assoc, List.nodup_append] at hd
        refine hd.2.2 u ?_ u List.mem_cons_self rfl
        simpa using hm
      · rintro unicast'' t'' ⟨u, hu, h''⟩
        rwa [texts_concat d hu, Served.each, List.map_append, ← List.append_assoc]
    · simpa [texts, Served.each] using h

/-- What has been done for the delivery methods: their broadcast streams are made
and their unicast base patterns served. -/
def AfterDeliveryMethods (appService : Option XmlElement) (ds : List XmlElement)
    (streams : List Handle × List Handle) (t : Logged D) : Prop :=
  ∃ served, PairingAt (broadcastBases ds) served streams.1 streams.2 t ∧
    served.map Served.u = unicastBases ds ∧
    ∀ pre d post, ds = pre ++ d :: post → ∀ u ∈ texts d.unicastPatterns,
      ⟨(broadcastBases (pre ++ [d])).length, u, identicalContents appService⟩ ∈ served

theorem deliveryMethodBy5GMagConfig_logs (hs : cfg.seamless = true) (appService : Option XmlElement)
    {ds : List XmlElement} {d : XmlElement} (hd : (unicastBases (ds ++ [d])).Nodup)
    {streams : List Handle × List Handle} {t : Logged D}
    (h : AfterDeliveryMethods appService ds streams t) :
    Logs env (AfterDeliveryMethods appService (ds ++ [d]))
      (deliveryMethodBy5GMagConfig cfg items protocol service appService streams d) t := by
  obtain ⟨served, hpairing, hus, hserved⟩ := h
  have hbases : broadcastBases (ds ++ [d]) = broadcastBases ds ++ texts d.broadcastPatterns := by
    simp [broadcastBases]
  have hunicast : unicastBases (ds ++ [d]) = unicastBases ds ++ texts d.unicastPatterns := by
    simp [unicastBases]
  have hstart : ∀ (l : List Handle) {bases : List Str} {served : List Served}
      {broadcast unicast : List Handle} {t : Logged D},
      PairingAt bases served broadcast unicast t →
      Logs env (fun _ t' => PairingAt bases served broadcast unicast t')
        (l.forM (addAndStartContentStream service ·.address)) t := by
    intro l bases served broadcast unicast t h
    apply Program.holds_forM_of_returns (I := PairingAt bases served broadcast unicast) _ h
    intro x t' _ h'
    apply (addAndStart_logs service x.address t').imp
    · rintro _ t'' ⟨hnext, hend⟩
      rw [PairingAt, hnext, hend]
      exact h'
    · exact fun _ _ h => h
  unfold deliveryMethodBy5GMagConfig createBy5GMagConfig
  apply Program.holds_bind
  apply Program.holds_bind
  apply Program.holds_ofExcept
  cases d.attributeValue sessionDescriptionUri with
  | none => exact trivial
  | some sdpUri =>
    apply Program.holds_bind
    apply (createBroadcastStreams_logs items protocol hs sdpUri d hpairing).imp
    · intro broadcast t₁ h₁
      apply Program.holds_bind
      rw [← hbases] at h₁
      apply (createUnicastStreams_logs protocol hs _ appService d h₁ (by rwa [hus, ← hunicast])).imp
      · intro unicast t₂ h₂
        apply Program.holds_pure
        apply Program.holds_bind
        apply (hstart unicast h₂).imp
        · intro _ t₃ h₃
          apply Program.holds_bind
          apply (hstart broadcast h₃).imp
          · intro _ t₄ h₄
            apply Program.holds_pure
            refine ⟨_, h₄, by rw [List.map_append, hus, Served.map_u_each, hunicast], ?_⟩
            have hlength : broadcast.length = (broadcastBases (ds ++ [d])).length := by
              rw [← h₄.base_eq, List.length_map]
            intro pre d' post he u hu
            rcases List.eq_nil_or_concat post with rfl | ⟨post, last, rfl⟩
            · obtain ⟨rfl, hd'⟩ := List.append_inj' he rfl
              cases hd'
              rw [← hlength]
              exact List.mem_append_right _ (List.mem_map_of_mem hu)
            · have he' : ds ++ [d] = (pre ++ d' :: post) ++ [last] := by
                rw [he]
                simp
              obtain ⟨hds, -⟩ := List.append_inj' he' rfl
              exact List.mem_append_left _ (hserved pre d' post hds u hu)
          · exact fun _ _ h => h
        · exact fun _ _ h => h
      · exact fun _ _ h => h
    · exact fun _ _ h => h

variable (env)

/-- The unicast base patterns get the streams they should: the set-up returns,
and each of them is paired right. -/
def UnicastPaired (cfg : Config) (appService : Option XmlElement) (usd : XmlElement) (w : World D) :
    Prop :=
  ∃ streams t, ((usd.childElements deliveryMethod).foldlM
      (deliveryMethodBy5GMagConfig cfg items protocol service appService) ([], [])).run
      (Program.logged (World.perform env)) (w, []) = .ok streams t ∧
    ∀ u ∈ unicastBases (usd.childElements deliveryMethod),
      PairedRight (identicalContents appService) streams.1 streams.2 (endpoints t u) u

end SetUp

section Example

def seamlessConfig : Config where
  bootstrapFormat := some ServiceAnnouncementFormatConstants.fivegMagBcUc
  seamless := true

/-- One broadcast stream, and one unicast base pattern. -/
def hybridDelivery : XmlElement :=
  .mk userServiceDescription [] none
    [.mk deliveryMethod [(sessionDescriptionUri, "a.sdp".toList)] none
      [.mk broadcastAppService [] none [.mk basePattern [] (some "a/".toList) []],
        .mk unicastAppService [] none [.mk basePattern [] (some "b/".toList) []]]]

def sameContent : XmlElement :=
  .mk identicalContent [] none
    [.mk basePattern [] (some "a/".toList) [], .mk basePattern [] (some "b/".toList) []]

def setupWithoutContent :
    EStateM.Result Fault (Logged Int) (List Handle × List Handle) :=
  ((hybridDelivery.childElements deliveryMethod).foldlM
    (deliveryMethodBy5GMagConfig seamlessConfig [] .hls 0 (some (.mk appService [] none [])))
    ([], [])).run (Program.logged (World.perform bareEnvironment)) (World.initial bareEnvironment, [])

end Example

end ServiceAnnouncement

end MbmsMiddleware
