import MbmsMiddleware.AlternativeContent
import MbmsMiddleware.LastWrites
import MbmsMiddleware.SessionDescription
import MbmsMiddleware.UnicastPairing

/-! What the delivery methods that list a base pattern make of its stream: its
playlist path and the values of their session descriptions, each of which the
last method that has one sets. -/

namespace MbmsMiddleware

open ServiceAnnouncementXmlElements

/-- A value that an item sets in a stream. -/
inductive ItemValue where
  | playlistPath (path : Str)
  | sdp (value : SdpValue)

namespace ItemValue

variable {D : Type}

def set (s : ContentStream D) : ItemValue → ContentStream D
  | playlistPath path => { s with playlistPath := path }
  | sdp value => value.set s

def playlistPath? : ItemValue → Option Str
  | playlistPath path => some path
  | sdp _ => none

def sdp? : ItemValue → Option SdpValue
  | playlistPath _ => none
  | sdp value => some value

theorem foldl_set (vs : List ItemValue) (s : ContentStream D) :
    vs.foldl set s = { (vs.filterMap sdp?).foldl SdpValue.set s with
      playlistPath := (lastWrite playlistPath? vs).getD s.playlistPath } := by
  induction vs using List.reverseRecOn with
  | nil => rfl
  | append_singleton vs v ih =>
    rw [List.foldl_append, List.foldl_cons, List.foldl_nil, ih, lastWrite_concat,
      List.filterMap_append, List.foldl_append]
    cases v with
    | playlistPath path => rfl
    | sdp value => cases value <;> rfl

theorem foldl_set_deliveryProtocol (vs : List ItemValue) (s : ContentStream D) :
    (vs.foldl set s).deliveryProtocol = s.deliveryProtocol := by
  rw [foldl_set, ContentStream.foldl_set]

end ItemValue

/-- The address and the port of the broadcast are known. -/
def ContentStream.sdpComplete {D : Type} (s : ContentStream D) : Bool :=
  s.streamType ≠ [] && s.streamMcastAddr ≠ [] && s.streamMcastPort ≠ []

namespace XmlElement

/-- A base pattern is among those that a delivery method broadcasts. -/
def Lists (base : Str) (deliveryMethod : XmlElement) : Prop :=
  base ∈ texts deliveryMethod.broadcastPatterns

instance (base : Str) (deliveryMethod : XmlElement) : Decidable (deliveryMethod.Lists base) :=
  inferInstanceAs (Decidable (base ∈ texts deliveryMethod.broadcastPatterns))

def firstPattern (deliveryMethod : XmlElement) : Option Str :=
  deliveryMethod.broadcastPatterns.head?.bind getText

def sessionDescriptions (items : List Item) (deliveryMethod : XmlElement) : List Item :=
  items.filter fun item => item.contentType = ContentTypeConstants.sdp ∧
    deliveryMethod.attributeValue sessionDescriptionUri = some item.uri

/-- A delivery method has base patterns to broadcast, and a session description. -/
structure Broadcasts (items : List Item) (deliveryMethod : XmlElement) : Prop where
  patterns : deliveryMethod.broadcastPatterns ≠ []
  description : deliveryMethod.sessionDescriptions items ≠ []

theorem lists_of_firstPattern {base : Str} {d : XmlElement} (h : d.firstPattern = some base) :
    d.Lists base := by
  obtain ⟨pattern, hpattern, htext⟩ := Option.bind_eq_some_iff.mp h
  exact List.mem_filterMap.mpr ⟨pattern, List.mem_of_head? hpattern, htext⟩

theorem mem_sessionDescriptions {items : List Item} {d : XmlElement} {uri : Str}
    (h : d.attributeValue sessionDescriptionUri = some uri) {item : Item} :
    item ∈ d.sessionDescriptions items ↔
      item ∈ items ∧ item.contentType = ContentTypeConstants.sdp ∧ item.uri = uri := by
  rw [sessionDescriptions, List.mem_filter, h]
  simp only [decide_eq_true_eq, Option.some.injEq, eq_comm (a := uri)]

theorem Broadcasts.exists_description {items : List Item} {d : XmlElement} (h : d.Broadcasts items) :
    ∃ item ∈ items, item.contentType = ContentTypeConstants.sdp ∧
      d.attributeValue sessionDescriptionUri = some item.uri := by
  obtain ⟨item, hm⟩ := List.exists_mem_of_ne_nil _ h.description
  obtain ⟨hitem, hsdp⟩ := List.mem_filter.mp hm
  exact ⟨item, hitem, by simpa using hsdp⟩

end XmlElement

namespace ServiceAnnouncement

variable {D : Type} [DoubleText D] (cfg : Config) (items : List Item) (protocol : DeliveryProtocol)

section Items

/-- The playlist that a manifest with a single stream gives. -/
def manifestPath (D : Type) [DoubleText D] (content : Str) : Option Str :=
  if protocol = .hls then
    match (HlsPrimaryPlaylist.parse content [] : Except Fault (HlsPrimaryPlaylist D)) with
    | .ok pl =>
      match pl.streams with
      | [stream] => some stream.uri
      | _ => none
    | .error _ => none
  else none

def itemFaults (D : Type) [DoubleText D] (base sdpUri : Str) (item : Item) : List Fault :=
  (if item.uri = base then manifestFaults protocol D item.content [] else []) ++
    sdpItemFaults D (some sdpUri) item

def itemValues (D : Type) [DoubleText D] (base sdpUri : Str) (item : Item) : List ItemValue :=
  (if item.uri = base then (manifestPath protocol D item.content).toList.map .playlistPath else []) ++
    if item.contentType = ContentTypeConstants.sdp ∧ item.uri = sdpUri then
      (ContentStream.sdpValues item.content).1.map .sdp
    else []

theorem readMasterManifest_eq {cs : ContentStream D} {content : Str}
    (h : manifestFaults cs.deliveryProtocol D content [] = []) :
    cs.readMasterManifest content = .ok
      (((manifestPath cs.deliveryProtocol D content).toList.map .playlistPath).foldl ItemValue.set cs) := by
  unfold manifestFaults at h
  unfold ContentStream.readMasterManifest manifestPath
  by_cases hls : cs.deliveryProtocol = .hls
  · rw [if_pos hls] at h
    rw [if_pos hls, if_pos hls]
    cases hpl : (HlsPrimaryPlaylist.parse content [] : Except Fault (HlsPrimaryPlaylist D)) with
    | error e =>
      rw [hpl] at h
      cases h
    | ok pl =>
      simp only [bind, Except.bind]
      rcases pl.streams with _ | ⟨stream, _ | _⟩ <;> rfl
  · rw [if_neg hls, if_neg hls]
    rfl

omit [DoubleText D] in
theorem sdpFaults_eq_nil_iff (content : Str) :
    sdpFaults D content = [] ↔ (ContentStream.sdpValues content).2 = none := by
  unfold sdpFaults
  rw [ContentStream.configure5gbcDeliveryFromSdp_eq]
  cases (ContentStream.sdpValues content).2 <;> simp

theorem itemFaults_eq_nil_iff {base sdpUri : Str} {item : Item} :
    itemFaults protocol D base sdpUri item = [] ↔
      (item.uri = base → manifestFaults protocol D item.content [] = []) ∧
        (item.contentType = ContentTypeConstants.sdp ∧ item.uri = sdpUri →
          (ContentStream.sdpValues item.content).2 = none) := by
  rw [itemFaults, List.append_eq_nil_iff]
  refine and_congr ?_ ?_
  · by_cases hu : item.uri = base <;> simp [hu]
  · unfold sdpItemFaults
    by_cases ht : item.contentType = ContentTypeConstants.sdp
    · by_cases hu : item.uri = sdpUri <;> simp [ht, hu, sdpFaults_eq_nil_iff]
    · simp [ht]

theorem readManifestItem_of_readable {base : Str} {item : Item} {cs : ContentStream D}
    (h : item.uri = base → manifestFaults cs.deliveryProtocol D item.content [] = []) :
    readManifestItem true base item cs = .ok
      ((if item.uri = base then
          (manifestPath cs.deliveryProtocol D item.content).toList.map .playlistPath
        else []).foldl ItemValue.set cs) := by
  unfold readManifestItem
  by_cases hu : item.uri = base
  · rw [if_pos ⟨hu, rfl⟩, if_pos hu]
    exact readMasterManifest_eq (h hu)
  · rw [if_neg (fun h => hu h.1), if_neg hu]
    rfl

theorem configureFromItems_of_readable {base sdpUri : Str} {cs : ContentStream D}
    (hp : cs.deliveryProtocol = protocol)
    (h : ∀ item ∈ items, itemFaults protocol D base sdpUri item = []) :
    configureFromItems items true base sdpUri cs = .ok
      ((items.flatMap (itemValues protocol D base sdpUri)).foldl ItemValue.set cs) := by
  rw [List.foldl_flatMap]
  refine Except.foldlM_eq_ok (I := fun cs => cs.deliveryProtocol = protocol) ?_ hp
  intro cs item hm hp
  constructor
  · obtain ⟨hmanifest, hsdp⟩ := (itemFaults_eq_nil_iff protocol).mp (h item hm)
    rw [← hp] at hmanifest
    rw [readManifestItem_of_readable hmanifest, hp, itemValues, List.foldl_append]
    simp only [bind, Except.bind]
    by_cases hs : item.contentType = ContentTypeConstants.sdp ∧ item.uri = sdpUri
    · rw [if_pos hs, if_pos hs, ContentStream.configure5gbcDeliveryFromSdp_eq, hsdp hs,
        List.foldl_map]
      rfl
    · rw [if_neg hs, if_neg hs]
      rfl
  · rw [ItemValue.foldl_set_deliveryProtocol]
    exact hp

end Items

section Methods

/-- The round for a delivery method in `setupByAlternativeContentElement`, for
one that is not passed over. -/
def readMethodItems (base : Str) (state : ContentStream D × Bool) (deliveryMethod : XmlElement) :
    Except Fault (ContentStream D × Bool) :=
  items.foldlM (fun (cs, available) item => do
    let cs ← readManifestItem true base item cs
    readSdpItem (deliveryMethod.attributeValue sessionDescriptionUri) available item cs) state

/-- The stream of a base pattern is configured by a delivery method, as in the
other formats. -/
def configureByMethod (base : Str) (cs : ContentStream D) (deliveryMethod : XmlElement) :
    Except Fault (ContentStream D) := do
  let sdpUri ← deref (deliveryMethod.attributeValue sessionDescriptionUri)
  configureFromItems items true base sdpUri cs

/-- What the items for a delivery method hold can be read. -/
structure Readable (D : Type) [DoubleText D] (base : Str) (deliveryMethod : XmlElement) : Prop where
  descriptions : ∀ item ∈ deliveryMethod.sessionDescriptions items,
    (ContentStream.sdpValues item.content).2 = none
  manifests : ∀ item ∈ items, item.uri = base → manifestFaults protocol D item.content [] = []

def methodValues (D : Type) [DoubleText D] (base : Str) (deliveryMethod : XmlElement) :
    List ItemValue :=
  (deliveryMethod.attributeValue sessionDescriptionUri).elim [] fun sdpUri =>
    items.flatMap (itemValues protocol D base sdpUri)

theorem readable_iff {base uri : Str} {d : XmlElement}
    (h : d.attributeValue sessionDescriptionUri = some uri) :
    Readable items protocol D base d ↔ ∀ item ∈ items, itemFaults protocol D base uri item = [] := by
  constructor
  · intro hr item hm
    rw [itemFaults_eq_nil_iff]
    refine ⟨hr.manifests item hm, fun hs => hr.descriptions item ?_⟩
    exact (XmlElement.mem_sessionDescriptions h).mpr ⟨hm, hs⟩
  · intro hf
    constructor
    · intro item hm
      obtain ⟨hitem, hs⟩ := (XmlElement.mem_sessionDescriptions h).mp hm
      exact ((itemFaults_eq_nil_iff protocol).mp (hf item hitem)).2 hs
    · exact fun item hm => ((itemFaults_eq_nil_iff protocol).mp (hf item hm)).1

theorem head?_broadcastPatterns (d : XmlElement) : d.broadcastPatterns.head? =
    (d.firstChildElement broadcastAppService).bind (·.firstChildElement basePattern) := by
  unfold XmlElement.broadcastPatterns
  cases d.firstChildElement broadcastAppService <;> rfl

theorem readDeliveryMethod_of_firstPattern {d : XmlElement} {t : Str} (h : d.firstPattern = some t)
    (base : Str) (state : ContentStream D × Bool) :
    readDeliveryMethod items base state d =
      if t = base then readMethodItems items base state d else .ok state := by
  rw [XmlElement.firstPattern, head?_broadcastPatterns] at h
  obtain ⟨pattern, hpattern, htext⟩ := Option.bind_eq_some_iff.mp h
  obtain ⟨broadcast, hbroadcast, hpattern⟩ := Option.bind_eq_some_iff.mp hpattern
  unfold readDeliveryMethod readMethodItems
  rw [hbroadcast]
  simp only [deref, bind, Except.bind, hpattern, htext, stdString]
  by_cases ht : t = base
  · subst ht
    rw [if_pos rfl, if_pos rfl]
  · rw [if_neg ht, if_neg ht]
    rfl

theorem deliveryMethodFaults_eq_nil_iff {d : XmlElement} (hd : d.Broadcasts items) {base : Str} :
    deliveryMethodFaults items protocol D base d = [] ↔
      ∃ t, d.firstPattern = some t ∧ (t = base → Readable items protocol D base d) := by
  obtain ⟨description, -, -, huri⟩ := hd.exists_description
  unfold deliveryMethodFaults XmlElement.firstPattern
  rw [← head?_broadcastPatterns]
  cases d.broadcastPatterns.head? with
  | none => simp
  | some pattern =>
    rw [Option.bind_some]
    dsimp only
    cases pattern.getText with
    | none => simp
    | some t =>
      dsimp only
      rw [readable_iff items protocol huri, huri]
      by_cases ht : t = base
      · subst ht
        rw [if_pos rfl]
        simp only [itemFaults, Option.some.injEq, exists_eq_left', forall_const,
          List.flatMap_eq_nil_iff]
      · simp [ht]

theorem readManifestItem_sdpComplete {base : Str} {item : Item} {cs cs' : ContentStream D}
    (h : readManifestItem true base item cs = .ok cs') : cs'.sdpComplete = cs.sdpComplete := by
  have hfaults : item.uri = base → manifestFaults cs.deliveryProtocol D item.content [] = [] := by
    intro hu
    have hensures := readManifestItem_ensures base item cs
    rw [h, if_pos hu] at hensures
    exact hensures.1
  rw [readManifestItem_of_readable hfaults] at h
  cases h
  by_cases hu : item.uri = base
  · rw [if_pos hu]
    cases manifestPath cs.deliveryProtocol D item.content <;> rfl
  · rw [if_neg hu]
    rfl

omit [DoubleText D] in
theorem readSdpItem_of_description {uri : Str} {available : Bool} {item : Item}
    {cs cs' : ContentStream D} {available' : Bool}
    (hs : item.contentType = ContentTypeConstants.sdp ∧ item.uri = uri)
    (h : readSdpItem (some uri) available item cs = .ok (cs', available')) :
    available' = cs'.sdpComplete := by
  unfold readSdpItem at h
  rw [if_pos hs.1] at h
  obtain ⟨uri', huri', h⟩ := Except.eq_ok_of_bind h
  cases huri'
  rw [if_pos hs.2, ContentStream.configure5gbcDeliveryFromSdp_eq] at h
  obtain ⟨available, hresult, h⟩ := Except.eq_ok_of_bind h
  cases h
  cases hf : (ContentStream.sdpValues item.content).2 with
  | some e =>
    rw [hf] at hresult
    cases hresult
  | none =>
    rw [hf] at hresult
    cases hresult
    rfl

omit [DoubleText D] in
theorem readSdpItem_of_not_description {uri : Str} {available : Bool} {item : Item}
    {cs : ContentStream D}
    (hs : ¬ (item.contentType = ContentTypeConstants.sdp ∧ item.uri = uri)) :
    readSdpItem (some uri) available item cs = .ok (cs, available) := by
  unfold readSdpItem
  by_cases ht : item.contentType = ContentTypeConstants.sdp
  · rw [if_pos ht]
    simp only [deref, bind, Except.bind]
    rw [if_neg fun hu => hs ⟨ht, hu⟩]
    rfl
  · rw [if_neg ht]
    rfl

/-- The flag of a delivery method that is not passed over tells whether the
stream is configured: it is set with the last session description, and nothing
that was set is taken back. -/
theorem readMethodItems_available {base : Str} {d : XmlElement} (hd : d.Broadcasts items)
    {state : ContentStream D × Bool} {cs : ContentStream D} {available : Bool}
    (h : readMethodItems items base state d = .ok (cs, available)) : available = cs.sdpComplete := by
  obtain ⟨description, hm, ht, huri⟩ := hd.exists_description
  unfold readMethodItems at h
  rw [huri] at h
  obtain ⟨pre, post, rfl⟩ := List.append_of_mem hm
  rw [List.foldlM_append] at h
  obtain ⟨⟨cs₁, available₁⟩, -, h⟩ := Except.eq_ok_of_bind h
  rw [List.foldlM_cons] at h
  obtain ⟨⟨cs₂, available₂⟩, hround, h⟩ := Except.eq_ok_of_bind h
  obtain ⟨cs₃, -, hsdp⟩ := Except.eq_ok_of_bind hround
  refine Runs.foldlM_ok (I := fun r : ContentStream D × Bool => r.2 = r.1.sdpComplete)
    ?_ (readSdpItem_of_description ⟨ht, rfl⟩ hsdp) h
  rintro ⟨cs, available⟩ item ⟨cs', available'⟩ - hI hround
  obtain ⟨cs'', hmanifest, hsdp⟩ := Except.eq_ok_of_bind hround
  by_cases hs : item.contentType = ContentTypeConstants.sdp ∧ item.uri = description.uri
  · exact readSdpItem_of_description hs hsdp
  · rw [readSdpItem_of_not_description hs] at hsdp
    cases hsdp
    rw [readManifestItem_sdpComplete hmanifest]
    exact hI

theorem readMethodItems_fst (base : Str) {d : XmlElement} (hd : d.Broadcasts items)
    (state : ContentStream D × Bool) :
    (readMethodItems items base state d).map Prod.fst = configureByMethod items base state.1 d := by
  obtain ⟨description, -, -, huri⟩ := hd.exists_description
  unfold readMethodItems configureByMethod
  rw [huri]
  refine (Except.foldlM_hom (g := Prod.fst) ?_ state).symm
  rintro ⟨cs, available⟩ item -
  dsimp only
  cases readManifestItem true base item cs with
  | error e => rfl
  | ok cs' =>
    simp only [bind, Except.bind]
    by_cases hs : item.contentType = ContentTypeConstants.sdp ∧ item.uri = description.uri
    · unfold readSdpItem
      rw [if_pos hs, if_pos hs.1]
      simp only [deref, bind, Except.bind]
      rw [if_pos hs.2]
      cases (cs'.configure5gbcDeliveryFromSdp item.content).2 <;> rfl
    · rw [if_neg hs, readSdpItem_of_not_description hs]
      rfl

theorem configureByMethod_eq {base : Str} {d : XmlElement} (hd : d.Broadcasts items)
    (hr : Readable items protocol D base d) {cs : ContentStream D}
    (hp : cs.deliveryProtocol = protocol) :
    configureByMethod items base cs d =
      .ok ((methodValues items protocol D base d).foldl ItemValue.set cs) := by
  obtain ⟨description, -, -, huri⟩ := hd.exists_description
  unfold configureByMethod methodValues
  rw [huri]
  exact configureFromItems_of_readable items protocol hp ((readable_iff items protocol huri).mp hr)

theorem readMethodItems_eq (base : Str) {d : XmlElement} (hd : d.Broadcasts items)
    (state : ContentStream D × Bool) :
    readMethodItems items base state d =
      (configureByMethod items base state.1 d).map fun cs => (cs, cs.sdpComplete) := by
  rw [← readMethodItems_fst items base hd state]
  cases hread : readMethodItems items base state d with
  | error e => rfl
  | ok r =>
    obtain ⟨cs, available⟩ := r
    rw [readMethodItems_available items hd hread]
    rfl

end Methods

section Listed

/-- The values that the session descriptions of a delivery method set. -/
def descriptionValues (deliveryMethod : XmlElement) : List SdpValue :=
  (deliveryMethod.sessionDescriptions items).flatMap fun item =>
    (ContentStream.sdpValues item.content).1

def addressBy (deliveryMethod : XmlElement) : Option Str :=
  ContentStream.addressOf (descriptionValues items deliveryMethod)

def mediaBy (deliveryMethod : XmlElement) : Option (Str × Str) :=
  ContentStream.mediaOf (descriptionValues items deliveryMethod)

def tsiBy (deliveryMethod : XmlElement) : Option Nat :=
  ContentStream.tsiOf (descriptionValues items deliveryMethod)

/-- The session descriptions of several delivery methods contradict each other
in nothing. -/
structure DescriptionsAgree (deliveryMethods : List XmlElement) : Prop where
  address : Agree (addressBy items) deliveryMethods
  media : Agree (mediaBy items) deliveryMethods
  tsi : Agree (tsiBy items) deliveryMethods

/-- The session descriptions of several delivery methods give an address and a
port between them. -/
def Announce (deliveryMethods : List XmlElement) : Prop :=
  (∃ d ∈ deliveryMethods, addressBy items d ≠ none) ∧ ∃ d ∈ deliveryMethods, mediaBy items d ≠ none

/-- The stream that the delivery methods configure one after the other. -/
def configured (base : Str) (deliveryMethods : List XmlElement) (cs : ContentStream D) :
    ContentStream D :=
  (deliveryMethods.flatMap (methodValues items protocol D base)).foldl ItemValue.set cs

theorem filterMap_methodValues (base : Str) (d : XmlElement) :
    (methodValues items protocol D base d).filterMap ItemValue.sdp? = descriptionValues items d := by
  unfold methodValues descriptionValues XmlElement.sessionDescriptions
  cases d.attributeValue sessionDescriptionUri with
  | none => simp
  | some uri =>
    rw [Option.elim_some, List.filterMap_flatMap]
    induction items with
    | nil => rfl
    | cons item items ih =>
      rw [List.flatMap_cons, ih, List.filter_cons]
      have hmanifest : (if item.uri = base then
          (manifestPath protocol D item.content).toList.map ItemValue.playlistPath
        else []).filterMap ItemValue.sdp? = [] := by
        split
        · simp [ItemValue.sdp?]
        · rfl
      rw [itemValues, List.filterMap_append, hmanifest, List.nil_append]
      by_cases hs : item.contentType = ContentTypeConstants.sdp ∧ item.uri = uri
      · have hs' : item.contentType = ContentTypeConstants.sdp ∧ some uri = some item.uri :=
          ⟨hs.1, congrArg some hs.2.symm⟩
        rw [if_pos hs, if_pos (decide_eq_true hs'), List.flatMap_cons, List.filterMap_map]
        exact congrArg (· ++ _) (List.filterMap_some)
      · have hs' : ¬ (item.contentType = ContentTypeConstants.sdp ∧ some uri = some item.uri) :=
          fun h => hs ⟨h.1, (Option.some.inj h.2).symm⟩
        rw [if_neg hs, if_neg (by simpa using hs')]
        rfl

/-- Every delivery method reads the same manifests. -/
theorem lastWrite_playlistPath (base : Str) {d d' : XmlElement} (hd : d.Broadcasts items)
    (hd' : d'.Broadcasts items) :
    lastWrite ItemValue.playlistPath? (methodValues items protocol D base d) =
      lastWrite ItemValue.playlistPath? (methodValues items protocol D base d') := by
  suffices h : ∀ uri, lastWrite ItemValue.playlistPath?
      (items.flatMap (itemValues protocol D base uri)) = lastWrite (fun item =>
        if item.uri = base then manifestPath protocol D item.content else none) items by
    obtain ⟨description, -, -, huri⟩ := hd.exists_description
    obtain ⟨description', -, -, huri'⟩ := hd'.exists_description
    unfold methodValues
    rw [huri, huri', Option.elim_some, Option.elim_some, h, h]
  intro uri
  rw [lastWrite_flatMap]
  congr 1
  funext item
  have hsdp : lastWrite ItemValue.playlistPath?
      (if item.contentType = ContentTypeConstants.sdp ∧ item.uri = uri then
        (ContentStream.sdpValues item.content).1.map ItemValue.sdp
      else []) = none := by
    rw [lastWrite_eq_none_iff]
    intro v hv
    split at hv
    · obtain ⟨value, -, rfl⟩ := List.mem_map.mp hv
      rfl
    · cases hv
  rw [itemValues, lastWrite_append, hsdp, Option.none_or]
  split
  · cases manifestPath protocol D item.content <;> rfl
  · rfl

theorem configured_eq (base : Str) (l : List XmlElement) (cs : ContentStream D) :
    configured items protocol base l cs = { cs with
      playlistPath := (lastWrite (fun d => lastWrite ItemValue.playlistPath?
        (methodValues items protocol D base d)) l).getD cs.playlistPath
      streamMcastAddr := (lastWrite (addressBy items) l).getD cs.streamMcastAddr
      streamMcastPort := (lastWrite (mediaBy items) l).elim cs.streamMcastPort Prod.fst
      streamType := (lastWrite (mediaBy items) l).elim cs.streamType Prod.snd
      streamFluteTsi := (lastWrite (tsiBy items) l).getD cs.streamFluteTsi } := by
  have hvalues : (l.flatMap (methodValues items protocol D base)).filterMap ItemValue.sdp? =
      l.flatMap (descriptionValues items) := by
    rw [List.filterMap_flatMap]
    exact List.flatMap_congr fun d _ => filterMap_methodValues items protocol base d
  unfold configured
  rw [ItemValue.foldl_set, hvalues, ContentStream.foldl_set, lastWrite_flatMap]
  have haddress : ContentStream.addressOf (l.flatMap (descriptionValues items)) =
      lastWrite (addressBy items) l := lastWrite_flatMap SdpValue.address? _ l
  have hmedia : ContentStream.mediaOf (l.flatMap (descriptionValues items)) =
      lastWrite (mediaBy items) l := lastWrite_flatMap SdpValue.media? _ l
  have htsi : ContentStream.tsiOf (l.flatMap (descriptionValues items)) =
      lastWrite (tsiBy items) l := lastWrite_flatMap SdpValue.tsi? _ l
  rw [haddress, hmedia, htsi]

/-- The order of the delivery methods does not matter exactly when their session
descriptions agree. -/
theorem configured_perm_iff (base : Str) {l : List XmlElement} (hl : ∀ d ∈ l, d.Broadcasts items)
    (cs : ContentStream D) :
    (∀ l', l'.Perm l →
        configured items protocol base l' cs = configured items protocol base l cs) ↔
      DescriptionsAgree items l := by
  constructor
  · intro h
    refine ⟨(agree_iff_perm cs.streamMcastAddr).mpr fun l' hl' => ?_,
      (agree_iff_perm (cs.streamMcastPort, cs.streamType)).mpr fun l' hl' => ?_,
      (agree_iff_perm cs.streamFluteTsi).mpr fun l' hl' => ?_⟩
    · have haddress := congrArg ContentStream.streamMcastAddr (h l' hl')
      rwa [configured_eq, configured_eq] at haddress
    · have hport := congrArg ContentStream.streamMcastPort (h l' hl')
      have htype := congrArg ContentStream.streamType (h l' hl')
      rw [configured_eq, configured_eq] at hport htype
      cases h₁ : lastWrite (mediaBy items) l' <;> cases h₂ : lastWrite (mediaBy items) l <;>
        rw [h₁, h₂] at hport htype <;> exact Prod.ext hport htype
    · have htsi := congrArg ContentStream.streamFluteTsi (h l' hl')
      rwa [configured_eq, configured_eq] at htsi
  · intro h l' hl'
    have hpath : Agree (fun d => lastWrite ItemValue.playlistPath?
        (methodValues items protocol D base d)) l := by
      intro d hd d' hd' x hx y hy
      dsimp only at hx
      rw [lastWrite_playlistPath items protocol base (hl d hd) (hl d' hd')] at hx
      exact Option.mem_unique hx hy
    rw [configured_eq, configured_eq, hpath.lastWrite_perm hl', h.address.lastWrite_perm hl',
      h.media.lastWrite_perm hl', h.tsi.lastWrite_perm hl']

theorem addressBy_ne_nil {d : XmlElement} {addr : Str} (h : addressBy items d = some addr) :
    addr ≠ [] := by
  obtain ⟨v, hv, haddr⟩ := exists_of_lastWrite h
  obtain ⟨item, -, hv⟩ := List.mem_flatMap.mp hv
  cases v <;> cases haddr
  exact (ContentStream.linesValues_nonempty hv).1 _ rfl

theorem mediaBy_ne_nil {d : XmlElement} {media : Str × Str} (h : mediaBy items d = some media) :
    media.1 ≠ [] ∧ media.2 ≠ [] := by
  obtain ⟨v, hv, hmedia⟩ := exists_of_lastWrite h
  obtain ⟨item, -, hv⟩ := List.mem_flatMap.mp hv
  cases v <;> cases hmedia
  exact (ContentStream.linesValues_nonempty hv).2 _ _ rfl

theorem configured_sdpComplete {base : Str} (l : List XmlElement) :
    (configured items protocol base l
        (newContentStream cfg protocol base : ContentStream D)).sdpComplete = true ↔
      Announce items l := by
  have haddress : lastWrite (addressBy items) l = none ↔ ¬ ∃ d ∈ l, addressBy items d ≠ none := by
    rw [lastWrite_eq_none_iff]
    push Not
    rfl
  have hmedia : lastWrite (mediaBy items) l = none ↔ ¬ ∃ d ∈ l, mediaBy items d ≠ none := by
    rw [lastWrite_eq_none_iff]
    push Not
    rfl
  rw [configured_eq, ContentStream.sdpComplete]
  unfold Announce
  cases ha : lastWrite (addressBy items) l with
  | none =>
    have hno := haddress.mp ha
    simp [hno, newContentStream]
  | some addr =>
    have hyes : ∃ d ∈ l, addressBy items d ≠ none := by
      by_contra hno
      rw [haddress.mpr hno] at ha
      cases ha
    obtain ⟨d, -, hd⟩ := exists_of_lastWrite ha
    have hne := addressBy_ne_nil items hd
    cases hm : lastWrite (mediaBy items) l with
    | none =>
      have hno := hmedia.mp hm
      simp [hno, newContentStream]
    | some media =>
      have hyes' : ∃ d ∈ l, mediaBy items d ≠ none := by
        by_contra hno
        rw [hmedia.mpr hno] at hm
        cases hm
      obtain ⟨d', -, hd'⟩ := exists_of_lastWrite hm
      obtain ⟨hport, htype⟩ := mediaBy_ne_nil items hd'
      simp only [Option.getD_some, Option.elim_some, ne_eq, hne, hport, htype, not_false_eq_true,
        decide_true, Bool.and_self, true_iff]
      exact ⟨hyes, hyes'⟩

theorem foldlM_configureByMethod {base : Str} {l : List XmlElement}
    (hl : ∀ d ∈ l, d.Broadcasts items ∧ Readable items protocol D base d) {cs : ContentStream D}
    (hp : cs.deliveryProtocol = protocol) :
    l.foldlM (configureByMethod items base) cs = .ok (configured items protocol base l cs) := by
  unfold configured
  rw [List.foldl_flatMap]
  refine Except.foldlM_eq_ok (I := fun cs => cs.deliveryProtocol = protocol) ?_ hp
  intro cs d hm hp
  obtain ⟨hd, hr⟩ := hl d hm
  refine ⟨configureByMethod_eq items protocol hd hr hp, ?_⟩
  rw [ItemValue.foldl_set_deliveryProtocol]
  exact hp

theorem foldlM_readMethodItems {base : Str} {l : List XmlElement}
    (hl : ∀ d ∈ l, d.Broadcasts items) (cs : ContentStream D) :
    l.foldlM (readMethodItems items base) (cs, cs.sdpComplete) =
      (l.foldlM (configureByMethod items base) cs).map fun cs => (cs, cs.sdpComplete) :=
  Except.foldlM_hom (g := fun cs : ContentStream D => (cs, cs.sdpComplete))
    (fun cs d hm => readMethodItems_eq items base (hl d hm) (cs, cs.sdpComplete)) cs

/-- The delivery methods that list the base pattern are the only ones that matter. -/
theorem foldlM_readDeliveryMethod {base : Str} {l : List XmlElement}
    (hl : ∀ d ∈ l, ∀ state : ContentStream D × Bool, readDeliveryMethod items base state d =
      if d.Lists base then readMethodItems items base state d else .ok state)
    (state : ContentStream D × Bool) :
    l.foldlM (readDeliveryMethod items base) state =
      (l.filter (·.Lists base)).foldlM (readMethodItems items base) state := by
  induction l generalizing state with
  | nil => rfl
  | cons d l ih =>
    have hrest := ih fun x hx => hl x (List.mem_cons_of_mem d hx)
    rw [List.foldlM_cons, hl d List.mem_cons_self, List.filter_cons]
    by_cases hd : d.Lists base
    · rw [if_pos hd, if_pos (decide_eq_true hd), List.foldlM_cons]
      cases readMethodItems items base state d with
      | error e => rfl
      | ok state' => exact hrest state'
    · rw [if_neg hd, if_neg (by simpa using hd)]
      exact hrest state

end Listed

end ServiceAnnouncement

end MbmsMiddleware
