import MbmsMiddleware.AnnouncementFaults
import MbmsMiddleware.Middleware

/-! What is wrong with an announcement as a whole, document by document: the
faults of the metadata envelope and of the user service descriptions. -/

namespace MbmsMiddleware

open ServiceAnnouncementXmlElements

namespace ServiceAnnouncement

variable (D : Type) [DoubleText D] (cfg : Config) (rest : CppRest) (items : List Item)
  (protocol : DeliveryProtocol)

/-- The faults of a loop over the delivery methods. Starting the streams after
one of them is fatal if the vectors hold a FLUTE session from before it. -/
def deliveryFaults (faults : XmlElement → List Fault) (flute : XmlElement → Bool) :
    Bool → List XmlElement → List Fault
  | _, [] => []
  | older, d :: ds =>
    faults d ++ if older then [.terminate] else deliveryFaults faults flute (flute d) ds

def fluteBy5GMagConfig (deliveryMethod : XmlElement) : Bool :=
  (broadcastStreams (streamOf5GMagConfig cfg items protocol (D := D)) deliveryMethod).any
    fun s => s.content.streamType = ContentStream.fluteUdp

def fluteByLegacyFormat (basePath : Str) (deliveryMethod : XmlElement) : Bool :=
  (broadcastStreams (streamOfLegacyFormat cfg items protocol basePath (D := D)) deliveryMethod).any
    fun s => s.content.streamType = ContentStream.fluteUdp

/-- The base path makes no difference to what goes wrong. -/
def setupFaults (appService : Option XmlElement) (usd : XmlElement) : List Fault :=
  let format := cfg.bootstrapFormat.getD ServiceAnnouncementFormatConstants.default
  if format = ServiceAnnouncementFormatConstants.fivegMagBcUc then
    deliveryFaults (faultsBy5GMagConfig cfg items protocol D rest appService)
      (fluteBy5GMagConfig D cfg items protocol) false (usd.childElements deliveryMethod)
  else if format = ServiceAnnouncementFormatConstants.fivegMagLegacy then
    deliveryFaults (faultsByLegacyFormat cfg items protocol D [])
      (fluteByLegacyFormat D cfg items protocol []) false (usd.childElements deliveryMethod)
  else alternativeContentFaults cfg items protocol D rest appService usd

/-- The faults of the search for the app service description. -/
def descriptionFaults (appService : XmlElement) (item : Item) : List Fault :=
  match appService.attributeValue appServiceDescriptionUri with
  | none => [.nullDereference]
  | some descriptionUri =>
    if item.uri = descriptionUri then
      match rest.uri item.uri with
      | none => [.uriException]
      | some uri => manifestFaults protocol D item.content (basePathOf uri)
    else []

def appServiceFaults (appService : Option XmlElement) : List Fault :=
  match appService with
  | none => [.nullDereference]
  | some app =>
    match app.attributeValue mimeType with
    | none => [.logicError]
    | some mime =>
      items.flatMap (descriptionFaults D rest (Service.deliveryProtocolOfMimeType mime) app)

/-- Of use only where `appServiceFaults` is empty. -/
def protocolOf (appService : Option XmlElement) : DeliveryProtocol :=
  ((appService.bind (·.attributeValue mimeType)).map Service.deliveryProtocolOfMimeType).getD .rtp

def userServiceDescriptionFaults (usd : XmlElement) : List Fault :=
  match usd.attributeValue serviceId with
  | none => [.logicError]
  | some _ =>
    let app := usd.firstChildElement appService
    appServiceFaults D rest items app ++ setupFaults D cfg rest items (protocolOf app) app usd

def bundleFaults (doc : XmlDocument) : List Fault :=
  match doc.firstChildElement bundleDescription with
  | none => [.nullDereference]
  | some bundle =>
    (bundle.childElements userServiceDescription).flatMap
      (userServiceDescriptionFaults D cfg rest items)

/-- The dates are turned into strings, the version is passed on as it is. -/
def validityFaults (i : XmlElement) : List Fault :=
  match i.attributeValue validFrom, i.attributeValue validUntil with
  | some _, some _ => if i.attributeValue version = none then [.nullDereference] else []
  | _, _ => [.logicError]

def envelopeItemFaults (i : XmlElement) (item : Item) : List Fault :=
  match i.attributeValue metadataUri with
  | none => [.nullDereference]
  | some metadataUri => if item.uri = metadataUri then validityFaults i else []

def envelopeFaults (doc : XmlDocument) : List Fault :=
  match doc.firstChildElement metadataEnvelope with
  | none => [.nullDereference]
  | some envelope =>
    (envelope.childElements itemElement).flatMap fun i => items.flatMap (envelopeItemFaults i)

/-- What a handler with these faults lets through. -/
def uncaught (faults : List Fault) : List Fault :=
  match faults.head? with
  | some e => if e.isStdException then [] else [e]
  | none => []

def contentsOf (contentType : Str) : List Str :=
  (items.filter (·.contentType = contentType)).map Item.content

def announcementFaults (env : Environment D) : List Fault :=
  ((contentsOf items ContentTypeConstants.mbmsEnvelope).flatMap fun content =>
    uncaught (envelopeFaults items (env.xml content))) ++
  (contentsOf items ContentTypeConstants.mbmsUserServiceDescription).flatMap fun content =>
    uncaught (bundleFaults D cfg env.rest items (env.xml content))

section BasePath

variable {D : Type} [DoubleText D]

theorem faultOf_map {α β : Type} (f : α → β) (x : Except Fault α) : faultOf (x.map f) = faultOf x := by
  cases x <;> rfl

theorem configureFromItems_withBasePath (basePath : Str) (readManifest : Bool)
    (manifestUrl sdpUri : Str) (cs : ContentStream D) :
    configureFromItems items readManifest manifestUrl sdpUri (cs.withBasePath basePath) =
      (configureFromItems items readManifest manifestUrl sdpUri cs).map
        (ContentStream.withBasePath basePath) := by
  refine Except.foldlM_hom (fun cs item _ => ?_) cs
  have hmanifest : readManifestItem readManifest manifestUrl item (cs.withBasePath basePath) =
      (readManifestItem readManifest manifestUrl item cs).map
        (ContentStream.withBasePath basePath) := by
    unfold readManifestItem
    split
    · exact ContentStream.readMasterManifest_withBasePath basePath cs item.content
    · rfl
  rw [hmanifest]
  cases readManifestItem readManifest manifestUrl item cs with
  | error e => rfl
  | ok t =>
    simp only [Except.map, bind, Except.bind,
      ContentStream.configure5gbcDeliveryFromSdp_withBasePath]
    by_cases hs : item.contentType = ContentTypeConstants.sdp ∧ item.uri = sdpUri
    · rw [if_pos hs, if_pos hs]
      cases (t.configure5gbcDeliveryFromSdp item.content).2 <;> rfl
    · rw [if_neg hs, if_neg hs]
      rfl

/-- The base path of a stream is all that depends on the base path. -/
theorem streamOfLegacyFormat_withBasePath (basePath sdpUri : Str) (pattern : XmlElement) :
    streamOfLegacyFormat (D := D) cfg items protocol basePath sdpUri pattern =
      (streamOfLegacyFormat cfg items protocol [] sdpUri pattern).map
        (Option.map fun s => s.setContent (s.content.withBasePath basePath)) := by
  unfold streamOfLegacyFormat
  cases pattern.getText with
  | none => rfl
  | some url =>
    dsimp only [stdString]
    change (if _ then _ else _) = Except.map _ (if _ then _ else _)
    split
    · have hbase := fun manifestUrl => configureFromItems_withBasePath items basePath
        (protocol = .hls) manifestUrl sdpUri
        { newContentStream (D := D) cfg protocol url with basePath := [] }
      simp only [ContentStream.withBasePath] at hbase
      rw [hbase]
      generalize configureFromItems (D := D) _ _ _ _ _ = x
      cases x <;> rfl
    · rfl

theorem faultsByLegacyFormat_eq (basePath : Str) :
    faultsByLegacyFormat cfg items protocol D basePath =
      faultsByLegacyFormat cfg items protocol D [] := by
  funext d
  have hfault : ∀ sdpUri p, faultOf (streamOfLegacyFormat (D := D) cfg items protocol basePath sdpUri p) =
      faultOf (streamOfLegacyFormat (D := D) cfg items protocol [] sdpUri p) := by
    intro sdpUri p
    rw [streamOfLegacyFormat_withBasePath, faultOf_map]
  simp only [faultsByLegacyFormat, broadcastFaults, patternFaults, hfault]

theorem fluteByLegacyFormat_eq (basePath : Str) :
    fluteByLegacyFormat D cfg items protocol basePath =
      fluteByLegacyFormat D cfg items protocol [] := by
  funext d
  have hstreams : broadcastStreams (streamOfLegacyFormat cfg items protocol basePath (D := D)) d =
      (broadcastStreams (streamOfLegacyFormat cfg items protocol [] (D := D)) d).map fun s =>
        s.setContent (s.content.withBasePath basePath) := by
    unfold broadcastStreams patternStreams
    cases d.attributeValue sessionDescriptionUri with
    | none => rfl
    | some sdpUri =>
      rw [List.map_filterMap]
      refine List.filterMap_congr fun p _ => ?_
      rw [streamOfLegacyFormat_withBasePath (D := D) cfg items protocol basePath]
      cases streamOfLegacyFormat (D := D) cfg items protocol [] sdpUri p with
      | error e => rfl
      | ok s => cases s <;> rfl
  unfold fluteByLegacyFormat
  rw [hstreams, List.any_map]
  congr 1
  funext s
  simp [ContentStream.withBasePath]

end BasePath

section Validity

variable {D : Type} [DoubleText D]

/-- The validity that the envelope gives an item makes no difference either. -/
def withoutValidity (item : Item) : Item :=
  { item with validFrom := .unset, validUntil := .unset, version := 0 }

theorem configureFromItems_withoutValidity :
    configureFromItems (D := D) (items.map withoutValidity) = configureFromItems items := by
  funext readManifest manifestUrl sdpUri cs
  unfold configureFromItems
  rw [List.foldlM_map]
  rfl

theorem streamOf5GMagConfig_withoutValidity :
    streamOf5GMagConfig (D := D) cfg (items.map withoutValidity) = streamOf5GMagConfig cfg items := by
  funext protocol sdpUri pattern
  simp only [streamOf5GMagConfig, configureFromItems_withoutValidity]

theorem streamOfLegacyFormat_withoutValidity :
    streamOfLegacyFormat (D := D) cfg (items.map withoutValidity) =
      streamOfLegacyFormat cfg items := by
  funext protocol basePath sdpUri pattern
  simp only [streamOfLegacyFormat, configureFromItems_withoutValidity]

theorem readDeliveryMethod_withoutValidity :
    readDeliveryMethod (D := D) (items.map withoutValidity) = readDeliveryMethod items := by
  funext base state deliveryMethod
  simp only [readDeliveryMethod, List.foldlM_map]
  rfl

theorem deliveryMethodFaults_withoutValidity (base : Str) (deliveryMethod : XmlElement) :
    deliveryMethodFaults (items.map withoutValidity) protocol D base deliveryMethod =
      deliveryMethodFaults items protocol D base deliveryMethod := by
  simp only [deliveryMethodFaults, List.flatMap_map]
  rfl

theorem alternativeContentFaults_withoutValidity :
    alternativeContentFaults cfg (items.map withoutValidity) protocol D =
      alternativeContentFaults cfg items protocol D := by
  funext rest appService usd
  have hdelivery : deliveryMethodFaults (items.map withoutValidity) protocol D =
      deliveryMethodFaults items protocol D := by
    funext base d
    exact deliveryMethodFaults_withoutValidity items protocol base d
  have havailable : broadcastAvailable cfg (items.map withoutValidity) protocol D =
      broadcastAvailable cfg items protocol D := by
    funext usd base
    unfold broadcastAvailable
    rw [readDeliveryMethod_withoutValidity]
  have hpattern : basePatternFaults cfg (items.map withoutValidity) protocol D =
      basePatternFaults cfg items protocol D := by
    funext rest appService usd pattern
    unfold basePatternFaults
    rw [hdelivery, havailable]
  simp only [alternativeContentFaults, hpattern]

theorem setupFaults_withoutValidity :
    setupFaults D cfg rest (items.map withoutValidity) = setupFaults D cfg rest items := by
  funext protocol appService usd
  have hfaults : faultsBy5GMagConfig cfg (items.map withoutValidity) protocol D =
      faultsBy5GMagConfig cfg items protocol D := by
    funext rest appService d
    rw [faultsBy5GMagConfig, faultsBy5GMagConfig, streamOf5GMagConfig_withoutValidity]
  have hflute : fluteBy5GMagConfig D cfg (items.map withoutValidity) protocol =
      fluteBy5GMagConfig D cfg items protocol := by
    funext d
    rw [fluteBy5GMagConfig, fluteBy5GMagConfig, streamOf5GMagConfig_withoutValidity]
  have hfaults' : faultsByLegacyFormat cfg (items.map withoutValidity) protocol D =
      faultsByLegacyFormat cfg items protocol D := by
    funext basePath d
    rw [faultsByLegacyFormat, faultsByLegacyFormat, streamOfLegacyFormat_withoutValidity]
  have hflute' : fluteByLegacyFormat D cfg (items.map withoutValidity) protocol =
      fluteByLegacyFormat D cfg items protocol := by
    funext basePath d
    rw [fluteByLegacyFormat, fluteByLegacyFormat, streamOfLegacyFormat_withoutValidity]
  unfold setupFaults
  rw [hfaults, hflute, hfaults', hflute', alternativeContentFaults_withoutValidity]

theorem userServiceDescriptionFaults_withoutValidity :
    userServiceDescriptionFaults D cfg rest (items.map withoutValidity) =
      userServiceDescriptionFaults D cfg rest items := by
  funext usd
  have happ : appServiceFaults D rest (items.map withoutValidity) =
      appServiceFaults D rest items := by
    funext app
    simp only [appServiceFaults, List.flatMap_map]
    rfl
  unfold userServiceDescriptionFaults
  rw [setupFaults_withoutValidity, happ]

theorem envelopeFaults_withoutValidity (doc : XmlDocument) :
    envelopeFaults (items.map withoutValidity) doc = envelopeFaults items doc := by
  simp only [envelopeFaults, List.flatMap_map]
  rfl

theorem contentsOf_withoutValidity (contentType : Str) :
    contentsOf (items.map withoutValidity) contentType = contentsOf items contentType := by
  simp only [contentsOf, List.filter_map, List.map_map]
  rfl

end Validity

end ServiceAnnouncement

end MbmsMiddleware
