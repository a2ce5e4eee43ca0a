import MbmsMiddleware.Program
import MbmsMiddleware.Service
import MbmsMiddleware.XmlElement

/-! Service announcements: reading the metadata envelope and the user service
descriptions, and the three ways of setting up the content streams. -/

namespace MbmsMiddleware

/-- A part of the multipart announcement. -/
structure MimePart where
  contentType : Str
  contentLocation : Option Str
  content : Str

/-- A time of an item by the text it is made from, which is all that the code
determines of it. -/
inductive ItemTime where
  | unset
  | ofText (text : Str)
  deriving DecidableEq

def ItemTime.value {D : Type} (indeterminate : Indeterminate D) : ItemTime → Int
  | .unset => 0
  | .ofText text => indeterminate.time text

structure Item where
  contentType : Str
  uri : Str
  validFrom : ItemTime := .unset
  validUntil : ItemTime := .unset
  version : Nat := 0
  content : Str
  deriving DecidableEq

/-- What set-up takes from other libraries: the XML and MIME parsers, cpprest, and
the content of uninitialized members. -/
structure Environment (D : Type) where
  xml : Str → XmlDocument
  mimeParts : Str → List MimePart
  rest : CppRest
  indeterminate : Indeterminate D

/-- The settings; `none` where a setting is missing. -/
structure Config where
  bootstrapFormat : Option Str := none
  seamless : Bool := false
  iface : Str := []
  maxSegmentsPerStream : Option Int := none
  truncateCdnPlaylistSegments : Option Int := none

namespace ServiceAnnouncementFormatConstants

def default : Str := "default".toList
def fivegMagBcUc : Str := "5gmag_bc_uc".toList
def fivegMagLegacy : Str := "5gmag_legacy".toList

end ServiceAnnouncementFormatConstants

/-- Use of a pointer that may be null. -/
def deref {α : Type} : Option α → Except Fault α
  | some a => .ok a
  | none => .error .nullDereference

/-- Construction of a `std::string` from a pointer that may be null. -/
def stdString : Option Str → Except Fault Str
  | some s => .ok s
  | none => .error .logicError

/-- `std::regex_replace(sdp_uri, std::regex(".sdp"), replacement)`; the point
matches any character but a line terminator. -/
def replaceSdp (replacement : Str) : Str → Str
  | [] => []
  | c :: 's' :: 'd' :: 'p' :: rest =>
    if ContentStream.isLineTerminator c then c :: replaceSdp replacement ('s' :: 'd' :: 'p' :: rest)
    else replacement ++ replaceSdp replacement rest
  | c :: rest => c :: replaceSdp replacement rest

/-- What the handlers of an announcement ask of the objects they share with the
rest of the middleware. -/
inductive MiddlewareCall (D : Type) where
  | getService (serviceId : Str)
  | newService
  | addName (service : Nat) (name lang : Str)
  | setDeliveryProtocol (service : Nat) (mimeType : Str)
  | readMasterManifest (service : Nat) (manifest basePath : Str)
  | deliveryProtocol (service : Nat)
  | setBasePath (basePath : Str)
  | basePath
  | newStream (s : AnyStream D)
  | setCdnEndpoint (address : Nat) (cdnEpt : Str)
  | addAndStartContentStream (service address : Nat)
  | contentStreamCount (service : Nat)
  | setService (serviceId : Str) (service : Nat)

def MiddlewareCall.Result {D : Type} : MiddlewareCall D → Type
  | .getService _ => Option Nat
  | .newService | .newStream _ | .contentStreamCount _ => Nat
  | .deliveryProtocol _ => DeliveryProtocol
  | .basePath => Str
  | .addName .. | .setDeliveryProtocol .. | .readMasterManifest .. | .setBasePath _
  | .setCdnEndpoint .. | .addAndStartContentStream .. | .setService .. => Unit

abbrev Handler (D α : Type) := Program (MiddlewareCall D) MiddlewareCall.Result Fault α

namespace ServiceAnnouncement

open ServiceAnnouncementXmlElements

variable {D : Type} [DoubleText D] (cfg : Config) (items : List Item) (protocol : DeliveryProtocol)
  (service : Nat)

def getService (serviceId : Str) : Handler D (Option Nat) :=
  Program.perform (MiddlewareCall.getService serviceId)

def newService : Handler D Nat :=
  Program.perform MiddlewareCall.newService

def addName (name lang : Str) : Handler D Unit :=
  Program.perform (MiddlewareCall.addName service name lang)

def setDeliveryProtocol (mimeType : Str) : Handler D Unit :=
  Program.perform (MiddlewareCall.setDeliveryProtocol service mimeType)

def readMasterManifest (manifest basePath : Str) : Handler D Unit :=
  Program.perform (MiddlewareCall.readMasterManifest service manifest basePath)

def deliveryProtocol : Handler D DeliveryProtocol :=
  Program.perform (MiddlewareCall.deliveryProtocol service)

def setBasePath (basePath : Str) : Handler D Unit :=
  Program.perform (MiddlewareCall.setBasePath basePath)

def basePath : Handler D Str :=
  Program.perform MiddlewareCall.basePath

def newStream (s : AnyStream D) : Handler D Nat :=
  Program.perform (MiddlewareCall.newStream s)

def setCdnEndpoint (address : Nat) (cdnEpt : Str) : Handler D Unit :=
  Program.perform (MiddlewareCall.setCdnEndpoint address cdnEpt)

def addAndStartContentStream (address : Nat) : Handler D Unit :=
  Program.perform (MiddlewareCall.addAndStartContentStream service address)

def contentStreamCount : Handler D Nat :=
  Program.perform (MiddlewareCall.contentStreamCount service)

def setService (serviceId : Str) : Handler D Unit :=
  Program.perform (MiddlewareCall.setService serviceId service)

/-- `_registerService`: the address of the service and whether it is new. -/
def registerService (usd : XmlElement) (serviceId : Str) : Handler D (Nat × Bool) := do
  let (service, isNewService) ← match ← getService serviceId with
    | some service => pure (service, false)
    | none => do
      let service ← newService
      pure (service, true)
  (usd.childElements nameElement).forM fun name =>
    match name.attributeValue lang, name.getText with
    | some lang, some namestr => addName service namestr lang
    | _, _ => pure ()
  pure (service, isNewService)

/-- The base path of an app service description: its directory without the
leading slash. -/
def basePathOf (uri : WebUri) : Str :=
  match SeamlessContentStream.dirname uri.path with
  | '/' :: rest => rest
  | path => path

def handleAppService (rest : CppRest) (appService : Option XmlElement) : Handler D Unit := do
  let appService ← Program.ofExcept (deref appService)
  let mime ← Program.ofExcept (stdString (appService.attributeValue mimeType))
  setDeliveryProtocol service mime
  items.forM fun item => do
    let descriptionUri ← Program.ofExcept
      (deref (appService.attributeValue appServiceDescriptionUri))
    if item.uri = descriptionUri then
      match rest.uri item.uri with
      | none => Program.throw .uriException
      | some uri =>
        readMasterManifest service item.content (basePathOf uri)
        setBasePath (basePathOf uri)

def newContentStream (base : Str) : ContentStream D where
  deliveryProtocol := protocol
  base := base
  streamIface := cfg.iface

def newSeamlessContentStream (content : ContentStream D) : SeamlessContentStream D :=
  { content with
    segmentsToKeep := cfg.maxSegmentsPerStream.getD 10
    truncateCdnPlaylistSegments := cfg.truncateCdnPlaylistSegments.getD 7 }

def makeStream (content : ContentStream D) : AnyStream D :=
  if cfg.seamless then .seamless (newSeamlessContentStream cfg content) else .basic content

/-- The item with the manifest of a stream gives it its playlist path. -/
def readManifestItem (readManifest : Bool) (manifestUrl : Str) (item : Item)
    (cs : ContentStream D) : Except Fault (ContentStream D) :=
  if item.uri = manifestUrl ∧ readManifest then cs.readMasterManifest item.content else pure cs

/-- A content stream is configured from the items before it is shared. -/
def configureFromItems (readManifest : Bool) (manifestUrl sdpUri : Str) (cs : ContentStream D) :
    Except Fault (ContentStream D) :=
  items.foldlM (fun cs item => do
    let cs ← readManifestItem readManifest manifestUrl item cs
    if item.contentType = ContentTypeConstants.sdp ∧ item.uri = sdpUri then
      let (cs, result) := cs.configure5gbcDeliveryFromSdp item.content
      let _ ← result
      pure cs
    else pure cs) cs

/-- An element of the vectors that a set-up collects its streams in, with what
it reads of the stream. -/
structure Handle where
  address : Nat
  base : Str
  seamless : Bool
  deriving DecidableEq

/-- Shares a new stream. -/
def pushBack (streams : List Handle) (s : AnyStream D) : Handler D (List Handle) := do
  let address ← newStream s
  pure (streams ++ [⟨address, s.content.base, s.asSeamless?.isSome⟩])

/-- The loop over the base patterns of a `broadcastAppService` element;
`streamOf` is the stream made for one of them, if any. -/
def createBroadcastStreams (streamOf : XmlElement → Except Fault (Option (AnyStream D)))
    (broadcastContentStreams : List Handle) (deliveryMethod : XmlElement) :
    Handler D (List Handle) :=
  match deliveryMethod.firstChildElement broadcastAppService with
  | some broadcast =>
    (broadcast.childElements basePattern).foldlM (fun broadcastContentStreams pattern => do
      match ← Program.ofExcept (streamOf pattern) with
      | some s => pushBack broadcastContentStreams s
      | none => pure broadcastContentStreams) broadcastContentStreams
  | none => pure broadcastContentStreams

def streamOf5GMagConfig (sdpUri : Str) (pattern : XmlElement) :
    Except Fault (Option (AnyStream D)) := do
  let manifestUrl := replaceSdp ".m3u8".toList sdpUri
  let broadcastUrl ← stdString pattern.getText
  let cs ← configureFromItems items true manifestUrl sdpUri
    (newContentStream cfg protocol broadcastUrl)
  pure (some (makeStream cfg cs))

/-- The loop over the base patterns of an `identicalContent` element: the
broadcast stream found last, and whether the unicast URL is among them. -/
def identicalContentStream (broadcastContentStreams : List Handle) (unicastUrl : Str)
    (identical : XmlElement) : Except Fault (Option Nat × Bool) :=
  (identical.childElements basePattern).foldlM (fun (stream, found) pattern => do
    let identicalContentUrl ← stdString pattern.getText
    if unicastUrl = identicalContentUrl then pure (stream, true)
    else
      pure (broadcastContentStreams.foldl (fun stream element =>
        if element.base = identicalContentUrl then
          if element.seamless then some element.address else none
        else stream) stream, found)) (none, false)

def setupUnicast (manifestUrl : Str) (appService : Option XmlElement)
    (broadcastContentStreams unicastContentStreams : List Handle) (pattern : XmlElement) :
    Handler D (List Handle) := do
  let unicastUrl ← Program.ofExcept (stdString pattern.getText)
  let appService ← Program.ofExcept (deref appService)
  (appService.childElements identicalContent).foldlM (fun unicastContentStreams identical => do
    let (stream, found) ← Program.ofExcept
      (identicalContentStream broadcastContentStreams unicastUrl identical)
    match stream, found with
    | some address, true =>
      setCdnEndpoint address unicastUrl
      pure unicastContentStreams
    | _, _ =>
      let cs := newSeamlessContentStream cfg (newContentStream cfg protocol manifestUrl)
      let address ← newStream (.seamless cs)
      setCdnEndpoint address unicastUrl
      pure (unicastContentStreams ++ [⟨address, manifestUrl, true⟩])) unicastContentStreams

/-- The loop over the base patterns of a `unicastAppService` element. -/
def createUnicastStreams (manifestUrl : Str) (appService : Option XmlElement)
    (broadcastContentStreams unicastContentStreams : List Handle) (deliveryMethod : XmlElement) :
    Handler D (List Handle) :=
  if cfg.seamless then
    match deliveryMethod.firstChildElement unicastAppService with
    | some unicast =>
      (unicast.childElements basePattern).foldlM
        (setupUnicast cfg protocol manifestUrl appService broadcastContentStreams)
        unicastContentStreams
    | none => pure unicastContentStreams
  else pure unicastContentStreams

/-- The streams made for a delivery method, behind those in the two vectors. -/
def createBy5GMagConfig (appService : Option XmlElement)
    (streams : List Handle × List Handle) (deliveryMethod : XmlElement) :
    Handler D (List Handle × List Handle) := do
  let sdpUri ← Program.ofExcept (deref (deliveryMethod.attributeValue sessionDescriptionUri))
  let manifestUrl := replaceSdp ".m3u8".toList sdpUri
  let broadcastContentStreams ← createBroadcastStreams
    (streamOf5GMagConfig cfg items protocol sdpUri) streams.1 deliveryMethod
  let unicastContentStreams ← createUnicastStreams cfg protocol manifestUrl appService
    broadcastContentStreams streams.2 deliveryMethod
  pure (broadcastContentStreams, unicastContentStreams)

/-- The body of the loop over the delivery methods in `setupBy5GMagConfig`. The
two vectors live across the iterations. -/
def deliveryMethodBy5GMagConfig (appService : Option XmlElement)
    (streams : List Handle × List Handle) (deliveryMethod : XmlElement) :
    Handler D (List Handle × List Handle) := do
  let (broadcastContentStreams, unicastContentStreams) ←
    createBy5GMagConfig cfg items protocol appService streams deliveryMethod
  unicastContentStreams.forM (addAndStartContentStream service ·.address)
  broadcastContentStreams.forM (addAndStartContentStream service ·.address)
  pure (broadcastContentStreams, unicastContentStreams)

def setupBy5GMagConfig (appService : Option XmlElement) (usd : XmlElement) : Handler D Unit := do
  let _ ← (usd.childElements deliveryMethod).foldlM
    (deliveryMethodBy5GMagConfig cfg items protocol service appService) ([], [])
  pure ()

/-- No stream is made for a base pattern that points to a file. -/
def streamOfLegacyFormat (basePath sdpUri : Str) (pattern : XmlElement) :
    Except Fault (Option (AnyStream D)) := do
  let manifestType :=
    if protocol = .hls then ContentTypeConstants.hlsManifest else ContentTypeConstants.dashManifest
  let manifestUrl := replaceSdp ('.' :: manifestType) sdpUri
  let broadcastUrl ← stdString pattern.getText
  if protocol = .dash ∨
      protocol = .hls ∧ ContentStream.contains "file://".toList broadcastUrl = false then
    let cs ← configureFromItems items (protocol = .hls) manifestUrl sdpUri
      { newContentStream cfg protocol broadcastUrl with basePath := basePath }
    pure (some (.basic cs))
  else pure none

/-- The streams made for a delivery method, behind those in the vector. -/
def createByLegacyFormat (basePath : Str) (broadcastContentStreams : List Handle)
    (deliveryMethod : XmlElement) : Handler D (List Handle) := do
  let sdpUri ← Program.ofExcept (deref (deliveryMethod.attributeValue sessionDescriptionUri))
  createBroadcastStreams (streamOfLegacyFormat cfg items protocol basePath sdpUri)
    broadcastContentStreams deliveryMethod

/-- The body of the loop over the delivery methods in `setupBy5GMagLegacyFormat`. -/
def deliveryMethodByLegacyFormat (basePath : Str) (broadcastContentStreams : List Handle)
    (deliveryMethod : XmlElement) : Handler D (List Handle) := do
  let broadcastContentStreams ←
    createByLegacyFormat cfg items protocol basePath broadcastContentStreams deliveryMethod
  broadcastContentStreams.forM (addAndStartContentStream service ·.address)
  pure broadcastContentStreams

def setupBy5GMagLegacyFormat (basePath : Str) (usd : XmlElement) : Handler D Unit := do
  let _ ← (usd.childElements deliveryMethod).foldlM
    (deliveryMethodByLegacyFormat cfg items protocol service basePath) []
  pure ()

/-- An item with a session description may make broadcast delivery available. -/
def readSdpItem (sdpUri : Option Str) (available : Bool) (item : Item) (cs : ContentStream D) :
    Except Fault (ContentStream D × Bool) :=
  if item.contentType = ContentTypeConstants.sdp then do
    let sdpUri ← deref sdpUri
    if item.uri = sdpUri then
      let (cs, result) := cs.configure5gbcDeliveryFromSdp item.content
      let available ← result
      pure (cs, available)
    else pure (cs, available)
  else pure (cs, available)

/-- The body of the loop over the delivery methods in
`setupByAlternativeContentElement`; the flag is `broadcast_delivery_available`. -/
def readDeliveryMethod (base : Str) (state : ContentStream D × Bool) (deliveryMethod : XmlElement) :
    Except Fault (ContentStream D × Bool) := do
  let sdpUri := deliveryMethod.attributeValue sessionDescriptionUri
  let broadcast ← deref (deliveryMethod.firstChildElement broadcastAppService)
  let pattern ← deref (broadcast.firstChildElement basePattern)
  let broadcastBasePattern ← stdString pattern.getText
  if broadcastBasePattern = base then
    items.foldlM (fun (cs, available) item => do
      let cs ← readManifestItem true broadcastBasePattern item cs
      readSdpItem sdpUri available item cs) state
  else pure state

/-- The loop over the base patterns of an `identicalContent` element: whether
the base is among them, and the last other one. -/
def identicalContentBase (base : Str) (identical : XmlElement) : Except Fault (Bool × Str) :=
  (identical.childElements basePattern).foldlM (fun (matched, found) pattern => do
    let identicalBase ← stdString pattern.getText
    if base = identicalBase then pure (true, found) else pure (matched, identicalBase)) (false, [])

/-- With seamless switching the stream gets its CDN endpoints: the base itself
where broadcast is not available, else what is identical to it. -/
def setupUnicastDelivery (appService : XmlElement) (base : Str) (address : Nat)
    (broadcastDeliveryAvailable : Bool) : Handler D Bool :=
  if cfg.seamless then
    if !broadcastDeliveryAvailable then do
      setCdnEndpoint address base
      pure true
    else do
      (appService.childElements identicalContent).forM fun identical => do
        let (matched, found) ← Program.ofExcept (identicalContentBase base identical)
        if matched ∧ found.length ≠ 0 then setCdnEndpoint address found
      pure false
  else pure false

/-- The body of the loop over the base patterns in `setupByAlternativeContentElement`. -/
def setupBasePattern (appService usd pattern : XmlElement) : Handler D Unit := do
  let base ← Program.ofExcept (stdString pattern.getText)
  let (cs, broadcastDeliveryAvailable) ← Program.ofExcept
    ((usd.childElements deliveryMethod).foldlM (readDeliveryMethod items base)
      (newContentStream cfg protocol base, false))
  let address ← newStream (makeStream cfg cs)
  let unicastDeliveryAvailable ←
    setupUnicastDelivery cfg appService base address broadcastDeliveryAvailable
  if unicastDeliveryAvailable || broadcastDeliveryAvailable then
    addAndStartContentStream service address

def setupByAlternativeContentElement (appService : Option XmlElement) (usd : XmlElement) :
    Handler D Unit := do
  let appService ← Program.ofExcept (deref appService)
  match appService.firstChildElement alternativeContent with
  | some alternative =>
    (alternative.childElements basePattern).forM
      (setupBasePattern cfg items protocol service appService usd)
  | none => pure ()

/-- The set-up that the bootstrap format asks for. -/
def setup (basePath : Str) (appService : Option XmlElement) (usd : XmlElement) : Handler D Unit :=
  let format := cfg.bootstrapFormat.getD ServiceAnnouncementFormatConstants.default
  if format = ServiceAnnouncementFormatConstants.fivegMagBcUc then
    setupBy5GMagConfig cfg items protocol service appService usd
  else if format = ServiceAnnouncementFormatConstants.fivegMagLegacy then
    setupBy5GMagLegacyFormat cfg items protocol service basePath usd
  else setupByAlternativeContentElement cfg items protocol service appService usd

/-- The body of the loop over the user service descriptions of a bundle. -/
def handleUserServiceDescription (rest : CppRest) (usd : XmlElement) : Handler D Unit := do
  let id ← Program.ofExcept (stdString (usd.attributeValue serviceId))
  let (service, isNewService) ← registerService usd id
  let appService := usd.firstChildElement appService
  handleAppService items service rest appService
  let protocol ← deliveryProtocol service
  let basePath ← basePath
  setup cfg items protocol service basePath appService usd
  let count ← contentStreamCount service
  if isNewService ∧ count > 0 then setService service id

/-- The body of the `try` block in `_handleMbmbsUserServiceDescriptionBundle`. -/
def handleUserServiceDescriptionBundle (rest : CppRest) (doc : XmlDocument) : Handler D Unit := do
  let bundle ← Program.ofExcept (deref (doc.firstChildElement bundleDescription))
  (bundle.childElements userServiceDescription).forM (handleUserServiceDescription cfg items rest)

end ServiceAnnouncement

end MbmsMiddleware
