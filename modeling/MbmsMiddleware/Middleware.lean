import MbmsMiddleware.ServiceAnnouncement

/-! The middleware: its objects by address, the services it has registered, and
the handling of a service announcement. -/

namespace MbmsMiddleware

open ServiceAnnouncementXmlElements

/-- Objects are kept under their addresses. `passed` records the addresses
handed to `addAndStartContentStream` so far. -/
structure World (D : Type) where
  memory : Memory D
  stream : Nat → AnyStream D
  nextStream : Nat
  service : Nat → Service D
  nextService : Nat
  services : OrdMap Str Nat
  items : List Item
  basePath : Str
  passed : List Nat

abbrev Action (D α : Type) := EStateM Fault (World D) α

namespace World

variable {D : Type}

def liftExcept {α : Type} : Except Fault α → Action D α
  | .ok a => pure a
  | .error e => throw e

/-- `catch (std::exception e)` around a handler; what was done stays done. -/
def catchStdException (x : Action D Unit) : Action D Unit := fun w =>
  match x w with
  | .ok a w => .ok a w
  | .error e w => if e.isStdException then .ok () w else .error e w

def setService (w : World D) (address : Nat) (sv : Service D) : World D :=
  { w with service := Function.update w.service address sv }

def setStream (w : World D) (address : Nat) (s : AnyStream D) : World D :=
  { w with stream := Function.update w.stream address s }

@[simp] theorem setService_service_self (w : World D) (a : Nat) (sv : Service D) :
    (w.setService a sv).service a = sv := Function.update_self ..

theorem setService_service_of_ne (w : World D) {a b : Nat} (sv : Service D) (h : b ≠ a) :
    (w.setService a sv).service b = w.service b := Function.update_of_ne h ..

@[simp] theorem setStream_stream_self (w : World D) (a : Nat) (s : AnyStream D) :
    (w.setStream a s).stream a = s := Function.update_self ..

theorem setStream_stream_of_ne (w : World D) {a b : Nat} (s : AnyStream D) (h : b ≠ a) :
    (w.setStream a s).stream b = w.stream b := Function.update_of_ne h ..

def callSetCdnEndpoint (rest : CppRest) (address : Nat) (cdnEpt : Str) : Action D Unit := fun w =>
  match (w.stream address).asSeamless? with
  | none => .error .nullDereference w
  | some s =>
    let (s, cache, fault) := s.setCdnEndpoint rest address cdnEpt w.memory.cache
    let w := { w.setStream address (.seamless s) with memory := { w.memory with cache := cache } }
    match fault with
    | none => .ok () w
    | some e => .error e w

variable [DoubleText D] (env : Environment D)

/-- `Service::add_and_start_content_stream`. The stream that was there under the
path of the new one is let go. -/
def addAndStartContentStream (service address : Nat) : Action D Unit := fun w =>
  let sv := w.service service
  let s := w.stream address
  let cs := sv.matchStream s.content
  let sv := { sv with contentStreams := sv.contentStreams.set cs.playlistPath address }
  let w := { (w.setStream address (s.setContent cs)).setService service sv with
    passed := w.passed ++ [address] }
  match cs.start with
  | .error e => .error e w
  | .ok cs =>
    let w := w.setStream address (s.setContent cs)
    .ok () (w.setService service (sv.recreateManifest env.indeterminate w.stream))

def callReadMasterManifest (service : Nat) (manifest basePath : Str) : Action D Unit := fun w =>
  match (w.service service).readMasterManifest service manifest basePath w.memory.cache with
  | .error e => .error e w
  | .ok (sv, cache) =>
    .ok () { w.setService service sv with memory := { w.memory with cache := cache } }

/-- What the calls of the handlers do. -/
def perform : (call : MiddlewareCall D) → Action D call.Result
  | .getService serviceId => fun w => .ok (w.services.find? serviceId) w
  | .newService => fun w =>
    let sv := { deliveryProtocol := env.indeterminate.deliveryProtocol }
    .ok w.nextService { w.setService w.nextService sv with nextService := w.nextService + 1 }
  | .addName service name lang => fun w =>
    .ok () (w.setService service ((w.service service).addName name lang))
  | .setDeliveryProtocol service mimeType => fun w =>
    .ok () (w.setService service ((w.service service).setDeliveryProtocolFromMimeType mimeType))
  | .readMasterManifest service manifest basePath =>
    callReadMasterManifest service manifest basePath
  | .deliveryProtocol service => fun w => .ok (w.service service).deliveryProtocol w
  | .setBasePath basePath => fun w => .ok () { w with basePath := basePath }
  | .basePath => fun w => .ok w.basePath w
  | .newStream s => fun w =>
    .ok w.nextStream { w.setStream w.nextStream s with nextStream := w.nextStream + 1 }
  | .setCdnEndpoint address cdnEpt => callSetCdnEndpoint env.rest address cdnEpt
  | .addAndStartContentStream service address => addAndStartContentStream env service address
  | .contentStreamCount service => fun w => .ok (w.service service).contentStreams.size w
  | .setService serviceId service => fun w =>
    .ok () { w with services := w.services.set serviceId service }

/-- The middleware before the first announcement. -/
def initial : World D where
  memory :=
    { segment := fun _ => { contentLocation := [], seq := 0, extinf := DoubleText.ofInt 0 }
      nextSegment := 0
      cache := .empty }
  stream _ := .basic { deliveryProtocol := env.indeterminate.deliveryProtocol, base := [] }
  nextStream := 0
  service _ := { deliveryProtocol := env.indeterminate.deliveryProtocol }
  nextService := 0
  services := .empty
  items := []
  basePath := []
  passed := []

/-- `_addServiceAnnouncementItems`: items are added to those of earlier announcements. -/
def addServiceAnnouncementItems (w : World D) (str : Str) : World D :=
  let items := (env.mimeParts str).filterMap fun part =>
    let location := part.contentLocation.getD []
    if location ≠ [] then
      some { contentType := part.contentType, uri := location, content := Text.trimLeft part.content }
    else none
  { w with items := w.items ++ items }

def modifyItem (w : World D) (idx : Nat) (f : Item → Item) : World D :=
  { w with items := w.items.modify idx f }

/-- The loop over the items for one `item` element of the envelope. -/
def handleEnvelopeItem (i : XmlElement) : Action D Unit := do
  let items := (← get).items
  (List.range items.length).forM fun idx => do
    match (← get).items[idx]? with
    | none => pure ()
    | some ir =>
      let metadataUri ← liftExcept (deref (i.attributeValue metadataUri))
      if ir.uri = metadataUri then
        let from' ← liftExcept (stdString (i.attributeValue validFrom))
        modify fun w => w.modifyItem idx fun ir => { ir with validFrom := .ofText from' }
        let until' ← liftExcept (stdString (i.attributeValue validUntil))
        modify fun w => w.modifyItem idx fun ir => { ir with validUntil := .ofText until' }
        let version ← liftExcept (deref (i.attributeValue version))
        modify fun w => w.modifyItem idx fun ir =>
          { ir with version := (Text.atoi version % 2 ^ 32).toNat }

def handleMbmsEnvelope (item : Item) : Action D Unit :=
  catchStdException do
    let envelope ← liftExcept (deref ((env.xml item.content).firstChildElement metadataEnvelope))
    (envelope.childElements itemElement).forM (handleEnvelopeItem)

def handleUserServiceDescriptionBundle (cfg : Config) (item : Item) : Action D Unit :=
  catchStdException fun w =>
    (ServiceAnnouncement.handleUserServiceDescriptionBundle cfg w.items env.rest
      (env.xml item.content)).run (perform env) w

def parseBootstrap (cfg : Config) (str : Str) : Action D Unit := do
  modify fun w => w.addServiceAnnouncementItems env str
  let envelopes := (← get).items.filter (·.contentType = ContentTypeConstants.mbmsEnvelope)
  envelopes.forM (handleMbmsEnvelope env)
  let bundles := (← get).items.filter
    (·.contentType = ContentTypeConstants.mbmsUserServiceDescription)
  bundles.forM (handleUserServiceDescriptionBundle env cfg)

theorem parseBootstrap_eq (cfg : Config) (str : Str) (w : World D) :
    parseBootstrap env cfg str w = EStateM.bind
      (((w.addServiceAnnouncementItems env str).items.filter
        (·.contentType = ContentTypeConstants.mbmsEnvelope)).forM (handleMbmsEnvelope env))
      (fun _ w' => (w'.items.filter
        (·.contentType = ContentTypeConstants.mbmsUserServiceDescription)).forM
          (handleUserServiceDescriptionBundle env cfg) w')
      (w.addServiceAnnouncementItems env str) := rfl

end World

/-- No documents, and every URL is a path. -/
def ServiceAnnouncement.bareEnvironment : Environment Int where
  xml _ := []
  mimeParts _ := []
  rest := { uri := fun s => some ⟨s, [], s⟩, httpClient := fun _ => true }
  indeterminate := { time := fun _ => 0, deliveryProtocol := .hls, bandwidth := 0, frameRate := 0 }

end MbmsMiddleware
