import MbmsMiddleware.Process

/-! The request handlers of the REST interface, as programs over what they read
of the middleware's state. -/

namespace MbmsMiddleware

/-- `authorization` is empty where the header is missing. -/
structure HttpRequest where
  path : Str
  uri : Str
  authorization : Str := []

/-- What becomes of a request to the CDN. Answers other than status 200 and
exceptions that the client catches leave nothing behind. -/
inductive CdnResponse where
  | ok
  | none
  | throws (e : Fault)

/-- What cpprest makes of a request's path, `none` where decoding throws, what
the CDN answers to a client at a base URL, the time, and whether the compiled
call `open_istream(buffer(), content_length())` evaluates `buffer()` first. -/
structure RestEnvironment (D : Type) extends Environment D where
  decode : Str → Option Str
  splitPath : Str → List Str
  cdnResponse : Str → Str → CdnResponse
  now : Nat
  bufferFirst : Bool

structure RestConfig where
  requireBearerToken : Bool := false
  apiKey : Str := []
  apiPath : Str := "mw-api".toList

/-- The reply with a file holds a raw pointer and how many bytes are sent from
there. `buffer` is what stood there when the pointer was taken; the bytes are read
when the reply is sent, and nothing here says that they are still the same. -/
inductive Reply (D : Type) where
  | unauthorized
  | notFound
  | json (value : Json D)
  | file (origin : Str) (buffer : Option Str) (contentLength : Nat)

/-- What a handler reads of the shared state, and its replies. Items of the
cache are accessed through an iterator, which is known by its key. -/
inductive RestCall (D : Type) where
  | serviceAnnouncement
  | itemMap
  | services
  | find (location : Str)
  | buffer (location : Str)
  | itemSourceAsString (location : Str)
  | contentLength (location : Str)
  | receivedAt (location : Str)
  | time
  | reply (r : Reply D)

def RestCall.Result {D : Type} : RestCall D → Type
  | .serviceAnnouncement => Option (ServiceAnnouncement × List Item)
  | .itemMap => List (Str × CacheItem)
  | .services => List (Service D × List (AnyStream D))
  | .find _ => Bool
  | .buffer _ => Option Str
  | .itemSourceAsString _ => Str
  | .contentLength _ | .receivedAt _ | .time => Nat
  | .reply _ => Unit

abbrev RestProgram (D α : Type) := Program (RestCall D) RestCall.Result Fault α

def ItemSource.asString : ItemSource → Str
  | .broadcast => "5G-BC".toList
  | .cdn => "CDN".toList
  | .generated => "GEN".toList
  | .unavailable => "-".toList

def DeliveryProtocol.asString : DeliveryProtocol → Str
  | .hls => "HLS".toList
  | .dash => "DASH".toList
  | .rtp => "RTP".toList

def ContentStream.fluteInfo {D : Type} (s : ContentStream D) : Str :=
  if s.streamType = "none".toList then "n/a".toList
  else s.streamType ++ ": ".toList ++ s.streamMcastAddr ++ ":".toList ++ s.streamMcastPort ++
    ", TSI ".toList ++ Nat.toDigits 10 s.streamFluteTsi

namespace RestHandler

variable {D : Type}

def serviceAnnouncement : RestProgram D (Option (ServiceAnnouncement × List Item)) :=
  Program.perform RestCall.serviceAnnouncement

def itemMap : RestProgram D (List (Str × CacheItem)) := Program.perform RestCall.itemMap

def services : RestProgram D (List (Service D × List (AnyStream D))) :=
  Program.perform RestCall.services

def find (location : Str) : RestProgram D Bool := Program.perform (RestCall.find location)

def buffer (location : Str) : RestProgram D (Option Str) :=
  Program.perform (RestCall.buffer location)

def itemSourceAsString (location : Str) : RestProgram D Str :=
  Program.perform (RestCall.itemSourceAsString location)

def contentLength (location : Str) : RestProgram D Nat :=
  Program.perform (RestCall.contentLength location)

def receivedAt (location : Str) : RestProgram D Nat :=
  Program.perform (RestCall.receivedAt location)

def time : RestProgram D Nat := Program.perform RestCall.time

def reply (r : Reply D) : RestProgram D Unit := Program.perform (RestCall.reply r)

def itemValue (indeterminate : Indeterminate D) (item : Item) : Json D :=
  let time (t : ItemTime) : Json D := .integer (t.value indeterminate)
  .object
    [("location".toList, .string item.uri), ("type".toList, .string item.contentType),
      ("valid_from".toList, time item.validFrom), ("valid_until".toList, time item.validUntil),
      ("version".toList, .integer item.version), ("content".toList, .string item.content)]

def getServiceAnnouncement (indeterminate : Indeterminate D) : RestProgram D Unit := do
  match ← serviceAnnouncement with
  | some (sa, items) =>
    reply (.json (.object
      [("id".toList, .integer sa.toi), ("content".toList, .string sa.rawContent),
        ("items".toList, .array ((items.filter
          (·.contentType ≠ ContentTypeConstants.mbmsEnvelope)).map (itemValue indeterminate)))]))
  | none => reply .notFound

/-- The age is the difference of two `unsigned long`. -/
def fileAge (location : Str) : RestProgram D Int := do
  if (← receivedAt location) = 0 then pure 10000
  else
    let now ← time
    let received ← receivedAt location
    pure (((now : Int) - received) % 2 ^ 64)

def fileValue (location : Str) (item : CacheItem) : RestProgram D (Json D) := do
  let source ← itemSourceAsString location
  let length ← contentLength location
  let received ← receivedAt location
  let age ← fileAge location
  pure (.object
    [("source".toList, .string source), ("location".toList, .string item.contentLocation),
      ("content_length".toList, .integer length), ("received_at".toList, .integer received),
      ("age".toList, .integer age)])

def fileValues (items : List (Str × CacheItem)) : RestProgram D (List (Json D)) :=
  items.foldlM (fun files item => do
    let value ← fileValue item.1 item.2
    pure (files ++ [value])) []

def getFiles : RestProgram D Unit := do
  let items ← itemMap
  let files ← fileValues items
  reply (.json (.array files))

def streamValue (indeterminate : Indeterminate D) (s : AnyStream D) : Json D :=
  let cs := s.content
  .object
    [("base".toList, .string cs.base),
      ("type".toList, .string (if s.asSeamless?.isSome then "Seamless Switching".toList
        else "Basic".toList)),
      ("flute_info".toList, .string cs.fluteInfo), ("resolution".toList, .string cs.resolution),
      ("codecs".toList, .string cs.codecs),
      ("bandwidth".toList, .integer (cs.bandwidth.getD indeterminate.bandwidth)),
      ("frame_rate".toList, .double (cs.frameRate.getD indeterminate.frameRate)),
      ("playlist_path".toList, .string cs.playlistPath),
      ("cdn_ept".toList, .string (match s.asSeamless? with
        | some s => s.cdnEndpoint ++ s.playlistPath
        | none => "n/a".toList))]

def serviceValue (indeterminate : Indeterminate D) (sv : Service D) (streams : List (AnyStream D)) :
    Json D :=
  .object
    [("names".toList, .array (sv.names.entries.map fun name =>
        .object [("lang".toList, .string name.1), ("name".toList, .string name.2)])),
      ("protocol".toList, .string sv.deliveryProtocol.asString),
      ("manifest_path".toList, .string sv.manifestPath),
      ("streams".toList, .array (streams.map (streamValue indeterminate)))]

def getServices (indeterminate : Indeterminate D) : RestProgram D Unit := do
  let services ← services
  reply (.json (.array (services.map fun (sv, streams) => serviceValue indeterminate sv streams)))

/-- The call `open_istream(buffer(), content_length())` and the reply. -/
def openStream (bufferFirst : Bool) (location origin : Str) : RestProgram D Unit :=
  if bufferFirst then do
    let buffer ← buffer location
    let length ← contentLength location
    reply (.file origin buffer length)
  else do
    let length ← contentLength location
    let buffer ← buffer location
    reply (.file origin buffer length)

def sendFile (bufferFirst : Bool) (location : Str) : RestProgram D Unit := do
  let origin ← itemSourceAsString location
  openStream bufferFirst location origin

/-- The item is listed. -/
def getItem (bufferFirst : Bool) (location : Str) : RestProgram D Unit := do
  match ← buffer location with
  | some _ => sendFile bufferFirst location
  | none => reply .notFound

def getFile (bufferFirst : Bool) (location : Str) : RestProgram D Unit := do
  if ← find location then getItem bufferFirst location
  else reply .notFound

variable (env : RestEnvironment D) (cfg : RestConfig)

/-- The parts of the path; decoding may throw. -/
def paths (message : HttpRequest) : Except Fault (List Str) :=
  match env.decode message.path with
  | some path => pure (env.splitPath path)
  | none => throw .uriException

def authorized (message : HttpRequest) : Bool :=
  !cfg.requireBearerToken || message.authorization = "Bearer ".toList ++ cfg.apiKey

def get (message : HttpRequest) : RestProgram D Unit := do
  let paths ← Program.ofExcept (paths env message)
  if authorized cfg message then
    match paths with
    | [] => reply .notFound
    | path :: rest =>
      if path = cfg.apiPath then
        match rest with
        | [] => Program.throw .outOfBounds
        | resource :: _ =>
          if resource = "service_announcement".toList then getServiceAnnouncement env.indeterminate
          else if resource = "files".toList then getFiles
          else if resource = "services".toList then getServices env.indeterminate
          else reply .notFound
      else getFile env.bufferFirst (message.uri.drop 1)
  else reply .unauthorized

/-- A path is not yet handled. -/
def put (message : HttpRequest) : RestProgram D Unit := do
  if authorized cfg message then
    match ← Program.ofExcept (paths env message) with
    | [] => reply .notFound
    | _ => pure ()
  else reply .unauthorized

end RestHandler

/-- `downloads` holds, for each download under way, the address of the segment
that asked for it. -/
structure RestState (D : Type) where
  process : Process D
  downloads : List Nat := []
  replies : List (Reply D) := []

namespace RestState

variable {D : Type} (env : RestEnvironment D)

def item? (s : RestState D) (location : Str) : Option CacheItem :=
  s.process.world.memory.cache.find? location

def itemSource (w : World D) : CacheItem → ItemSource
  | .file .. => .broadcast
  | .segment _ _ address => (w.memory.segment address).dataSource
  | .playlist .. | .manifest .. => .generated

/-- `buffer()` of a segment without data asks the CDN for them. -/
def readBuffer (item : CacheItem) : EStateM Fault (RestState D) (Option Str) := fun s =>
  match item with
  | .file _ _ file => .ok (some file.buffer) s
  | .playlist _ _ owner | .manifest _ _ owner => .ok (some (s.process.world.objects.text owner)) s
  | .segment _ _ address =>
    let segment := s.process.world.memory.segment address
    match segment.buffer, segment.cdnClient with
    | (none, true), some client =>
      match env.cdnResponse client segment.contentLocation with
      | .ok => .ok none { s with downloads := s.downloads ++ [address] }
      | .none => .ok none s
      | .throws e => .error e s
    | (buffer, _), _ => .ok buffer s

/-- An access through an iterator whose entry is gone is undefined. -/
def access {α : Type} (location : Str) (f : CacheItem → EStateM Fault (RestState D) α) :
    EStateM Fault (RestState D) α := fun s =>
  match s.item? location with
  | some item => f item s
  | none => .error .danglingPointer s

def streamsOf (w : World D) (sv : Service D) : List (AnyStream D) :=
  sv.contentStreams.entries.map fun e => w.stream e.2

/-- What the calls of the handlers do. -/
def perform : (call : RestCall D) → EStateM Fault (RestState D) call.Result
  | .serviceAnnouncement => fun s =>
    .ok (s.process.serviceAnnouncement.map fun sa => (sa, s.process.world.items)) s
  | .itemMap => fun s => .ok (s.process.world.memory.cache.entries.map fun e => (e.1, e.2)) s
  | .services => fun s =>
    let w := s.process.world
    .ok (w.services.entries.map fun e => (w.service e.2, streamsOf w (w.service e.2))) s
  | .find location => fun s => .ok (s.item? location).isSome s
  | .buffer location => access location (readBuffer env)
  | .itemSourceAsString location => access location fun item s =>
    .ok (itemSource s.process.world item).asString s
  | .contentLength location => access location fun item s =>
    .ok ((itemView s.process.world.objects).contentLength item) s
  | .receivedAt location => access location fun item s =>
    .ok (((itemView s.process.world.objects).receivedAt item).getD env.now) s
  | .time => fun s => .ok env.now s
  | .reply r => fun s => .ok () { s with replies := s.replies ++ [r] }

end RestState

end MbmsMiddleware
