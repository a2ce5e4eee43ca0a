import MbmsMiddleware.AnnouncedCalls
import MbmsMiddleware.Housekeeping
import MbmsMiddleware.Process
import MbmsMiddleware.Receptions
import Mathlib.Logic.Relation

/-! What can happen to the objects of the middleware, whoever does it: the calls
of an announcement's handlers, receptions, downloads and housekeeping. Each of
these comes to a sequence of effects on one object or one entry. -/

namespace MbmsMiddleware

inductive WorldChange (D : Type) where
  | items (items : List Item)
  | call (op : MiddlewareCall D)
  | reception (address : Nat) (indeterminate : Int) (r : Reception)
  | download (segment now : Nat) (file : Str)
  | cacheCheck (cfg : CacheManagement) (clock : Clock)

/-- Where a file that a stream receives is served, if anywhere. -/
def AnyStream.fileLocation {D : Type} (file : FluteFile) : AnyStream D → Option Str
  | .basic cs => cs.fileLocation file
  | .seamless _ => some file.contentLocation

namespace World

variable {D : Type}

def download (segment now : Nat) (file : Str) (w : World D) : World D :=
  { w with memory := { w.memory with
      segment := Function.update w.memory.segment segment
        ((w.memory.segment segment).cdnFileReceived now file) } }

def cacheCheck (cfg : CacheManagement) (clock : Clock) (w : World D) : World D :=
  { w with memory := { w.memory with
      cache := cfg.checkFileExpiryAndCacheSize (itemView w.objects) clock w.memory.cache } }

/-- A base pattern in one of the announced user service descriptions. -/
def AnnouncedPattern (env : Environment D) (items : List Item) (url : Str) : Prop :=
  ∃ item ∈ items, item.contentType = ContentTypeConstants.mbmsUserServiceDescription ∧
    (env.xml item.content).BasePattern url

variable (env : Environment D) (cfg : Config)

def change [DoubleText D] (w : World D) : WorldChange D → World D
  | .items items => { w with items := items }
  | .call op => (perform env op w).state
  | .reception address indeterminate r => (w.receive address indeterminate r).1
  | .download segment now file => w.download segment now file
  | .cacheCheck cacheManagement clock => w.cacheCheck cacheManagement clock

/-- A change that the middleware can come to make in a world. -/
def Permitted (w : World D) : WorldChange D → Prop
  | .items items => ∀ url, AnnouncedPattern env w.items url → AnnouncedPattern env items url
  | .call op => ServiceAnnouncement.Announced cfg (AnnouncedPattern env w.items) op
  | .reception address _ _ => address < w.nextStream
  | .download segment _ _ => segment < w.memory.nextSegment
  | .cacheCheck .. => True

/-- The bytes that a change brings, each with the location they are for. -/
def brings (w : World D) : WorldChange D → List (Str × Str)
  | .reception address _ (.fluteFile file) =>
    ((w.stream address).fileLocation file).toList.map fun l => (l, file.buffer)
  | .download segment _ file => [((w.memory.segment segment).contentLocation, file)]
  | _ => []

def StreamAt (w : World D) (address : Nat) (s : SeamlessContentStream D) : Prop :=
  address < w.nextStream ∧ w.stream address = .seamless s

/-- What a stream becomes with a CDN endpoint: the client is not changed where
the endpoint is not accepted. -/
def redirected (uri : WebUri) (client : Option Str) (s : SeamlessContentStream D) :
    SeamlessContentStream D :=
  { s with
    playlistPath := SeamlessContentStream.pathOfUri uri
    playlistDir := SeamlessContentStream.dirname (SeamlessContentStream.pathOfUri uri)
    cdnEndpoint := uri.endpoint
    cdnClient := client }

variable (brought : List (Str × Str))

/-- One effect on the objects when these bytes are brought. -/
inductive Effect (w : World D) : World D → Prop
  | items (items : List Item)
      (h : ∀ url, AnnouncedPattern env w.items url → AnnouncedPattern env items url) :
      Effect w { w with items := items }
  | frame (service : Nat → Service D) (nextService : Nat) (services : OrdMap Str Nat)
      (basePath : Str) (passed : List Nat) :
      Effect w { w with
        service := service
        nextService := nextService
        services := services
        basePath := basePath
        passed := passed }
  | listPlaylist (location : Str) (owner : PlaylistOwner) :
      Effect w { w with memory := { w.memory with
        cache := w.memory.cache.addItem (.playlist location 0 owner) } }
  | newStream (s : AnyStream D) (h : ServiceAnnouncement.Fresh cfg s) :
      Effect w { w.setStream w.nextStream s with nextStream := w.nextStream + 1 }
  | content (address : Nat) (c : ContentStream D) :
      Effect w (w.setStream address ((w.stream address).setContent c))
  | redirect (address : Nat) (s : SeamlessContentStream D) (hs : w.stream address = .seamless s)
      (url : Str) (hurl : AnnouncedPattern env w.items url) (uri : WebUri)
      (huri : env.rest.uri url = some uri) (client : Option Str)
      (hclient : client = s.cdnClient ∨
        env.rest.httpClient uri.endpoint = true ∧ client = some uri.endpoint) :
      Effect w (w.setStream address (.seamless (redirected uri client s)))
  | insert (address : Nat) (s : SeamlessContentStream D) (hs : w.StreamAt address s)
      (segment : HlsMediaPlaylist.Segment D) :
      Effect w (w.storeStream address (SeamlessContentStream.insertSegment (s, w.memory) segment))
  | drop (address : Nat) (s : SeamlessContentStream D) (hs : w.StreamAt address s) :
      Effect w (w.storeStream address (SeamlessContentStream.dropOldest (s, w.memory)))
  | render (address : Nat) (s : SeamlessContentStream D) (hs : w.StreamAt address s)
      (playlist : Str) :
      Effect w (w.storeStream address ({ s with playlist := playlist }, w.memory))
  | keep (address : Nat) (s : SeamlessContentStream D) (hs : w.StreamAt address s)
      (file : FluteFile) (h : (file.contentLocation, file.buffer) ∈ brought) :
      Effect w (w.storeStream address
        ({ s with fluteFiles := s.fluteFiles.set file.contentLocation file }, w.memory))
  | store (address : Nat) (cs : ContentStream D) (h : address < w.nextStream)
      (hs : w.stream address = .basic cs) (file : FluteFile)
      (hl : ∀ l, cs.fileLocation file = some l → (l, file.buffer) ∈ brought) :
      Effect w { w with memory := { w.memory with
        cache := cs.fluteFileReceived w.memory.cache file } }
  | download (segment now : Nat) (file : Str) (h : segment < w.memory.nextSegment)
      (hl : ((w.memory.segment segment).contentLocation, file) ∈ brought) :
      Effect w (w.download segment now file)
  | forget (cache : Cache)
      (h : ∀ l item, cache.find? l = some item → w.memory.cache.find? l = some item) :
      Effect w { w with memory := { w.memory with cache := cache } }

abbrev Effects : World D → World D → Prop := Relation.ReflTransGen (Effect env cfg brought)

theorem Effects.invariant {env : Environment D} {cfg : Config} {brought : List (Str × Str)}
    {I : World D → Prop} (hI : ∀ w w', Effect env cfg brought w w' → I w → I w') {w w' : World D}
    (h : Effects env cfg brought w w')
    (hw : I w) : I w' := by
  induction h with
  | refl => exact hw
  | tail _ he ih => exact hI _ _ he ih

variable {env cfg brought} {w : World D} {address : Nat} {s : SeamlessContentStream D}

variable (env cfg brought) in
def Acts (address : Nat)
    (f : SeamlessContentStream D × Memory D → SeamlessContentStream D × Memory D) : Prop :=
  ∀ w s, StreamAt w address s → Effects env cfg brought w (w.storeStream address (f (s, w.memory)))

theorem storeStream_self (h : w.stream address = .seamless s) :
    w.storeStream address (s, w.memory) = w := by
  unfold storeStream setStream
  rw [← h, Function.update_eq_self]

theorem storeStream_storeStream (w : World D) (address : Nat)
    (st st' : SeamlessContentStream D × Memory D) :
    (w.storeStream address st).storeStream address st' = w.storeStream address st' := by
  unfold storeStream setStream
  rw [Function.update_idem]

theorem streamAt_storeStream (h : address < w.nextStream)
    (st : SeamlessContentStream D × Memory D) : (w.storeStream address st).StreamAt address st.1 :=
  ⟨h, Function.update_self ..⟩

theorem Acts.comp {f g : SeamlessContentStream D × Memory D → SeamlessContentStream D × Memory D}
    (hf : Acts env cfg brought address f) (hg : Acts env cfg brought address g) :
    Acts env cfg brought address fun st => g (f st) := by
  intro w s hs
  have hstored := streamAt_storeStream hs.1 (f (s, w.memory))
  have hh := hg _ _ hstored
  rw [storeStream_storeStream] at hh
  exact (hf w s hs).trans hh

theorem Acts.refl : Acts (D := D) env cfg brought address fun st => st := by
  intro w s hs
  rw [storeStream_self hs.2]

variable (env cfg brought)

theorem acts_foldl_insertSegment (xs : List (HlsMediaPlaylist.Segment D)) :
    Acts env cfg brought address fun st => xs.foldl SeamlessContentStream.insertSegment st := by
  induction xs with
  | nil => exact .refl
  | cons x xs ih =>
    have hinsert : Acts env cfg brought address fun st => SeamlessContentStream.insertSegment st x :=
      fun w s hs => .single (.insert address s hs x)
    exact hinsert.comp ih

theorem acts_dropLoop (fuel : Nat) :
    Acts (D := D) env cfg brought address (SeamlessContentStream.dropLoop fuel) := by
  induction fuel with
  | zero => exact .refl
  | succ fuel ih =>
    intro w s hs
    have hdrop : Acts (D := D) env cfg brought address SeamlessContentStream.dropOldest :=
      fun w s hs => .single (.drop address s hs)
    simp only [SeamlessContentStream.dropLoop]
    split
    · exact hdrop.comp ih w s hs
    · exact Acts.refl w s hs

theorem acts_accept (pl : HlsMediaPlaylist D) (source : ItemSource) :
    Acts env cfg brought address (SeamlessContentStream.accept pl source) := by
  intro w s hs
  let xs := SeamlessContentStream.reached s.truncateCdnPlaylistSegments source pl.segments
  have hloops := (acts_foldl_insertSegment env cfg brought xs).comp
    (acts_dropLoop env cfg brought ((xs.foldl SeamlessContentStream.insertSegment (s, w.memory)).1.segments.size))
    w s hs
  dsimp only at hloops
  rw [SeamlessContentStream.dropLoop_eq, min_eq_right (Nat.sub_le _ _),
    SeamlessContentStream.keepCount_foldl_insertSegment] at hloops
  exact hloops

variable {env cfg brought} [DoubleText D]

theorem effects_handlePlaylist (hs : w.StreamAt address s) {indeterminate : Int} {content : Str}
    {source : ItemSource} {st : SeamlessContentStream D × Memory D}
    (h : SeamlessContentStream.handlePlaylist indeterminate content source (s, w.memory) = .ok st) :
    Effects env cfg brought w (w.storeStream address st) := by
  rw [SeamlessContentStream.handlePlaylist_eq] at h
  cases hp : (HlsMediaPlaylist.parse indeterminate content : Except Fault (HlsMediaPlaylist D)) with
  | error e =>
    rw [hp] at h
    cases h
  | ok pl =>
    rw [hp] at h
    cases h
    have haccept := acts_accept env cfg brought pl source w s hs
    have hrender : Effect env cfg brought _ _ := .render address
      (SeamlessContentStream.accept pl source (s, w.memory)).1 (streamAt_storeStream hs.1 _)
      (SeamlessContentStream.windowPlaylist (SeamlessContentStream.accept pl source (s, w.memory)).1
        (SeamlessContentStream.accept pl source (s, w.memory)).2 pl.targetduration).toString
    rw [storeStream_storeStream] at hrender
    exact haccept.tail hrender

theorem effects_receive (h : address < w.nextStream) (indeterminate : Int) (r : Reception) :
    Effects env cfg (w.brings (.reception address indeterminate r)) w
      (w.receive address indeterminate r).1 := by
  have hplaylist : ∀ (s : SeamlessContentStream D) (content : Str) (source : ItemSource)
      (isPlaylist : Bool), w.stream address = .seamless s →
      Effects env cfg (w.brings (.reception address indeterminate r)) w
        (w.storeResult address isPlaylist
          (SeamlessContentStream.handlePlaylist indeterminate content source (s, w.memory))).1 := by
    intro s content source isPlaylist hs
    cases hst : SeamlessContentStream.handlePlaylist indeterminate content source (s, w.memory) with
    | error e => exact .refl
    | ok st => exact effects_handlePlaylist ⟨h, hs⟩ hst
  unfold receive
  cases hs : w.stream address with
  | basic cs =>
    cases r with
    | fluteFile file =>
      refine .single (.store address cs h hs file fun l hl => ?_)
      simp only [brings, AnyStream.fileLocation, hs, hl, Option.toList_some, List.map_cons,
        List.map_nil, List.mem_singleton]
    | cdnPlaylist content => exact .refl
  | seamless s =>
    cases r with
    | fluteFile file =>
      dsimp only
      unfold SeamlessContentStream.fluteFileReceived
      split_ifs
      · exact hplaylist s _ _ _ hs
      · have hsame : w.storeStream address (s, w.memory) = w := storeStream_self hs
        change Effects env cfg _ w (w.storeStream address (s, w.memory))
        rw [hsame]
      · refine .single (.keep address s ⟨h, hs⟩ file ?_)
        simp only [brings, AnyStream.fileLocation, hs, Option.toList_some, List.map_cons,
          List.map_nil, List.mem_singleton]
    | cdnPlaylist content =>
      dsimp only
      split_ifs
      · exact hplaylist s _ _ _ hs
      · exact .refl

theorem effects_setCdnEndpoint {url : Str} (hurl : AnnouncedPattern env w.items url) :
    Effects env cfg brought w (perform env (.setCdnEndpoint address url) w).state := by
  simp only [perform, callSetCdnEndpoint]
  cases hs : w.stream address with
  | basic cs => exact .refl
  | seamless s =>
    simp only [AnyStream.asSeamless?, SeamlessContentStream.setCdnEndpoint]
    cases huri : env.rest.uri url with
    | none =>
      have hsame : w.storeStream address (s, w.memory) = w := storeStream_self hs
      change Effects env cfg brought w (w.storeStream address (s, w.memory))
      rw [hsame]
    | some uri =>
      dsimp only
      by_cases haccepted : env.rest.httpClient uri.endpoint = true
      · rw [if_pos haccepted]
        have hredirect : Effect env cfg brought w _ := .redirect address s hs url hurl uri huri
          (some uri.endpoint) (.inr ⟨haccepted, rfl⟩)
        exact .tail (.single hredirect) (.listPlaylist _ (.stream address))
      · rw [if_neg haccepted]
        exact .single (.redirect address s hs url hurl uri huri s.cdnClient (.inl rfl))

theorem effects_addAndStart (service : Nat) :
    Effects env cfg brought w (perform env (.addAndStartContentStream service address) w).state := by
  have hframe : ∀ (v : World D) (sv : Service D) (passed : List Nat),
      Effect env cfg brought v { v.setService service sv with passed := passed } :=
    fun v sv passed => .frame _ _ _ _ _
  have hcontent : ∀ (v : World D) (s : AnyStream D) (c c' : ContentStream D),
      v.stream address = s.setContent c → Effect env cfg brought v (v.setStream address (s.setContent c')) := by
    intro v s c c' hv
    have hsame : (s.setContent c).setContent c' = s.setContent c' := by cases s <;> rfl
    have heffect : Effect env cfg brought v _ := .content address c'
    rwa [hv, hsame] at heffect
  have hself : ∀ s : AnyStream D, s = s.setContent s.content := by
    intro s
    cases s <;> rfl
  have hmatched := hcontent w (w.stream address) _
    ((w.service service).matchStream (w.stream address).content) (hself _)
  simp only [perform, addAndStartContentStream]
  cases ((w.service service).matchStream (w.stream address).content).start with
  | error e => exact .tail (.single hmatched) (hframe _ _ _)
  | ok cs =>
    dsimp only
    have hadded := hframe (w.setStream address ((w.stream address).setContent
      ((w.service service).matchStream (w.stream address).content)))
      { w.service service with
        contentStreams := (w.service service).contentStreams.set
          ((w.service service).matchStream (w.stream address).content).playlistPath address }
      (w.passed ++ [address])
    refine .tail (.tail (.tail (.single hmatched) hadded) ?_) (.frame _ _ _ _ _)
    exact hcontent _ (w.stream address) _ cs (Function.update_self ..)

theorem effects_readMasterManifest (service : Nat) (manifest basePath : Str) :
    Effects env cfg brought w (perform env (.readMasterManifest service manifest basePath) w).state := by
  have hread := readMasterManifest_ensures service manifest basePath (w.service service)
    w.memory.cache
  simp only [perform, callReadMasterManifest]
  cases hr : (w.service service).readMasterManifest service manifest basePath w.memory.cache with
  | error e => exact .refl
  | ok result =>
    obtain ⟨sv, cache⟩ := result
    rw [hr] at hread
    obtain ⟨-, -, -, -, -, rfl⟩ := hread
    exact .tail (.single (.listPlaylist _ (.service service))) (.frame _ _ _ _ _)

theorem effects_perform (op : MiddlewareCall D)
    (h : ServiceAnnouncement.Announced cfg (AnnouncedPattern env w.items) op) :
    Effects env cfg brought w (perform env op w).state := by
  cases op with
  | newStream s => exact .single (.newStream s h)
  | setCdnEndpoint address url => exact effects_setCdnEndpoint h
  | addAndStartContentStream service address => exact effects_addAndStart service
  | readMasterManifest service manifest basePath => exact effects_readMasterManifest service _ _
  | newService => exact .single (.frame _ _ _ _ _)
  | addName service name lang => exact .single (.frame _ _ _ _ _)
  | setDeliveryProtocol service mimeType => exact .single (.frame _ _ _ _ _)
  | setBasePath basePath => exact .single (.frame _ _ _ _ _)
  | setService id service => exact .single (.frame _ _ _ _ _)
  | getService | deliveryProtocol | basePath | contentStreamCount => exact .refl

/-- Whatever is done to the objects comes to effects on them. -/
theorem effects_change {c : WorldChange D} (h : w.Permitted env cfg c) :
    Effects env cfg (w.brings c) w (w.change env c) := by
  cases c with
  | items items => exact .single (.items items h)
  | call op => exact effects_perform op h
  | reception address indeterminate r => exact effects_receive h indeterminate r
  | download segment now file => exact .single (.download segment now file h List.mem_cons_self)
  | cacheCheck cacheManagement clock =>
    refine .single (.forget _ fun l item hl => ?_)
    exact ((CacheManagement.find?_checkFileExpiryAndCacheSize ..).mp hl).1

variable (env cfg) in
/-- The worlds that the middleware can come to. -/
inductive Reachable : World D → Prop
  | initial : Reachable (.initial env)
  | change {w : World D} {c : WorldChange D} (h : Reachable w) (hc : w.Permitted env cfg c) :
      Reachable (w.change env c)

theorem Reachable.invariant {I : World D → Prop} (h0 : I (.initial env))
    (hI : ∀ brought w w', Effect env cfg brought w w' → I w → I w') (h : Reachable env cfg w) :
    I w := by
  induction h with
  | initial => exact h0
  | change _ hc ih => exact Effects.invariant (hI _) (effects_change hc) ih

end World

end MbmsMiddleware
