import MbmsMiddleware.Runs
import MbmsMiddleware.SeamlessContentStream

/-! Services: the streams registered in them and the manifests they serve. -/

namespace MbmsMiddleware

/-- What a `std::shared_ptr<ContentStream>` points to. -/
inductive AnyStream (D : Type) where
  | basic (s : ContentStream D)
  | seamless (s : SeamlessContentStream D)

namespace AnyStream

variable {D : Type}

def content : AnyStream D → ContentStream D
  | .basic s => s
  | .seamless s => s.toContentStream

def setContent (c : ContentStream D) : AnyStream D → AnyStream D
  | .basic _ => .basic c
  | .seamless s => .seamless { s with toContentStream := c }

/-- `std::dynamic_pointer_cast<SeamlessContentStream>` -/
def asSeamless? : AnyStream D → Option (SeamlessContentStream D)
  | .basic _ => none
  | .seamless s => some s

@[simp] theorem content_setContent (c : ContentStream D) (s : AnyStream D) :
    (s.setContent c).content = c := by
  cases s <;> rfl

@[simp] theorem isSome_asSeamless?_setContent (c : ContentStream D) (s : AnyStream D) :
    (s.setContent c).asSeamless?.isSome = s.asSeamless?.isSome := by
  cases s <;> rfl

end AnyStream

structure DashManifest where
  content : Str := []
  basePath : Str := []
  deriving DecidableEq, Repr

/-- `contentStreams` holds the addresses of streams. -/
structure Service (D : Type) where
  deliveryProtocol : DeliveryProtocol
  contentStreams : OrdMap Str Nat := .empty
  names : OrdMap Str Str := .empty
  hlsPrimaryPlaylist : HlsPrimaryPlaylist D := {}
  dashManifest : DashManifest := {}
  manifest : Str := []
  manifestPath : Str := []

/-- What is read from members before they are set. `time` is what `mktime` makes of
a date text: `std::get_time` sets only some of the members of the `std::tm`. -/
structure Indeterminate (D : Type) where
  time : Str → Int
  deliveryProtocol : DeliveryProtocol
  bandwidth : Nat
  frameRate : D

namespace ContentTypeConstants

def mbmsEnvelope : Str := "application/mbms-envelope+xml".toList
def mbmsUserServiceDescription : Str := "application/mbms-user-service-description+xml".toList
def hls : Str := "application/vnd.apple.mpegurl".toList
def dash : Str := "application/dash+xml".toList
def sdp : Str := "application/sdp".toList
def hlsManifest : Str := "m3u8".toList
def dashManifest : Str := "mpd".toList

end ContentTypeConstants

namespace Service

variable {D : Type}

def addName (sv : Service D) (name lang : Str) : Service D :=
  { sv with names := sv.names.set lang name }

/-- The profile behind a semicolon is cut off. -/
def deliveryProtocolOfMimeType (mimeType : Str) : DeliveryProtocol :=
  let adjustedMimeType := mimeType.takeWhile (· ≠ ';')
  if adjustedMimeType = ContentTypeConstants.hls then .hls
  else if adjustedMimeType = ContentTypeConstants.dash then .dash
  else .rtp

def setDeliveryProtocolFromMimeType (sv : Service D) (mimeType : Str) : Service D :=
  { sv with deliveryProtocol := deliveryProtocolOfMimeType mimeType }

/-- `self` is the address of the service, which the cached playlist refers to. -/
def readMasterManifest [DoubleText D] (self : Nat) (manifest basePath : Str) (sv : Service D)
    (cache : Cache) : Except Fault (Service D × Cache) := do
  let sv ← match sv.deliveryProtocol with
    | .hls => do
      let pl ← HlsPrimaryPlaylist.parse manifest basePath
      pure { sv with hlsPrimaryPlaylist := pl }
    | .dash => pure { sv with dashManifest := ⟨manifest, basePath⟩ }
    | .rtp => pure sv
  let manifestPath :=
    if sv.deliveryProtocol = .hls then basePath ++ "manifest.m3u8".toList
    else basePath ++ "manifest.mpd".toList
  pure ({ sv with manifestPath := manifestPath },
    cache.addItem (.playlist manifestPath 0 (.service self)))

/-- The stream takes over the attributes of the entries of the primary playlist
that have its path. -/
def matchStream (sv : Service D) (s : ContentStream D) : ContentStream D :=
  if sv.deliveryProtocol = .hls then
    sv.hlsPrimaryPlaylist.streams.foldl (fun s stream =>
      if stream.uri = s.playlistPath then
        { s with
          resolution := stream.resolution
          codecs := stream.codecs
          bandwidth := some stream.bandwidth
          frameRate := some stream.frameRate }
      else s) s
  else s

theorem matchStream_eq (sv : Service D) (s : ContentStream D) :
    ∃ r c b f, sv.matchStream s =
      { s with resolution := r, codecs := c, bandwidth := b, frameRate := f } := by
  unfold matchStream
  split
  · refine Runs.foldl_invariant (I := fun t : ContentStream D => ∃ r c b f, t =
      { s with resolution := r, codecs := c, bandwidth := b, frameRate := f }) ?_
      ⟨s.resolution, s.codecs, s.bandwidth, s.frameRate, rfl⟩ _
    rintro _ stream ⟨r, k, b, f, rfl⟩
    split
    · exact ⟨_, _, _, _, rfl⟩
    · exact ⟨r, k, b, f, rfl⟩
  · exact ⟨s.resolution, s.codecs, s.bandwidth, s.frameRate, rfl⟩

/-- The line of a stream in the generated manifest. -/
def variant (indeterminate : Indeterminate D) (s : ContentStream D) : HlsPrimaryPlaylist.Stream D where
  uri := '/' :: s.playlistPath
  resolution := s.resolution
  codecs := s.codecs
  bandwidth := s.bandwidth.getD indeterminate.bandwidth
  frameRate := s.frameRate.getD indeterminate.frameRate

/-- The end of `addAndStartContentStream`. -/
def recreateManifest [DoubleText D] (indeterminate : Indeterminate D) (stream : Nat → AnyStream D)
    (sv : Service D) : Service D :=
  match sv.deliveryProtocol with
  | .hls =>
    let pl : HlsPrimaryPlaylist D :=
      { streams := sv.contentStreams.entries.map fun e => variant indeterminate (stream e.2).content }
    { sv with manifest := pl.toString }
  | .dash => { sv with manifest := sv.dashManifest.content }
  | .rtp => sv

end Service

end MbmsMiddleware
