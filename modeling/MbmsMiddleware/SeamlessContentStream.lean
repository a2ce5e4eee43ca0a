import MbmsMiddleware.ContentStream
import MbmsMiddleware.HlsMediaPlaylist
import MbmsMiddleware.Segment
import Mathlib.Logic.Function.Basic

/-! Content streams with seamless switching: a window of segments filled from
broadcast and CDN playlists. -/

namespace MbmsMiddleware

/-- `segments` holds the addresses of `Segment` objects. -/
structure SeamlessContentStream (D : Type) extends ContentStream D where
  cdnEndpoint : Str := "none".toList
  cdnClient : Option Str := none
  playlistDir : Str := []
  playlist : Str := "none".toList
  segments : OrdMap Int Nat := .empty
  fluteFiles : OrdMap Str FluteFile := .empty
  segmentsToKeep : Int := 10
  truncateCdnPlaylistSegments : Int := 7

/-- The shared state a stream works on: the `Segment` objects by address, the
next free address, and the item map. -/
structure Memory (D : Type) where
  segment : Nat → Segment D
  nextSegment : Nat
  cache : Cache

namespace SeamlessContentStream

variable {D : Type}

/-- The body of the insertion loop of `handlePlaylist`. -/
def insertSegment (st : SeamlessContentStream D × Memory D) (segment : HlsMediaPlaylist.Segment D) :
    SeamlessContentStream D × Memory D :=
  let (s, m) := st
  match s.segments.find? segment.seq with
  | some _ => (s, m)
  | none =>
    let fullUri := s.playlistDir ++ segment.uri
    let seg : Segment D := { contentLocation := fullUri, seq := segment.seq, extinf := segment.extinf }
    let seg := match s.cdnClient with
      | some client => seg.setCdnClient client
      | none => seg
    let (seg, fluteFiles) := match s.fluteFiles.find? fullUri with
      | some file => (seg.setFluteFile file, s.fluteFiles.erase fullUri)
      | none => (seg, s.fluteFiles)
    ({ s with segments := s.segments.set segment.seq m.nextSegment, fluteFiles := fluteFiles },
     { segment := Function.update m.segment m.nextSegment seg
       nextSegment := m.nextSegment + 1
       cache := m.cache.addItem (.segment fullUri 0 m.nextSegment) })

/-- `size_t count`, which wraps around when the playlist is shorter than what
is to be cut off. -/
def insertCount (truncate : Int) (source : ItemSource) (size : Nat) : Nat :=
  if source = .cdn then (((size : Int) - truncate) % 2 ^ 64).toNat else size

/-- The insertion loop: the test comes after the body and after counting. -/
def insertLoop (count : Nat) : Nat → List (HlsMediaPlaylist.Segment D) →
    SeamlessContentStream D × Memory D → SeamlessContentStream D × Memory D
  | _, [], st => st
  | idx, segment :: rest, st =>
    let st := insertSegment st segment
    if idx > count then st else insertLoop count (idx + 1) rest st

/-- `_segments.extract(_segments.begin())` and the removal of its cache item. -/
def dropOldest (st : SeamlessContentStream D × Memory D) : SeamlessContentStream D × Memory D :=
  let (s, m) := st
  match s.segments.entries with
  | [] => (s, m)
  | ⟨_, address⟩ :: _ =>
    ({ s with segments := s.segments.dropFront 1 },
     { m with cache := m.cache.removeItem (m.segment address).uri })

/-- `_segments_to_keep` as the `size_t` it is compared as. -/
def keepCount (s : SeamlessContentStream D) : Nat := (s.segmentsToKeep % 2 ^ 64).toNat

/-- `while (_segments.size() > _segments_to_keep)`. Each round makes the map
smaller by one, so as many rounds as it has entries are enough. -/
def dropLoop : Nat → SeamlessContentStream D × Memory D → SeamlessContentStream D × Memory D
  | 0, st => st
  | fuel + 1, st =>
    if st.1.segments.size > st.1.keepCount then dropLoop fuel (dropOldest st) else st

/-- The playlist rendered from the window. -/
def windowPlaylist (s : SeamlessContentStream D) (m : Memory D) (targetduration : Int) :
    HlsMediaPlaylist D where
  targetduration := targetduration
  segments := s.segments.entries.map fun e =>
    let seg := m.segment e.2
    ⟨seg.uri, seg.seq, seg.extinf⟩

variable [DoubleText D]

def handlePlaylist (indeterminate : Int) (content : Str) (source : ItemSource)
    (st : SeamlessContentStream D × Memory D) :
    Except Fault (SeamlessContentStream D × Memory D) := do
  let playlist : HlsMediaPlaylist D ← HlsMediaPlaylist.parse indeterminate content
  let count := insertCount st.1.truncateCdnPlaylistSegments source playlist.segments.length
  let st := insertLoop count 0 playlist.segments st
  let st := dropLoop st.1.segments.size st
  let (s, m) := st
  pure ({ s with playlist := (windowPlaylist s m playlist.targetduration).toString }, m)

def fluteFileReceived (indeterminate : Int) (file : FluteFile)
    (st : SeamlessContentStream D × Memory D) :
    Except Fault (SeamlessContentStream D × Memory D) :=
  if file.contentLocation = st.1.playlistPath then
    handlePlaylist indeterminate file.buffer .broadcast st
  else if file.contentLocation = ContentStream.indexM3u8 then pure st
  else pure ({ st.1 with fluteFiles := st.1.fluteFiles.set file.contentLocation file }, st.2)

end SeamlessContentStream

/-- What `web::uri` and `web::uri_builder` make of an accepted text: its path,
its query, and the text left when both are cleared. -/
structure WebUri where
  path : Str
  query : Str
  endpoint : Str

/-- The parts of cpprest that set-up relies on. `uri` is `none` where the
constructor throws, and `httpClient` tells which endpoints a client accepts. -/
structure CppRest where
  uri : Str → Option WebUri
  httpClient : Str → Bool

namespace SeamlessContentStream

variable {D : Type}

/-- `path.substr(0, path.rfind('/') + 1)`. -/
def dirname (path : Str) : Str := path.rdropWhile (· ≠ '/')

/-- The path without its first character, with the query behind it. -/
def pathOfUri (uri : WebUri) : Str :=
  let path := uri.path.drop 1
  if uri.query.length > 0 then path ++ '?' :: uri.query else path

/-- `self` is the address of the stream, which the cached playlist refers to.
What was set before an exception stays set. -/
def setCdnEndpoint (rest : CppRest) (self : Nat) (cdnEpt : Str) (s : SeamlessContentStream D)
    (cache : Cache) : SeamlessContentStream D × Cache × Option Fault :=
  match rest.uri cdnEpt with
  | none => (s, cache, some .uriException)
  | some uri =>
    let playlistPath := pathOfUri uri
    let s := { s with playlistPath := playlistPath, playlistDir := dirname playlistPath }
    let s := { s with cdnEndpoint := uri.endpoint }
    if rest.httpClient uri.endpoint then
      ({ s with cdnClient := some uri.endpoint },
       cache.addItem (.playlist playlistPath 0 (.stream self)), none)
    else (s, cache, some .invalidArgument)

end SeamlessContentStream

end MbmsMiddleware
