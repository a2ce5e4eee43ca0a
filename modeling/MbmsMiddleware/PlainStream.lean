import MbmsMiddleware.Receptions

/-! A seamless stream by itself. Its window holds the segments themselves, and
nothing is left of the memory and the item map that streams share. -/

namespace MbmsMiddleware

structure PlainStream (D : Type) extends ContentStream D where
  cdnEndpoint : Str
  cdnClient : Option Str
  playlistDir : Str
  playlist : Str
  segments : OrdMap Int (Segment D)
  fluteFiles : OrdMap Str FluteFile
  segmentsToKeep : Int
  truncateCdnPlaylistSegments : Int

namespace PlainStream

variable {D : Type}

def keepCount (s : PlainStream D) : Nat := (s.segmentsToKeep % 2 ^ 64).toNat

/-- The segment made for a listed one takes the file that waits for it. -/
def newSegment (s : PlainStream D) (x : HlsMediaPlaylist.Segment D) : Segment D :=
  let file := s.fluteFiles.find? (s.playlistDir ++ x.uri)
  { contentLocation := s.playlistDir ++ x.uri
    seq := x.seq
    extinf := x.extinf
    cdnClient := s.cdnClient
    fluteFile := file
    contentReceivedAt := file.elim 0 (·.receivedAt) }

def insertSegment (s : PlainStream D) (x : HlsMediaPlaylist.Segment D) : PlainStream D :=
  match s.segments.find? x.seq with
  | some _ => s
  | none =>
    { s with
      segments := s.segments.set x.seq (s.newSegment x)
      fluteFiles := s.fluteFiles.erase (s.playlistDir ++ x.uri) }

def accept (s : PlainStream D) (pl : HlsMediaPlaylist D) (source : ItemSource) : PlainStream D :=
  let s := (SeamlessContentStream.reached s.truncateCdnPlaylistSegments source pl.segments).foldl
    insertSegment s
  { s with segments := s.segments.dropFront (s.segments.size - s.keepCount) }

def rendering (s : PlainStream D) (targetduration : Int) : HlsMediaPlaylist D where
  targetduration := targetduration
  segments := s.segments.entries.map fun e => ⟨e.2.uri, e.2.seq, e.2.extinf⟩

def cdnFileReceived (s : PlainStream D) (number : Int) (now : Nat) (file : Str) : PlainStream D :=
  match s.segments.find? number with
  | some segment => { s with segments := s.segments.set number (segment.cdnFileReceived now file) }
  | none => s

def setCdnEndpoint (rest : CppRest) (cdnEpt : Str) (s : PlainStream D) : PlainStream D :=
  match rest.uri cdnEpt with
  | none => s
  | some uri =>
    { s with
      playlistPath := SeamlessContentStream.pathOfUri uri
      playlistDir := SeamlessContentStream.dirname (SeamlessContentStream.pathOfUri uri)
      cdnEndpoint := uri.endpoint
      cdnClient := if rest.httpClient uri.endpoint then some uri.endpoint else s.cdnClient }

variable [DoubleText D]

/-- A playlist that does not parse changes nothing. -/
def handlePlaylist (s : PlainStream D) (call : PlaylistCall) : PlainStream D :=
  match HlsMediaPlaylist.parse call.indeterminate call.content with
  | .error _ => s
  | .ok pl =>
    let s := s.accept pl call.source
    { s with playlist := (s.rendering pl.targetduration).toString }

def playlistCall (s : PlainStream D) (indeterminate : Int) : Reception → Option PlaylistCall
  | .fluteFile file =>
    if file.contentLocation = s.playlistPath then some ⟨indeterminate, file.buffer, .broadcast⟩
    else none
  | .cdnPlaylist content =>
    if s.cdnClient.isSome then some ⟨indeterminate, content, .cdn⟩ else none

def segmentFile (s : PlainStream D) : Reception → Option FluteFile
  | .fluteFile file =>
    if file.contentLocation = s.playlistPath ∨ file.contentLocation = ContentStream.indexM3u8 then none
    else some file
  | .cdnPlaylist _ => none

def receive (s : PlainStream D) (indeterminate : Int) (r : Reception) : PlainStream D :=
  match s.playlistCall indeterminate r, s.segmentFile r with
  | some call, _ => s.handlePlaylist call
  | none, some file => { s with fluteFiles := s.fluteFiles.set file.contentLocation file }
  | none, none => s

variable {s : PlainStream D} {indeterminate : Int} {r : Reception}

theorem receive_playlist {call : PlaylistCall} (h : s.playlistCall indeterminate r = some call) :
    s.receive indeterminate r = s.handlePlaylist call := by
  unfold receive
  rw [h]

theorem receive_segmentFile {file : FluteFile} (h : s.playlistCall indeterminate r = none)
    (hfile : s.segmentFile r = some file) :
    s.receive indeterminate r =
      { s with fluteFiles := s.fluteFiles.set file.contentLocation file } := by
  unfold receive
  rw [h, hfile]

theorem receive_other (h : s.playlistCall indeterminate r = none) (hfile : s.segmentFile r = none) :
    s.receive indeterminate r = s := by
  unfold receive
  rw [h, hfile]

end PlainStream

namespace SeamlessContentStream

variable {D : Type}

/-- A stream with its segments in place of their addresses. -/
def plain (segment : Nat → Segment D) (s : SeamlessContentStream D) : PlainStream D where
  toContentStream := s.toContentStream
  cdnEndpoint := s.cdnEndpoint
  cdnClient := s.cdnClient
  playlistDir := s.playlistDir
  playlist := s.playlist
  segments := s.segments.map segment
  fluteFiles := s.fluteFiles
  segmentsToKeep := s.segmentsToKeep
  truncateCdnPlaylistSegments := s.truncateCdnPlaylistSegments

def Below (st : SeamlessContentStream D × Memory D) : Prop :=
  ∀ k x, st.1.segments.find? k = some x → x < st.2.nextSegment

theorem plain_congr {s : SeamlessContentStream D} {segment segment' : Nat → Segment D}
    (h : ∀ k x, s.segments.find? k = some x → segment' x = segment x) :
    s.plain segment' = s.plain segment := by
  have hmap : s.segments.map segment' = s.segments.map segment := by
    refine OrdMap.find?_ext fun k => ?_
    rw [OrdMap.find?_map, OrdMap.find?_map]
    cases hk : s.segments.find? k with
    | none => rfl
    | some x => simp only [Option.map_some, h k x hk]
  unfold plain
  rw [hmap]

theorem Below.insertSegment {st : SeamlessContentStream D × Memory D} (h : Below st)
    (x : HlsMediaPlaylist.Segment D) : Below (insertSegment st x) := by
  obtain ⟨s, m⟩ := st
  cases hx : s.segments.find? x.seq with
  | some y => rwa [insertSegment_known hx]
  | none =>
    rw [insertSegment_new hx]
    intro k y hk
    dsimp only at hk ⊢
    rw [OrdMap.find?_set] at hk
    split_ifs at hk
    · obtain rfl := Option.some.inj hk
      exact Nat.lt_succ_self _
    · exact (h k y hk).trans (Nat.lt_succ_self _)

theorem plain_insertSegment {st : SeamlessContentStream D × Memory D} (h : Below st)
    (x : HlsMediaPlaylist.Segment D) :
    (insertSegment st x).1.plain (insertSegment st x).2.segment =
      (st.1.plain st.2.segment).insertSegment x := by
  obtain ⟨s, m⟩ := st
  unfold PlainStream.insertSegment
  have hfind : (s.plain m.segment).segments.find? x.seq = (s.segments.find? x.seq).map m.segment :=
    OrdMap.find?_map ..
  dsimp only
  rw [hfind]
  cases hx : s.segments.find? x.seq with
  | some y =>
    rw [insertSegment_known hx]
    rfl
  | none =>
    rw [insertSegment_new hx]
    have hmap : (s.segments.set x.seq m.nextSegment).map
        (Function.update m.segment m.nextSegment (newSegment s x)) =
        (s.segments.map m.segment).set x.seq (newSegment s x) := by
      rw [OrdMap.map_set, Function.update_self]
      congr 1
      refine OrdMap.find?_ext fun k => ?_
      rw [OrdMap.find?_map, OrdMap.find?_map]
      cases hk : s.segments.find? k with
      | none => rfl
      | some y => simp only [Option.map_some, Function.update_of_ne (h k y hk).ne]
    unfold plain
    dsimp only
    rw [hmap]
    rfl

theorem plain_foldl_insertSegment (xs : List (HlsMediaPlaylist.Segment D))
    {st : SeamlessContentStream D × Memory D} (h : Below st) :
    (xs.foldl insertSegment st).1.plain (xs.foldl insertSegment st).2.segment =
      xs.foldl PlainStream.insertSegment (st.1.plain st.2.segment) := by
  induction xs generalizing st with
  | nil => rfl
  | cons x xs ih => rw [List.foldl_cons, ih (h.insertSegment x), plain_insertSegment h, List.foldl_cons]

theorem plain_accept (pl : HlsMediaPlaylist D) (source : ItemSource)
    {st : SeamlessContentStream D × Memory D} (h : Below st) :
    (accept pl source st).1.plain (accept pl source st).2.segment =
      (st.1.plain st.2.segment).accept pl source := by
  unfold PlainStream.accept
  have hkeep := keepCount_foldl_insertSegment
    (reached st.1.truncateCdnPlaylistSegments source pl.segments) st
  have hplain := plain_foldl_insertSegment
    (reached st.1.truncateCdnPlaylistSegments source pl.segments) h
  have htruncate : (st.1.plain st.2.segment).truncateCdnPlaylistSegments =
      st.1.truncateCdnPlaylistSegments := rfl
  dsimp only
  rw [htruncate, ← hplain]
  unfold accept dropped
  dsimp only
  generalize (reached st.1.truncateCdnPlaylistSegments source pl.segments).foldl insertSegment st =
    inserted at hkeep
  have hdrop : ∀ n, (inserted.1.segments.dropFront n).map inserted.2.segment =
      (inserted.1.segments.map inserted.2.segment).dropFront n := by
    intro n
    refine OrdMap.ext ?_
    exact List.map_drop
  unfold plain
  dsimp only
  rw [hdrop, OrdMap.size_map, ← hkeep]
  rfl

variable [DoubleText D]

theorem plain_playlistStep {st : SeamlessContentStream D × Memory D} (h : Below st)
    (call : PlaylistCall) :
    (playlistStep st call).1.plain (playlistStep st call).2.segment =
      (st.1.plain st.2.segment).handlePlaylist call := by
  unfold PlainStream.handlePlaylist
  cases hp : (HlsMediaPlaylist.parse call.indeterminate call.content :
      Except Fault (HlsMediaPlaylist D)) with
  | error e => rw [playlistStep_error hp]
  | ok pl =>
    have hrendering : windowPlaylist (accept pl call.source st).1 (accept pl call.source st).2
        pl.targetduration =
        ((accept pl call.source st).1.plain (accept pl call.source st).2.segment).rendering
          pl.targetduration := by
      unfold windowPlaylist PlainStream.rendering plain OrdMap.map
      rw [List.map_map]
      rfl
    rw [playlistStep_ok hp]
    dsimp only
    rw [← plain_accept pl call.source h, ← hrendering]
    rfl

end SeamlessContentStream

end MbmsMiddleware
