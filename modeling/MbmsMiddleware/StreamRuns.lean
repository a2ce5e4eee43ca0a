import MbmsMiddleware.Newcomers
import MbmsMiddleware.ServedWindow

/-! Runs of a stream next to the arrival of files and the housekeeping of the
item map. -/

namespace MbmsMiddleware

/-- `text` is what the callbacks of the generated entries return at the time of
the pass. -/
inductive StreamEvent where
  | playlist (call : PlaylistCall)
  | fluteFile (indeterminate : Int) (file : FluteFile)
  | cdnFile (address now : Nat) (file : Str)
  | cacheCheck (clock : Clock) (text : PlaylistOwner → Str)

/-- The playlist that an event brings to a stream with this playlist path. -/
def StreamEvent.playlistCall (path : Str) : StreamEvent → Option PlaylistCall
  | .playlist call => some call
  | .fluteFile indeterminate file =>
    if file.contentLocation = path then some ⟨indeterminate, file.buffer, .broadcast⟩ else none
  | .cdnFile .. | .cacheCheck .. => none

/-- The segment file that an event brings. -/
def StreamEvent.segmentFile (path : Str) : StreamEvent → Option FluteFile
  | .fluteFile _ file =>
    if file.contentLocation = path ∨ file.contentLocation = ContentStream.indexM3u8 then none
    else some file
  | .playlist _ | .cdnFile .. | .cacheCheck .. => none

namespace SeamlessContentStream

variable {D : Type}

theorem Represents.congr {hist : List (HlsMediaPlaylist.Segment D)}
    {st st' : SeamlessContentStream D × Memory D} (h : Represents hist st)
    (hsegments : st'.1.segments = st.1.segments) (hkeep : st'.1.keepCount = st.1.keepCount)
    (hdir : st'.1.playlistDir = st.1.playlistDir) (hnext : st'.2.nextSegment = st.2.nextSegment)
    (hobj : ∀ a, (st'.2.segment a).uri = (st.2.segment a).uri ∧
      (st'.2.segment a).seq = (st.2.segment a).seq ∧
      (st'.2.segment a).extinf = (st.2.segment a).extinf) : Represents hist st' := by
  refine ⟨by rw [hsegments, hkeep, h.keys], fun k a hk => ?_⟩
  obtain ⟨huri, hseq, hinf⟩ := hobj a
  rw [hsegments] at hk
  rw [hnext, hdir, huri, hseq, hinf]
  exact h.objects k a hk

variable [DoubleText D] (cfg : CacheManagement)

def streamStep (st : SeamlessContentStream D × Memory D) :
    StreamEvent → SeamlessContentStream D × Memory D
  | .playlist call => playlistStep st call
  | .fluteFile indeterminate file =>
    match fluteFileReceived indeterminate file st with
    | .ok st => st
    | .error _ => st
  | .cdnFile address now file =>
    let segment := (st.2.segment address).cdnFileReceived now file
    (st.1, { st.2 with segment := Function.update st.2.segment address segment })
  | .cacheCheck clock text =>
    let view := itemView ⟨st.2.segment, text⟩
    (st.1, { st.2 with cache := cfg.checkFileExpiryAndCacheSize view clock st.2.cache })

theorem streamStep_playlistCall {st : SeamlessContentStream D × Memory D} {e : StreamEvent}
    {call : PlaylistCall} (h : e.playlistCall st.1.playlistPath = some call) :
    streamStep cfg st e = playlistStep st call := by
  cases e with
  | playlist c =>
    cases h
    rfl
  | fluteFile indeterminate file =>
    simp only [StreamEvent.playlistCall] at h
    split_ifs at h with hf
    cases h
    have hreceived : fluteFileReceived indeterminate file st =
        handlePlaylist indeterminate file.buffer .broadcast st := if_pos hf
    change (match fluteFileReceived indeterminate file st with
      | .ok st => st
      | .error _ => st) = _
    rw [hreceived]
    rfl
  | cdnFile | cacheCheck => cases h

theorem streamStep_fluteFile {st : SeamlessContentStream D × Memory D} {indeterminate : Int}
    {file : FluteFile} (h : file.contentLocation ≠ st.1.playlistPath) :
    streamStep cfg st (.fluteFile indeterminate file) =
      if file.contentLocation = ContentStream.indexM3u8 then st
      else ({ st.1 with fluteFiles := st.1.fluteFiles.set file.contentLocation file }, st.2) := by
  simp only [streamStep, fluteFileReceived, if_neg h]
  split_ifs <;> rfl

theorem streamStep_frame (st : SeamlessContentStream D × Memory D) (e : StreamEvent) :
    (streamStep cfg st e).1 = { st.1 with
      segments := (streamStep cfg st e).1.segments
      fluteFiles := (streamStep cfg st e).1.fluteFiles
      playlist := (streamStep cfg st e).1.playlist } := by
  cases hc : e.playlistCall st.1.playlistPath with
  | some call =>
    rw [streamStep_playlistCall cfg hc]
    exact playlistStep_frame st call
  | none =>
    cases e with
    | playlist call => cases hc
    | fluteFile indeterminate file =>
      have hf : file.contentLocation ≠ st.1.playlistPath := by
        intro hf
        simp [StreamEvent.playlistCall, hf] at hc
      rw [streamStep_fluteFile cfg hf]
      split_ifs <;> rfl
    | cdnFile | cacheCheck => rfl

/-- The segments that an event makes the insertion loop reach. -/
def eventSegments (s : SeamlessContentStream D) (e : StreamEvent) :
    List (HlsMediaPlaylist.Segment D) :=
  match e.playlistCall s.playlistPath with
  | some call => callSegments D s.truncateCdnPlaylistSegments call
  | none => []

theorem streamStep_represents {hist : List (HlsMediaPlaylist.Segment D)}
    {st : SeamlessContentStream D × Memory D} (h : Represents hist st) (e : StreamEvent) :
    Represents (hist ++ eventSegments st.1 e) (streamStep cfg st e) := by
  unfold eventSegments
  cases hc : e.playlistCall st.1.playlistPath with
  | some call =>
    rw [streamStep_playlistCall cfg hc]
    exact playlistStep_represents h call
  | none =>
    rw [List.append_nil]
    cases e with
    | playlist call => cases hc
    | fluteFile indeterminate file =>
      have hf : file.contentLocation ≠ st.1.playlistPath := by
        intro hf
        simp [StreamEvent.playlistCall, hf] at hc
      rw [streamStep_fluteFile cfg hf]
      split_ifs
      · exact h
      · exact h.congr rfl rfl rfl rfl (fun _ => ⟨rfl, rfl, rfl⟩)
    | cdnFile address now file =>
      refine h.congr rfl rfl rfl rfl (fun a => ?_)
      by_cases ha : a = address
      · subst ha
        simp [streamStep, Segment.cdnFileReceived, Segment.uri]
      · simp [streamStep, Function.update_of_ne ha]
    | cacheCheck clock text => exact h.congr rfl rfl rfl rfl (fun _ => ⟨rfl, rfl, rfl⟩)

def oneSegmentPlaylist : PlaylistCall where
  indeterminate := 0
  content := "#EXTM3U\n#EXT-X-MEDIA-SEQUENCE:1\na.ts\n".toList
  source := .broadcast

def receivedSegment : FluteFile where
  contentLocation := "a.ts".toList
  toi := 1
  contentType := []
  buffer := ['x']
  receivedAt := 1000
  complete := true

end SeamlessContentStream

end MbmsMiddleware
