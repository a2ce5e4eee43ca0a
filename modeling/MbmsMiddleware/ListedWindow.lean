import MbmsMiddleware.PlainStream
import MbmsMiddleware.PlaylistNumbering
import MbmsMiddleware.RecentKeys

/-! The window of a stream and what the insertion loop has reached in its
playlists. The window shows the newest numbers, each with the location and the
duration that it came with first, and the playlist that the stream serves lists it. -/

namespace MbmsMiddleware

variable {D : Type}

def Segment.listing (x : Segment D) : HlsMediaPlaylist.Segment D := ⟨x.uri, x.seq, x.extinf⟩

namespace HlsMediaPlaylist.Segment

def located (dir : Str) (x : HlsMediaPlaylist.Segment D) : HlsMediaPlaylist.Segment D :=
  { x with uri := dir ++ x.uri }

def numbered (x : HlsMediaPlaylist.Segment D) : Int × HlsMediaPlaylist.Segment D := (x.seq, x)

/-- It can be read back from a printed playlist. -/
structure Printable (x : HlsMediaPlaylist.Segment D) : Prop where
  uri_line : '\n' ∉ x.uri
  seq_range : -2 ^ 31 ≤ x.seq ∧ x.seq < 2 ^ 31

end HlsMediaPlaylist.Segment

open HlsMediaPlaylist.Segment

namespace PlainStream

def window (s : PlainStream D) : OrdMap Int (HlsMediaPlaylist.Segment D) :=
  s.segments.map Segment.listing

theorem window_insertSegment (s : PlainStream D) (x : HlsMediaPlaylist.Segment D) :
    (s.insertSegment x).window = s.window.setNew (x.located s.playlistDir).numbered := by
  have hfind : s.window.find? x.seq = (s.segments.find? x.seq).map Segment.listing :=
    OrdMap.find?_map ..
  unfold insertSegment
  cases hx : s.segments.find? x.seq with
  | some y =>
    rw [hx] at hfind
    exact (OrdMap.setNew_known hfind).symm
  | none =>
    rw [hx] at hfind
    rw [OrdMap.setNew_new hfind]
    exact OrdMap.map_set ..

theorem insertSegment_frame (s : PlainStream D) (x : HlsMediaPlaylist.Segment D) :
    s.insertSegment x = { s with
      segments := (s.insertSegment x).segments
      fluteFiles := (s.insertSegment x).fluteFiles } := by
  unfold insertSegment
  split <;> rfl

theorem foldl_insertSegment_frame (s : PlainStream D) (xs : List (HlsMediaPlaylist.Segment D)) :
    xs.foldl insertSegment s = { s with
      segments := (xs.foldl insertSegment s).segments
      fluteFiles := (xs.foldl insertSegment s).fluteFiles } := by
  refine Runs.foldl_invariant (I := fun t : PlainStream D => t = { s with
    segments := t.segments, fluteFiles := t.fluteFiles }) ?_ rfl xs
  intro t x h
  rw [insertSegment_frame, h]

theorem window_foldl_insertSegment (s : PlainStream D) (xs : List (HlsMediaPlaylist.Segment D)) :
    (xs.foldl insertSegment s).window =
      (xs.map fun x => (x.located s.playlistDir).numbered).foldl OrdMap.setNew s.window := by
  induction xs generalizing s with
  | nil => rfl
  | cons x xs ih =>
    have hdir : (s.insertSegment x).playlistDir = s.playlistDir := by rw [insertSegment_frame]
    rw [List.foldl_cons, ih, hdir, window_insertSegment, List.map_cons, List.foldl_cons]

theorem accept_frame (s : PlainStream D) (pl : HlsMediaPlaylist D) (source : ItemSource) :
    s.accept pl source = { s with
      segments := (s.accept pl source).segments
      fluteFiles := (s.accept pl source).fluteFiles } := by
  unfold accept
  dsimp only
  rw [foldl_insertSegment_frame]

theorem window_accept (s : PlainStream D) (pl : HlsMediaPlaylist D) (source : ItemSource) :
    (s.accept pl source).window =
      (((SeamlessContentStream.reached s.truncateCdnPlaylistSegments source pl.segments).map
        fun x => (x.located s.playlistDir).numbered).foldl OrdMap.setNew s.window).keepLast
          s.keepCount := by
  have hwindow := window_foldl_insertSegment s
    (SeamlessContentStream.reached s.truncateCdnPlaylistSegments source pl.segments)
  have hframe := foldl_insertSegment_frame s
    (SeamlessContentStream.reached s.truncateCdnPlaylistSegments source pl.segments)
  rw [← hwindow]
  unfold accept
  dsimp only
  generalize (SeamlessContentStream.reached s.truncateCdnPlaylistSegments source pl.segments).foldl
    insertSegment s = inserted at hframe
  have hkeep : inserted.keepCount = s.keepCount := by
    rw [hframe]
    rfl
  unfold OrdMap.keepLast window
  rw [hkeep, OrdMap.size_map]
  exact OrdMap.ext List.map_drop

theorem rendering_eq (s : PlainStream D) (t : Int) :
    s.rendering t = { targetduration := t, segments := s.window.entries.map (·.2) } := by
  unfold rendering window OrdMap.map
  rw [List.map_map]
  rfl

theorem window_cdnFileReceived (s : PlainStream D) (number : Int) (now : Nat) (file : Str) :
    (s.cdnFileReceived number now file).window = s.window := by
  unfold cdnFileReceived
  cases hx : s.segments.find? number with
  | none => rfl
  | some x =>
    change (s.segments.set number (x.cdnFileReceived now file)).map Segment.listing = s.window
    rw [OrdMap.map_set]
    refine OrdMap.find?_ext fun k => ?_
    rw [OrdMap.find?_set]
    split_ifs with hk
    · rw [hk, window, OrdMap.find?_map, hx]
      rfl
    · rfl

variable [DoubleText D]

/-- The segments that the insertion loop reaches in a playlist that is received, each
at its location. The last ones of a playlist from the CDN it does not reach. -/
def reached (s : PlainStream D) (indeterminate : Int) (r : Reception) :
    List (HlsMediaPlaylist.Segment D) :=
  match s.playlistCall indeterminate r with
  | some call => (SeamlessContentStream.callSegments D s.truncateCdnPlaylistSegments call).map
      (·.located s.playlistDir)
  | none => []

theorem printable_of_reached {s : PlainStream D} (hdir : '\n' ∉ s.playlistDir) {indeterminate : Int}
    {r : Reception} {x : HlsMediaPlaylist.Segment D} (hx : x ∈ s.reached indeterminate r) :
    x.Printable := by
  unfold reached at hx
  cases hcall : s.playlistCall indeterminate r with
  | none =>
    rw [hcall] at hx
    cases hx
  | some call =>
    rw [hcall] at hx
    obtain ⟨y, hy, rfl⟩ := List.mem_map.mp hx
    have hwf := SeamlessContentStream.callSegments_wellFormed hy
    have hclean := hwf.uri_clean.1
    exact ⟨by simp [located, hdir, hclean], hwf.seq_range⟩

/-- A stream after all that was reached in its playlists. -/
structure Shows (hist : List (HlsMediaPlaylist.Segment D)) (s : PlainStream D) : Prop where
  window : OrdMap.Recent s.keepCount (hist.map numbered) s.window
  playlist : s.segments = .empty ∨ ∃ t, s.playlist = (s.rendering t).toString

theorem shows_nil {s : PlainStream D} (h : s.segments = .empty) : s.Shows [] := by
  refine ⟨?_, .inl h⟩
  have hwindow : s.window = .empty := by
    rw [window, h]
    rfl
  rw [hwindow]
  exact OrdMap.recent_nil _

variable {hist : List (HlsMediaPlaylist.Segment D)} {s s' : PlainStream D}

theorem Shows.mem (h : s.Shows hist) {x : HlsMediaPlaylist.Segment D}
    (hx : x ∈ s.window.entries.map (·.2)) : x ∈ hist := by
  obtain ⟨e, he, rfl⟩ := List.mem_map.mp hx
  obtain ⟨y, hy, heq⟩ := List.mem_map.mp (h.window.mem (OrdMap.find?_eq_some.mpr he))
  exact (Prod.mk.inj heq).2 ▸ hy

/-- A client finds the window listed in what the stream serves. -/
theorem Shows.lists [LawfulDoubleText D] (h : s.Shows hist) (hprint : ∀ x ∈ hist, x.Printable) :
    s.window = .empty ∨ PlaylistText.Lists s.playlist (s.window.entries.map (·.2)) := by
  refine h.playlist.imp (fun hempty => ?_) fun ⟨t, ht⟩ => ?_
  · rw [PlainStream.window, hempty]
    rfl
  · have hsegments : (s.rendering t).segments = s.window.entries.map (·.2) := by rw [rendering_eq]
    have hlists := PlaylistText.lists_toString (D := D)
      (fun x hx => (hprint x (h.mem (hsegments ▸ hx))).uri_line)
      (fun x hx => (hprint x (h.mem (hsegments ▸ hx))).seq_range)
    rw [hsegments] at hlists
    rw [ht]
    exact hlists

theorem Shows.congr (h : s.Shows hist) (hwindow : s'.window = s.window)
    (hkeep : s'.segmentsToKeep = s.segmentsToKeep) (hplaylist : s'.playlist = s.playlist) :
    s'.Shows hist := by
  have hrendering : ∀ t, s'.rendering t = s.rendering t := by
    intro t
    rw [rendering_eq, rendering_eq, hwindow]
  refine ⟨?_, ?_⟩
  · have hcount : s'.keepCount = s.keepCount := by rw [keepCount, hkeep, keepCount]
    rw [hwindow, hcount]
    exact h.window
  · refine h.playlist.imp (fun hempty => ?_) fun ⟨t, ht⟩ => ⟨t, by rw [hplaylist, hrendering, ht]⟩
    refine OrdMap.find?_ext fun k => ?_
    have hk : s'.window.find? k = s.window.find? k := by rw [hwindow]
    rw [PlainStream.window, PlainStream.window, OrdMap.find?_map, OrdMap.find?_map, hempty] at hk
    exact Option.map_eq_none_iff.mp hk

theorem Shows.handlePlaylist (h : s.Shows hist) (call : PlaylistCall) :
    (s.handlePlaylist call).Shows (hist ++
      (SeamlessContentStream.callSegments D s.truncateCdnPlaylistSegments call).map
        (·.located s.playlistDir)) := by
  unfold PlainStream.handlePlaylist
  cases hp : (HlsMediaPlaylist.parse call.indeterminate call.content :
      Except Fault (HlsMediaPlaylist D)) with
  | error e =>
    rw [SeamlessContentStream.callSegments_error hp, List.map_nil, List.append_nil]
    exact h
  | ok pl =>
    rw [SeamlessContentStream.callSegments_ok hp]
    refine ⟨?_, .inr ⟨pl.targetduration, rfl⟩⟩
    have hkeep : (s.accept pl call.source).keepCount = s.keepCount := by
      rw [accept_frame]
      rfl
    change OrdMap.Recent (s.accept pl call.source).keepCount _ (s.accept pl call.source).window
    rw [hkeep, window_accept, List.map_append, List.map_map]
    exact h.window.accept _

theorem Shows.receive (h : s.Shows hist) (indeterminate : Int) (r : Reception) :
    (s.receive indeterminate r).Shows (hist ++ s.reached indeterminate r) := by
  unfold reached
  cases hcall : s.playlistCall indeterminate r with
  | some call =>
    rw [receive_playlist hcall]
    exact h.handlePlaylist call
  | none =>
    rw [List.append_nil]
    cases hfile : s.segmentFile r with
    | some file =>
      rw [receive_segmentFile hcall hfile]
      exact h.congr rfl rfl rfl
    | none =>
      rw [receive_other hcall hfile]
      exact h

theorem handlePlaylist_frame (s : PlainStream D) (call : PlaylistCall) :
    s.handlePlaylist call = { s with
      segments := (s.handlePlaylist call).segments
      fluteFiles := (s.handlePlaylist call).fluteFiles
      playlist := (s.handlePlaylist call).playlist } := by
  unfold handlePlaylist
  split
  · rfl
  · rename_i pl _
    dsimp only
    rw [accept_frame]

theorem receive_frame (s : PlainStream D) (indeterminate : Int) (r : Reception) :
    s.receive indeterminate r = { s with
      segments := (s.receive indeterminate r).segments
      fluteFiles := (s.receive indeterminate r).fluteFiles
      playlist := (s.receive indeterminate r).playlist } := by
  unfold receive
  split
  · exact handlePlaylist_frame s _
  · rfl
  · rfl

theorem Shows.cdnFileReceived (h : s.Shows hist) (number : Int) (now : Nat) (file : Str) :
    (s.cdnFileReceived number now file).Shows hist := by
  refine h.congr (window_cdnFileReceived s number now file) ?_ ?_
  all_goals
    unfold PlainStream.cdnFileReceived
    split <;> rfl

theorem Shows.setCdnEndpoint (h : s.Shows hist) (rest : CppRest) (url : Str) :
    (s.setCdnEndpoint rest url).Shows hist := by
  unfold PlainStream.setCdnEndpoint
  split
  · exact h
  · exact h.congr rfl rfl rfl

end PlainStream

end MbmsMiddleware
