import MbmsMiddleware.ServedWindow
import MbmsMiddleware.SegmentWindow

/-! How many segments of a CDN playlist the insertion loop takes in, and how
many it is meant to. -/

namespace MbmsMiddleware

namespace SeamlessContentStream

variable {D : Type}

/-- A broadcast playlist is taken as it is, a CDN playlist without its last
`truncate` segments. -/
def intended (truncate : Int) (source : ItemSource) (segments : List (HlsMediaPlaylist.Segment D)) :
    List (HlsMediaPlaylist.Segment D) :=
  if source = .cdn then segments.take ((segments.length : Int) - truncate).toNat else segments

/-- The test comes one round late and is strict, so two segments more than
`count` go in. -/
theorem reachedFrom_eq_take {count idx : Nat} (h : idx ≤ count + 1)
    (segments : List (HlsMediaPlaylist.Segment D)) :
    reachedFrom count idx segments = segments.take (count + 2 - idx) := by
  induction segments generalizing idx with
  | nil => simp [reachedFrom]
  | cons segment rest ih =>
    rw [reachedFrom, show count + 2 - idx = count + 1 - idx + 1 by omega, List.take_succ_cons]
    by_cases hidx : idx > count
    · have hz : count + 1 - idx = 0 := by omega
      rw [if_pos hidx, hz, List.take_zero]
    · rw [if_neg hidx, ih (by omega)]
      congr 2
      omega

theorem length_reached (truncate : Int) (source : ItemSource)
    (segments : List (HlsMediaPlaylist.Segment D)) :
    (reached truncate source segments).length =
      min (insertCount truncate source segments.length + 2) segments.length := by
  rw [reached, reachedFrom_eq_take (Nat.zero_le _), List.length_take, Nat.sub_zero]

theorem prefix_of_intended (truncate : Int) (source : ItemSource)
    (segments : List (HlsMediaPlaylist.Segment D)) : intended truncate source segments <+: segments := by
  rw [intended]
  split_ifs
  · exact List.take_prefix _ _
  · exact List.prefix_rfl

theorem length_intended_cdn (truncate : Int) (segments : List (HlsMediaPlaylist.Segment D)) :
    (intended truncate .cdn segments).length =
      min ((segments.length : Int) - truncate).toNat segments.length := by
  rw [intended, if_pos rfl, List.length_take]

/-- Both lists are front parts of the playlist, so that only their lengths
have to be compared. -/
theorem reached_eq_intended_iff_length {truncate : Int} {source : ItemSource}
    {segments : List (HlsMediaPlaylist.Segment D)} :
    reached truncate source segments = intended truncate source segments ↔
      (reached truncate source segments).length = (intended truncate source segments).length := by
  constructor
  · intro h
    rw [h]
  · intro h
    have hr := List.prefix_iff_eq_take.mp (prefix_of_reached truncate source segments)
    have hi := List.prefix_iff_eq_take.mp (prefix_of_intended truncate source segments)
    rw [hr, hi, h]

theorem reached_broadcast {truncate : Int} {source : ItemSource} (h : source ≠ .cdn)
    (segments : List (HlsMediaPlaylist.Segment D)) :
    reached truncate source segments = segments := by
  rw [reached, reachedFrom_eq_take (Nat.zero_le _), insertCount, if_neg h]
  exact List.take_of_length_le (by omega)

/-- A positive setting is missed by every playlist that lists a segment: by two
segments when the playlist is long enough, and altogether when `count` wraps
around. -/
theorem reached_cdn_length_iff {truncate : Int} (h : 0 ≤ truncate)
    (segments : List (HlsMediaPlaylist.Segment D)) :
    (reached truncate .cdn segments).length = (intended truncate .cdn segments).length ↔
      segments = [] ∨ truncate = 0 ∧ segments.length < 2 ^ 64 := by
  have hcount : insertCount truncate .cdn segments.length =
      (((segments.length : Int) - truncate) % 2 ^ 64).toNat := if_pos rfl
  rw [length_reached, length_intended_cdn, hcount, ← List.length_eq_zero_iff]
  generalize segments.length = n
  omega

variable [DoubleText D]

/-- What a call does once the listed segments are taken in. -/
def settle (playlist : HlsMediaPlaylist D) (st : SeamlessContentStream D × Memory D) :
    SeamlessContentStream D × Memory D :=
  let (s, m) := dropLoop st.1.segments.size st
  ({ s with playlist := (windowPlaylist s m playlist.targetduration).toString }, m)

theorem handlePlaylist_settle {indeterminate : Int} {content : Str} {playlist : HlsMediaPlaylist D}
    (h : HlsMediaPlaylist.parse indeterminate content = .ok playlist) (source : ItemSource)
    (st : SeamlessContentStream D × Memory D) :
    handlePlaylist indeterminate content source st =
      .ok (settle playlist
        ((reached st.1.truncateCdnPlaylistSegments source playlist.segments).foldl
          insertSegment st)) := by
  simp only [handlePlaylist, h, bind, Except.bind, pure, Except.pure, insertLoop_eq_foldl, reached,
    settle]

/-- The segments a call inserts are those it is meant to insert only for
broadcast playlists, for empty ones, and where nothing is to be cut off. -/
theorem handlePlaylist_inserts_intended_iff {indeterminate : Int} {content : Str}
    {playlist : HlsMediaPlaylist D}
    (hparse : HlsMediaPlaylist.parse indeterminate content = .ok playlist) (source : ItemSource)
    (st : SeamlessContentStream D × Memory D) (htruncate : 0 ≤ st.1.truncateCdnPlaylistSegments) :
    let considered := reached st.1.truncateCdnPlaylistSegments source playlist.segments
    handlePlaylist indeterminate content source st =
        .ok (settle playlist (considered.foldl insertSegment st)) ∧
      (considered = intended st.1.truncateCdnPlaylistSegments source playlist.segments ↔
        source ≠ .cdn ∨ playlist.segments = [] ∨
          st.1.truncateCdnPlaylistSegments = 0 ∧ playlist.segments.length < 2 ^ 64) := by
  intro considered
  refine ⟨handlePlaylist_settle hparse source st, ?_⟩
  by_cases hs : source = .cdn
  · subst hs
    rw [reached_eq_intended_iff_length, reached_cdn_length_iff htruncate]
    simp
  · simp only [considered, reached_broadcast hs, intended, if_neg hs]
    simp [hs]

section Example

/-- `count` segments without a duration, numbered from 0. -/
def numberedFromZero (count : Nat) : HlsMediaPlaylist Int where
  targetduration := 0
  segments := (List.range count).map fun (i : Nat) => ⟨"a.ts".toList, i, -1⟩

def oneSegment : Str := "#EXTM3U\na.ts\n".toList

/-- Of eight segments three are taken in and not one, and the only segment of a
playlist is taken in although seven are to be cut off. -/
theorem truncation_missed :
    (reached 7 .cdn (numberedFromZero 8).segments).length = 3 ∧
    (intended 7 .cdn (numberedFromZero 8).segments).length = 1 ∧
    ((handlePlaylist 0 oneSegment .cdn ((newStream : SeamlessContentStream Int), noMemory)).map
      fun st => st.1.segments.keys) = .ok [0] ∧
    intended 7 .cdn (numberedFromZero 1).segments = [] := by
  decide

/-- A stream that has the broadcast's first segment and cuts nothing off takes in
all of a longer playlist from the CDN. -/
theorem cdn_taken_whole :
    let first := playlistStep (({ newStream with truncateCdnPlaylistSegments := 0 } :
      SeamlessContentStream Int), noMemory) ⟨0, oneSegment, .broadcast⟩
    let playlist := numberedFromZero 3
    let considered := reached 0 .cdn playlist.segments
    handlePlaylist 0 "#EXTM3U\na.ts\na.ts\na.ts\n".toList .cdn first =
        .ok (settle playlist (considered.foldl insertSegment first)) ∧
      first.1.segments.keys = [0] ∧ considered.length = 3 ∧
      considered = intended 0 .cdn playlist.segments := by
  intro first playlist considered
  have hparse : HlsMediaPlaylist.parse 0 "#EXTM3U\na.ts\na.ts\na.ts\n".toList = .ok playlist := by
    decide
  obtain ⟨hcall, hintended⟩ := handlePlaylist_inserts_intended_iff hparse .cdn first (by decide)
  exact ⟨hcall, by decide, by decide, hintended.mpr (.inr (.inr ⟨rfl, by decide⟩))⟩

end Example

end SeamlessContentStream

end MbmsMiddleware
