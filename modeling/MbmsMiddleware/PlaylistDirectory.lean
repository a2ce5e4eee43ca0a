import MbmsMiddleware.ManifestAttributes
import MbmsMiddleware.ManifestLookup
import MbmsMiddleware.StreamRuns

/-! The directory that the segments of a stream are looked for in, next to the
path of its playlist. -/

namespace MbmsMiddleware

/-- The request that `fetch_from_cdn` sends: the base of the client, and the path. -/
def Segment.fetchFromCdn {D : Type} (s : Segment D) : Option (Str × Str) :=
  s.cdnClient.map fun client => (client, s.contentLocation)

/-- What is done to a stream in the course of its life. -/
inductive StreamUse (D : Type) where
  | readMasterManifest (manifest : Str)
  | setCdnEndpoint (cdnEpt : Str)
  | configure5gbcDeliveryFromSdp (sdp : Str)
  | setBasePath (basePath : Str)
  | takeOver (entry : HlsPrimaryPlaylist.Stream D)
  | start
  | event (e : StreamEvent)

namespace SeamlessContentStream

/-- A path or a playlist path without its query. -/
def pathPart (path : Str) : Str := path.takeWhile (· ≠ '?')

theorem pathPart_of_notMem {path : Str} (h : '?' ∉ path) : pathPart path = path := by
  refine List.takeWhile_eq_self_iff.mpr fun c hc => ?_
  have hne : c ≠ '?' := by
    rintro rfl
    exact h hc
  simpa using hne

theorem pathPart_append_query {path : Str} (h : '?' ∉ path) (query : Str) :
    pathPart (path ++ '?' :: query) = path := by
  have hpath := pathPart_of_notMem h
  unfold pathPart at hpath ⊢
  rw [List.takeWhile_append_of_pos (List.takeWhile_eq_self_iff.mp hpath)]
  simp

theorem dirname_append_of_notMem (path : Str) {s : Str} (h : '/' ∉ s) :
    dirname (path ++ s) = dirname path := by
  induction s using List.reverseRecOn with
  | nil => rw [List.append_nil]
  | append_singleton s c ih =>
    have hc : c ≠ '/' := by
      rintro rfl
      simp at h
    have hs : '/' ∉ s := fun hm => h (by simp [hm])
    rw [← List.append_assoc, dirname, List.rdropWhile_concat_pos _ _ _ (by simpa using hc)]
    exact ih hs

theorem length_dirname_le (path : Str) : (dirname path).length ≤ path.length :=
  (List.rdropWhile_prefix _ _).length_le

/-- A slash behind the path moves the directory behind the path. -/
theorem length_lt_dirname_append (path : Str) {s : Str} (h : '/' ∈ s) :
    path.length < (dirname (path ++ s)).length := by
  induction s using List.reverseRecOn with
  | nil => cases h
  | append_singleton s c ih =>
    by_cases hc : c = '/'
    · rw [← List.append_assoc, dirname, List.rdropWhile_concat_neg _ _ _ (by simpa using hc)]
      simp only [List.length_append, List.length_singleton]
      omega
    · have hs : '/' ∈ s := by
        rcases List.mem_append.mp h with hs | hs
        · exact hs
        · exact absurd (List.mem_singleton.mp hs).symm hc
      rw [← List.append_assoc, dirname, List.rdropWhile_concat_pos _ _ _ (by simpa using hc)]
      exact ih hs

theorem dirname_pathOfUri_iff {uri : WebUri} (h : '?' ∉ uri.path) :
    dirname (pathOfUri uri) = dirname (pathPart (pathOfUri uri)) ↔ '/' ∉ uri.query := by
  have hpath : '?' ∉ uri.path.drop 1 := fun hm => h (List.mem_of_mem_drop hm)
  unfold pathOfUri
  dsimp only
  by_cases hquery : uri.query.length > 0
  · rw [if_pos hquery, pathPart_append_query hpath]
    constructor
    · intro heq hslash
      have hlt := length_lt_dirname_append (uri.path.drop 1)
        (List.mem_cons_of_mem '?' hslash)
      have hle := length_dirname_le (uri.path.drop 1)
      rw [heq] at hlt
      omega
    · intro hslash
      exact dirname_append_of_notMem _ (by simpa using hslash)
  · rw [if_neg hquery, pathPart_of_notMem hpath]
    have hnil : uri.query = [] := List.eq_nil_of_length_eq_zero (by omega)
    simp [hnil]

variable {D : Type}

/-- Where the relative URIs of the playlist are resolved. -/
def playlistDirectory (s : SeamlessContentStream D) : Str := dirname (pathPart s.playlistPath)

/-- A listed segment is cached, looked for among the received files and requested
from the CDN at this location. -/
structure InsertedAt (location : Str) (st : SeamlessContentStream D × Memory D)
    (segment : HlsMediaPlaylist.Segment D) : Prop where
  cached : (insertSegment st segment).2.cache =
    st.2.cache.addItem (.segment location 0 st.2.nextSegment)
  matched : ((insertSegment st segment).2.segment st.2.nextSegment).fluteFile =
    st.1.fluteFiles.find? location
  requested : ((insertSegment st segment).2.segment st.2.nextSegment).fetchFromCdn =
    st.1.cdnClient.map fun client => (client, location)

theorem insertedAt_playlistDir {st : SeamlessContentStream D × Memory D}
    {segment : HlsMediaPlaylist.Segment D} (h : st.1.segments.find? segment.seq = none) :
    InsertedAt (st.1.playlistDir ++ segment.uri) st segment := by
  obtain ⟨s, m⟩ := st
  have hnew := insertSegment_new (m := m) h
  have hsegment : (insertSegment (s, m) segment).2.segment m.nextSegment = newSegment s segment := by
    rw [hnew]
    exact Function.update_self _ _ _
  refine ⟨?_, ?_, ?_⟩
  · rw [hnew]
  · dsimp only
    rw [hsegment]
    rfl
  · dsimp only
    rw [hsegment]
    rfl

/-- The directory is that of the playlist, so that each new segment that a playlist
lists, behind others of it, is looked for there. -/
structure ResolvesSegments (st : SeamlessContentStream D × Memory D) : Prop where
  dir : st.1.playlistDir = st.1.playlistDirectory
  inserted : ∀ (listed : List (HlsMediaPlaylist.Segment D)) (segment : HlsMediaPlaylist.Segment D),
    (listed.foldl insertSegment st).1.segments.find? segment.seq = none →
      InsertedAt (st.1.playlistDirectory ++ segment.uri) (listed.foldl insertSegment st) segment

theorem resolvesSegments_iff {st : SeamlessContentStream D × Memory D} :
    ResolvesSegments st ↔ st.1.playlistDir = st.1.playlistDirectory := by
  refine ⟨fun h => h.dir, fun h => ⟨h, fun listed segment hnew => ?_⟩⟩
  have hdir : (listed.foldl insertSegment st).1.playlistDir = st.1.playlistDir := by
    rw [foldl_insertSegment_frame]
  rw [← h, ← hdir]
  exact insertedAt_playlistDir hnew

variable [DoubleText D] (rest : CppRest) (self : Nat) (cache : CacheManagement)

/-- `self` is the address of the stream. An exception leaves what was set before it. -/
def use (st : SeamlessContentStream D × Memory D) :
    StreamUse D → SeamlessContentStream D × Memory D
  | .readMasterManifest manifest =>
    match st.1.readMasterManifest manifest with
    | .ok cs => ({ st.1 with toContentStream := cs }, st.2)
    | .error _ => st
  | .setCdnEndpoint cdnEpt =>
    let (s, cache, _) := setCdnEndpoint rest self cdnEpt st.1 st.2.cache
    (s, { st.2 with cache := cache })
  | .configure5gbcDeliveryFromSdp sdp =>
    ({ st.1 with toContentStream := (st.1.configure5gbcDeliveryFromSdp sdp).1 }, st.2)
  | .setBasePath basePath =>
    ({ st.1 with toContentStream := st.1.withBasePath basePath }, st.2)
  | .takeOver entry => ({ st.1 with toContentStream := st.1.toContentStream.takeOver entry }, st.2)
  | .start =>
    match st.1.toContentStream.start with
    | .ok cs => ({ st.1 with toContentStream := cs }, st.2)
    | .error _ => st
  | .event e => streamStep cache st e

/-- What keeps path and directory together: the query of an endpoint has no slash,
and the playlist that a manifest names is in the directory that is set. -/
def KeepsDirectory (st : SeamlessContentStream D × Memory D) : StreamUse D → Prop
  | .readMasterManifest manifest => st.1.deliveryProtocol = .hls →
    ∀ (pl : HlsPrimaryPlaylist D) (stream : HlsPrimaryPlaylist.Stream D),
      HlsPrimaryPlaylist.parse manifest [] = .ok pl → pl.streams = [stream] →
        dirname (pathPart stream.uri) = st.1.playlistDirectory
  | .setCdnEndpoint cdnEpt => ∀ uri, rest.uri cdnEpt = some uri → '/' ∉ uri.query
  | _ => True

omit [DoubleText D] in
theorem setCdnEndpoint_path {cdnEpt : Str} {uri : WebUri} (h : rest.uri cdnEpt = some uri)
    (s : SeamlessContentStream D) (c : Cache) :
    (setCdnEndpoint rest self cdnEpt s c).1.playlistPath = pathOfUri uri ∧
      (setCdnEndpoint rest self cdnEpt s c).1.playlistDir = dirname (pathOfUri uri) := by
  unfold setCdnEndpoint
  rw [h]
  dsimp only
  split <;> exact ⟨rfl, rfl⟩

theorem use_iff (hsplit : ∀ s uri, rest.uri s = some uri → '?' ∉ uri.path)
    {st : SeamlessContentStream D × Memory D} (h : ResolvesSegments st) (u : StreamUse D) :
    ResolvesSegments (use rest self cache st u) ↔ KeepsDirectory rest st u := by
  rw [resolvesSegments_iff] at h ⊢
  cases u with
  | readMasterManifest manifest =>
    simp only [use, KeepsDirectory]
    by_cases hone : st.1.deliveryProtocol = .hls ∧
        ∃ (pl : HlsPrimaryPlaylist D) (stream : HlsPrimaryPlaylist.Stream D),
          HlsPrimaryPlaylist.parse manifest [] = .ok pl ∧ pl.streams = [stream]
    · obtain ⟨hls, pl, stream, hpl, hstream⟩ := hone
      rw [ContentStream.readMasterManifest_of_single hls hpl hstream]
      constructor
      · intro hdir _ pl' stream' hpl' hstream'
        cases hpl.symm.trans hpl'
        cases hstream.symm.trans hstream'
        exact hdir.symm.trans h
      · intro hkeeps
        exact h.trans (hkeeps hls pl stream hpl hstream).symm
    · refine iff_of_true ?_ fun hls pl stream hpl hstream =>
        absurd ⟨hls, pl, stream, hpl, hstream⟩ hone
      cases hread : st.1.toContentStream.readMasterManifest manifest with
      | error e => exact h
      | ok cs =>
        rw [ContentStream.readMasterManifest_of_not_single hone hread]
        exact h
  | setCdnEndpoint cdnEpt =>
    simp only [use, KeepsDirectory]
    cases huri : rest.uri cdnEpt with
    | none =>
      have hsame : (setCdnEndpoint rest self cdnEpt st.1 st.2.cache).1 = st.1 := by
        unfold setCdnEndpoint
        rw [huri]
      rw [hsame]
      refine iff_of_true h fun uri huri' => ?_
      cases huri'
    | some uri =>
      obtain ⟨hpath, hdir⟩ := setCdnEndpoint_path rest self huri st.1 st.2.cache
      have hiff := dirname_pathOfUri_iff (hsplit cdnEpt uri huri)
      dsimp only [playlistDirectory]
      rw [hpath, hdir, hiff]
      constructor
      · intro hslash uri' huri'
        cases huri'
        exact hslash
      · exact fun hkeeps => hkeeps uri rfl
  | configure5gbcDeliveryFromSdp sdp =>
    have hpath := ServiceAnnouncement.configure5gbcDeliveryFromSdp_playlistPath
      st.1.toContentStream sdp
    refine iff_of_true ?_ trivial
    dsimp only [use, playlistDirectory]
    rw [hpath]
    exact h
  | setBasePath basePath => exact iff_of_true h trivial
  | takeOver entry => exact iff_of_true h trivial
  | start =>
    refine iff_of_true ?_ trivial
    simp only [use]
    cases hstart : st.1.toContentStream.start with
    | error e => exact h
    | ok cs =>
      obtain ⟨receiver, rfl⟩ := ContentStream.eq_of_start hstart
      exact h
  | event e =>
    refine iff_of_true ?_ trivial
    simp only [use]
    rw [streamStep_frame]
    exact h

/-- Segments are resolved against the directory of the playlist throughout the
life of a stream exactly when each endpoint that is set has a query without a
slash, and each playlist that a manifest names is in the directory that is set. -/
theorem segments_resolved_iff (hsplit : ∀ s uri, rest.uri s = some uri → '?' ∉ uri.path)
    (cfg : Config) (protocol : DeliveryProtocol) (base : Str) (m : Memory D)
    (uses : List (StreamUse D)) :
    let s := ServiceAnnouncement.newSeamlessContentStream cfg
      (ServiceAnnouncement.newContentStream cfg protocol base)
    (∀ pre, pre <+: uses → ResolvesSegments (pre.foldl (use rest self cache) (s, m))) ↔
      Runs.StepsMeet (use rest self cache) (KeepsDirectory rest) (s, m) uses := by
  intro s
  have hs : ResolvesSegments (s, m) := resolvesSegments_iff.mpr rfl
  refine Runs.prefixes_iff_stepsMeet (I := fun _ => True) (A := fun _ => True)
    (fun _ _ _ _ _ _ => trivial) ?_ trivial hs (fun _ _ => trivial)
  exact fun st u _ _ h => use_iff rest self cache hsplit h u

section Example

/-- An endpoint with a slash in its query. -/
def signedEndpoint : Str := "http://cdn/v/p.m3u8?sig=a/b".toList

def signedRest : CppRest where
  uri s := if s = signedEndpoint then some ⟨"/v/p.m3u8".toList, "sig=a/b".toList, "http://cdn".toList⟩
    else none
  httpClient _ := true

/-- An endpoint without a slash in its query. -/
def plainEndpoint : Str := "http://cdn/v/p.m3u8?sig=ab".toList

def plainEndpointRest : CppRest where
  uri s := if s = plainEndpoint then some ⟨"/v/p.m3u8".toList, "sig=ab".toList, "http://cdn".toList⟩
    else none
  httpClient _ := true

theorem segments_resolved_plainEndpoint :
    let s := ServiceAnnouncement.newSeamlessContentStream {}
      (ServiceAnnouncement.newContentStream {} .hls "b".toList)
    let uses : List (StreamUse Int) := [.setCdnEndpoint plainEndpoint, .start,
      .event (.playlist ⟨0, "#EXTM3U\ns.ts\n".toList, .cdn⟩)]
    ResolvesSegments
      (uses.foldl (use plainEndpointRest 0 (.ofSettings none none true)) (s, noMemory)) := by
  intro s uses
  have huri : ∀ text uri, plainEndpointRest.uri text = some uri →
      uri = ⟨"/v/p.m3u8".toList, "sig=ab".toList, "http://cdn".toList⟩ := by
    intro text uri h
    simp only [plainEndpointRest, Option.ite_none_right_eq_some, Option.some.injEq] at h
    exact h.2.symm
  have hsplit : ∀ text uri, plainEndpointRest.uri text = some uri → '?' ∉ uri.path := by
    intro text uri h
    rw [huri text uri h]
    decide
  refine (segments_resolved_iff plainEndpointRest 0 (.ofSettings none none true) hsplit {} .hls
    "b".toList noMemory uses).mpr ⟨fun uri h => ?_, trivial, trivial, trivial⟩ uses List.prefix_rfl
  rw [huri plainEndpoint uri h]
  decide

/-- The segments are looked for below the query. -/
theorem query_taken_for_directory :
    let s := ServiceAnnouncement.newSeamlessContentStream {}
      (ServiceAnnouncement.newContentStream {} .hls "b".toList)
    ¬ ∀ (uses pre : List (StreamUse Int)), pre <+: uses → ResolvesSegments
      (pre.foldl (use signedRest 0 (.ofSettings none none true)) (s, noMemory)) := by
  intro s h
  have hdir := (h _ [.setCdnEndpoint signedEndpoint] (List.prefix_refl _)).dir
  revert hdir
  decide

end Example

end SeamlessContentStream

end MbmsMiddleware
