import MbmsMiddleware.Newcomers
import MbmsMiddleware.Registry
import MbmsMiddleware.Session

/-! What a reception does to the item map. A stream with basic delivery stores
what it receives; a seamless one stores the segments that are new to its window
and drops those that leave it. -/

namespace MbmsMiddleware

namespace SeamlessContentStream

variable {D : Type}

/-- The URIs under which a list of segments puts items into the item map. -/
def newUris (s : SeamlessContentStream D) (xs : List (HlsMediaPlaylist.Segment D)) : List Str :=
  (newcomers s.segments.keys xs).map (s.playlistDir ++ ·.uri)

/-- The URIs of the segments that do not fit into the window any more. -/
def droppedUris (xs : List (HlsMediaPlaylist.Segment D)) (st : SeamlessContentStream D × Memory D) :
    List Str :=
  let inserted := xs.foldl insertSegment st
  (inserted.1.segments.entries.take (inserted.1.segments.size - st.1.keepCount)).map
    fun e => (inserted.2.segment e.2).uri

/-- What storing under some keys and removing others makes of the item map. -/
structure Rewrites (stores drops : List Str) (c c' : Cache) : Prop where
  dropped : ∀ l ∈ drops, c'.find? l = none
  stored : ∀ l ∈ stores, l ∉ drops →
    ∃ item, c'.find? l = some item ∧ ∀ r o, item ≠ .playlist l r o ∧ item ≠ .manifest l r o
  kept : ∀ l, l ∉ drops → l ∉ stores → c'.find? l = c.find? l

theorem Rewrites.refl (c : Cache) : Rewrites [] [] c c :=
  ⟨by simp, by simp, fun _ _ _ => rfl⟩

theorem newUris_cons_known {s : SeamlessContentStream D} {x : HlsMediaPlaylist.Segment D}
    (hx : x.seq ∈ s.segments.keys) (xs : List (HlsMediaPlaylist.Segment D)) :
    newUris s (x :: xs) = newUris s xs := by
  rw [newUris, newcomers, if_pos hx, newUris]

theorem newUris_cons_new {s : SeamlessContentStream D} {m : Memory D}
    {x : HlsMediaPlaylist.Segment D} (hx : x.seq ∉ s.segments.keys)
    (xs : List (HlsMediaPlaylist.Segment D)) :
    newUris s (x :: xs) = (s.playlistDir ++ x.uri) :: newUris (insertSegment (s, m) x).1 xs := by
  rw [newUris, newcomers, if_neg hx, List.map_cons, newUris,
    insertSegment_new (OrdMap.find?_eq_none.mpr hx)]
  congr 2
  refine newcomers_congr (fun k => ?_) xs
  rw [OrdMap.mem_keys_set, List.mem_cons]

theorem foldl_insertSegment_rewrites (xs : List (HlsMediaPlaylist.Segment D))
    (st : SeamlessContentStream D × Memory D) :
    Rewrites (newUris st.1 xs) [] st.2.cache (xs.foldl insertSegment st).2.cache := by
  induction xs generalizing st with
  | nil => exact .refl _
  | cons x xs ih =>
    obtain ⟨s, m⟩ := st
    have hh := ih (insertSegment (s, m) x)
    rw [List.foldl_cons]
    by_cases hx : x.seq ∈ s.segments.keys
    · obtain ⟨a, ha⟩ := OrdMap.mem_keys.mp hx
      rw [insertSegment_known ha] at hh ⊢
      rwa [newUris_cons_known hx]
    · rw [newUris_cons_new (m := m) hx]
      have hcache : (insertSegment (s, m) x).2.cache =
          m.cache.set (s.playlistDir ++ x.uri) (.segment (s.playlistDir ++ x.uri) 0 m.nextSegment) := by
        rw [insertSegment_new (OrdMap.find?_eq_none.mpr hx)]
        rfl
      rw [hcache] at hh
      refine ⟨by simp, fun l hl _ => ?_, fun l _ hl => ?_⟩
      · by_cases hm : l ∈ newUris (insertSegment (s, m) x).1 xs
        · exact hh.stored l hm (by simp)
        · obtain rfl : l = s.playlistDir ++ x.uri := (List.mem_cons.mp hl).resolve_right hm
          rw [hh.kept _ (by simp) hm, OrdMap.find?_set_self]
          exact ⟨_, rfl, by simp⟩
      · rw [List.mem_cons, not_or] at hl
        rw [hh.kept l (by simp) hl.2, OrdMap.find?_set_of_ne _ _ hl.1]

variable [DoubleText D]

theorem playlistStep_rewrites (st : SeamlessContentStream D × Memory D) {call : PlaylistCall}
    {pl : HlsMediaPlaylist D}
    (hp : HlsMediaPlaylist.parse call.indeterminate call.content = .ok pl) :
    let xs := callSegments D st.1.truncateCdnPlaylistSegments call
    Rewrites (newUris st.1 xs) (droppedUris xs st) st.2.cache (playlistStep st call).2.cache := by
  intro xs
  have hins := foldl_insertSegment_rewrites xs st
  have hcache : ∀ l, (playlistStep st call).2.cache.find? l =
      if l ∈ droppedUris xs st then none else (xs.foldl insertSegment st).2.cache.find? l := by
    intro l
    rw [playlistStep_ok hp]
    simp only [xs, callSegments_ok hp]
    exact find?_removeItems _ _ _ l
  constructor
  · intro l hl
    rw [hcache, if_pos hl]
  · intro l hl hd
    rw [hcache, if_neg hd]
    exact hins.stored l hl (by simp)
  · intro l hd hl
    rw [hcache, if_neg hd]
    exact hins.kept l (by simp) hl

end SeamlessContentStream

variable {D : Type}

namespace ContentStream

/-- Where a received file is stored, if anywhere. -/
def fileLocation (s : ContentStream D) (file : FluteFile) : Option Str :=
  if file.contentLocation = indexM3u8 then none
  else if contains ".mpd".toList file.contentLocation then
    some (s.basePath ++ "manifest.mpd".toList)
  else if s.deliveryProtocol = .dash then some (s.basePath ++ file.contentLocation)
  else some file.contentLocation

theorem fluteFileReceived_rewrites (s : ContentStream D) (cache : Cache) (file : FluteFile) :
    SeamlessContentStream.Rewrites (s.fileLocation file).toList [] cache
      (s.fluteFileReceived cache file) := by
  have hset : ∀ l : Str, SeamlessContentStream.Rewrites [l] [] cache
      (cache.addItem (.file l file.receivedAt file)) := by
    intro l
    refine ⟨by simp, fun l' hl _ => ?_, fun l' _ hl => ?_⟩
    · obtain rfl : l' = l := by simpa using hl
      exact ⟨_, OrdMap.find?_set_self _ _ _, by simp⟩
    · have hne : l' ≠ l := by simpa using hl
      exact OrdMap.find?_set_of_ne _ _ hne
  unfold fileLocation fluteFileReceived
  by_cases hindex : file.contentLocation = indexM3u8
  · rw [if_pos hindex, if_neg (not_not_intro hindex)]
    exact .refl cache
  · rw [if_neg hindex, if_pos hindex]
    split_ifs <;> exact hset _

end ContentStream

/-- The media playlist that a reception brings to a seamless stream. -/
def Reception.playlistCall (r : Reception) (s : SeamlessContentStream D) (indeterminate : Int) :
    Option PlaylistCall :=
  match r with
  | .fluteFile file =>
    if file.contentLocation = s.playlistPath then some ⟨indeterminate, file.buffer, .broadcast⟩
    else none
  | .cdnPlaylist content =>
    if s.cdnClient.isSome then some ⟨indeterminate, content, .cdn⟩ else none

/-- What a reception comes to: whether it is a media playlist of the stream, and
the keys of the item map that it writes and that it removes. -/
structure ReceptionEffect where
  isPlaylist : Bool := false
  stores : List Str := []
  drops : List Str := []

namespace World

theorem registry_storeStream {w : World D} {a : Nat} {s : SeamlessContentStream D}
    (hs : w.stream a = .seamless s) {st : SeamlessContentStream D × Memory D}
    (hpath : st.1.playlistPath = s.playlistPath) :
    (w.storeStream a st).registry = { w.registry with cache := st.2.cache } := by
  have hp : Function.update w.registry.path a st.1.playlistPath = w.registry.path := by
    refine Function.update_eq_self_iff.mpr ?_
    simp [registry, hs, AnyStream.content, hpath]
  have hseamless : Function.update w.registry.seamless a true = w.registry.seamless := by
    refine Function.update_eq_self_iff.mpr ?_
    simp [registry, hs, AnyStream.asSeamless?]
  change { (w.setStream a (.seamless st.1)).registry with cache := st.2.cache } = _
  rw [registry_setStream]
  simp only [AnyStream.content, AnyStream.asSeamless?, Option.isSome_some, hp, hseamless]

variable [DoubleText D]

def playlistEffect (s : SeamlessContentStream D) (m : Memory D) (call : PlaylistCall) :
    ReceptionEffect :=
  match (HlsMediaPlaylist.parse call.indeterminate call.content :
      Except Fault (HlsMediaPlaylist D)) with
  | .error _ => {}
  | .ok _ =>
    let xs := SeamlessContentStream.callSegments D s.truncateCdnPlaylistSegments call
    { isPlaylist := true
      stores := s.newUris xs
      drops := SeamlessContentStream.droppedUris xs (s, m) }

def effect (address : Nat) (indeterminate : Int) (r : Reception) (w : World D) : ReceptionEffect :=
  match w.stream address with
  | .basic cs =>
    match r with
    | .fluteFile file =>
      { isPlaylist := file.contentLocation = cs.playlistPath
        stores := (cs.fileLocation file).toList }
    | .cdnPlaylist _ => {}
  | .seamless s => (r.playlistCall s indeterminate).elim {} (playlistEffect s w.memory)

/-- How a reception changes the world. -/
structure Received (e : ReceptionEffect) (w : World D) (result : World D × Bool) : Prop where
  registry : result.1.registry = { w.registry with cache := result.1.memory.cache }
  cache : SeamlessContentStream.Rewrites e.stores e.drops w.memory.cache result.1.memory.cache
  isPlaylist : result.2 = e.isPlaylist

theorem received_playlist {w : World D} {a : Nat} {s : SeamlessContentStream D}
    (hs : w.stream a = .seamless s) (call : PlaylistCall) :
    Received (playlistEffect s w.memory call) w
      (w.storeResult a true (SeamlessContentStream.handlePlaylist call.indeterminate call.content
        call.source (s, w.memory))) := by
  have hframe := SeamlessContentStream.playlistStep_frame (s, w.memory) call
  unfold playlistEffect
  cases hp : (HlsMediaPlaylist.parse call.indeterminate call.content :
      Except Fault (HlsMediaPlaylist D)) with
  | error e =>
    rw [SeamlessContentStream.handlePlaylist_eq, hp]
    exact ⟨rfl, .refl _, rfl⟩
  | ok pl =>
    have hstep : SeamlessContentStream.handlePlaylist call.indeterminate call.content call.source
        (s, w.memory) = .ok (SeamlessContentStream.playlistStep (s, w.memory) call) := by
      rw [SeamlessContentStream.handlePlaylist_eq, hp, SeamlessContentStream.playlistStep_ok hp]
      rfl
    rw [hstep]
    refine ⟨registry_storeStream hs ?_, SeamlessContentStream.playlistStep_rewrites (s, w.memory) hp, rfl⟩
    rw [hframe]

theorem receive_spec (address : Nat) (indeterminate : Int) (r : Reception) (w : World D) :
    Received (w.effect address indeterminate r) w (w.receive address indeterminate r) := by
  unfold effect receive
  cases hs : w.stream address with
  | basic cs =>
    cases r with
    | fluteFile file =>
      exact ⟨rfl, cs.fluteFileReceived_rewrites w.memory.cache file, rfl⟩
    | cdnPlaylist content => exact ⟨rfl, .refl _, rfl⟩
  | seamless s =>
    cases r with
    | fluteFile file =>
      simp only [Reception.playlistCall, SeamlessContentStream.fluteFileReceived]
      by_cases hf : file.contentLocation = s.playlistPath
      · rw [if_pos hf, if_pos hf, decide_eq_true hf]
        exact received_playlist hs ⟨indeterminate, file.buffer, .broadcast⟩
      · rw [if_neg hf, if_neg hf, decide_eq_false hf]
        split_ifs
        · exact ⟨registry_storeStream hs rfl, .refl _, rfl⟩
        · exact ⟨registry_storeStream hs rfl, .refl _, rfl⟩
    | cdnPlaylist content =>
      simp only [Reception.playlistCall]
      split_ifs
      · exact received_playlist hs ⟨indeterminate, content, .cdn⟩
      · exact ⟨rfl, .refl _, rfl⟩

end World

end MbmsMiddleware
