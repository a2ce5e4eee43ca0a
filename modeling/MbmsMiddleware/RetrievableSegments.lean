import MbmsMiddleware.SegmentLifetimes
import MbmsMiddleware.Housekeeping

/-! Advertised segments and the item map. The stream drops segments by count
and takes their items along, but not their downloads; the housekeeping drops
items by age and by size and leaves the segments advertised. -/

namespace MbmsMiddleware

namespace SeamlessContentStream

variable {D : Type}

/-- Every segment of the window has an item under its URI. -/
def Retrievable (st : SeamlessContentStream D × Memory D) : Prop :=
  ∀ k a, st.1.segments.find? k = some a → (st.2.segment a).uri ∈ st.2.cache.keys

theorem accept_retrievable {hist : List (HlsMediaPlaylist.Segment D)}
    {st : SeamlessContentStream D × Memory D} (h : Represents hist st) (hr : Retrievable st)
    (pl : HlsMediaPlaylist D) (source : ItemSource)
    (hdistinct : ∀ x ∈ hist ++ reached st.1.truncateCdnPlaylistSegments source pl.segments,
      ∀ y ∈ hist ++ reached st.1.truncateCdnPlaylistSegments source pl.segments,
        x.uri = y.uri → x.seq = y.seq) : Retrievable (accept pl source st) := by
  intro k a hk
  refine mem_cache_accept.mpr ?_
  have hobj : (accept pl source st).2.segment =
      ((reached st.1.truncateCdnPlaylistSegments source pl.segments).foldl insertSegment
        st).2.segment := rfl
  have hk' : ((reached st.1.truncateCdnPlaylistSegments source pl.segments).foldl insertSegment
      st).1.segments.find? k = some a := OrdMap.find?_dropFront hk
  have hkey : k ∈ (accept pl source st).1.segments.keys := OrdMap.mem_keys.mpr ⟨a, hk⟩
  rw [hobj]
  generalize reached st.1.truncateCdnPlaylistSegments source pl.segments = xs at hdistinct hk' ⊢
  have hfind {k a} := @foldl_insertSegment_find? D xs st (fun k a hk => (h.objects k a hk).1) k a
  have hadded := foldl_insertSegment_added (newcomers_nodup st.1.segments.keys xs)
    (fun y hy => (mem_newcomers hy).2)
  rw [foldl_newcomers] at hadded
  generalize xs.foldl insertSegment st = inserted at hk' hfind hadded ⊢
  -- every number of the window stands for a listed segment
  have hlisted : ∀ k a, inserted.1.segments.find? k = some a → ∃ x ∈ hist ++ xs, x.seq = k ∧
      (inserted.2.segment a).uri = st.1.playlistDir ++ x.uri := by
    intro k a hka
    rcases hfind hka with ⟨hold, hseg⟩ | ⟨pre, y, post, hsplit, rfl, hseg⟩
    · obtain ⟨-, -, x, hx, huri, -⟩ := h.objects k a hold
      exact ⟨x, List.mem_append_left _ (List.mem_of_find?_eq_some hx), by
        simpa using List.find?_some hx, by rw [hseg, huri]⟩
    · have hy : y ∈ newcomers st.1.segments.keys xs := by simp [hsplit]
      exact ⟨y, List.mem_append_right _ (mem_newcomers hy).1, rfl, by rw [hseg]; rfl⟩
  constructor
  · rw [hadded.cached]
    rcases hfind hk' with ⟨hold, hseg⟩ | ⟨pre, y, post, hsplit, rfl, hseg⟩
    · exact .inl (hseg ▸ hr k a hold)
    · exact .inr ⟨y, by simp [hsplit], by rw [hseg]; rfl⟩
  · intro k' a' hk'' hnot he
    obtain ⟨x, hx, hxk, hxu⟩ := hlisted k a hk'
    obtain ⟨x', hx', hxk', hxu'⟩ := hlisted k' a' hk''
    rw [hxu, hxu', List.append_cancel_left_eq] at he
    have hkk : k' = k := by rw [← hxk, ← hxk', hdistinct x' hx' x hx he]
    exact hnot (hkk ▸ hkey)

variable [DoubleText D] (cfg : CacheManagement)

/-- A pass does not remove the item at `l`: it reads no age for it, or an age
within the limit at which the running total is within the limit too. -/
def Spared (objects : Objects D) (clock : Clock) (cache : Cache) (l : Str) : Prop :=
  let ages := CacheManagement.readAges cfg (itemView objects) clock cache.entries 0
  ∀ age, (l, some age) ∈ ages → age ≤ cfg.maxCacheFileAge ∧
    CacheManagement.runningTotal (itemView objects) cache (CacheManagement.datedItems cfg ages)
      (age, l) ≤ cfg.maxCacheSize

/-- The condition on a step: a pass spares the items of all segments in the window. -/
def SparesWindow (st : SeamlessContentStream D × Memory D) : StreamEvent → Prop
  | .cacheCheck clock text => ∀ k a, st.1.segments.find? k = some a →
      Spared cfg ⟨st.2.segment, text⟩ clock st.2.cache (st.2.segment a).uri
  | .playlist _ | .fluteFile .. | .cdnFile .. => True

instance (objects : Objects D) (clock : Clock) (cache : Cache) (l : Str) :
    Decidable (Spared cfg objects clock cache l) :=
  let ages := CacheManagement.readAges cfg (itemView objects) clock cache.entries 0
  decidable_of_iff (∀ x ∈ ages, x.1 = l → ∀ age ∈ x.2, age ≤ cfg.maxCacheFileAge ∧
    CacheManagement.runningTotal (itemView objects) cache (CacheManagement.datedItems cfg ages)
      (age, l) ≤ cfg.maxCacheSize)
    ⟨fun h age hage => h (l, some age) hage rfl age rfl,
      fun h x hx hl age hage => h age (by rw [← hl, ← Option.mem_def.mp hage]; exact hx)⟩

instance (st : SeamlessContentStream D × Memory D) :
    (e : StreamEvent) → Decidable (SparesWindow cfg st e)
  | .cacheCheck clock text =>
    decidable_of_iff (∀ e ∈ st.1.segments.entries,
      Spared cfg ⟨st.2.segment, text⟩ clock st.2.cache (st.2.segment e.2).uri)
      ⟨fun h _ _ hk => h _ (OrdMap.find?_eq_some.mp hk),
        fun h e he => h e.1 e.2 (OrdMap.find?_eq_some.mpr he)⟩
  | .playlist _ | .fluteFile .. | .cdnFile .. => .isTrue trivial

def acceptedBy (s : SeamlessContentStream D) (events : List StreamEvent) :
    List (HlsMediaPlaylist.Segment D) :=
  events.flatMap (eventSegments s)

theorem playlistStep_retrievable {hist : List (HlsMediaPlaylist.Segment D)}
    {st : SeamlessContentStream D × Memory D} (h : Represents hist st) (hr : Retrievable st)
    (call : PlaylistCall)
    (hdistinct : ∀ x ∈ hist ++ callSegments D st.1.truncateCdnPlaylistSegments call,
      ∀ y ∈ hist ++ callSegments D st.1.truncateCdnPlaylistSegments call,
        x.uri = y.uri → x.seq = y.seq) : Retrievable (playlistStep st call) := by
  cases hp : (HlsMediaPlaylist.parse call.indeterminate call.content :
      Except Fault (HlsMediaPlaylist D)) with
  | error e =>
    rw [playlistStep_error hp]
    exact hr
  | ok pl =>
    rw [callSegments_ok hp] at hdistinct
    rw [playlistStep_ok hp]
    exact accept_retrievable h hr pl call.source hdistinct

theorem streamStep_retrievable_iff {hist : List (HlsMediaPlaylist.Segment D)}
    {st : SeamlessContentStream D × Memory D} (h : Represents hist st) (hr : Retrievable st)
    (e : StreamEvent) (hdistinct : ∀ x ∈ hist ++ eventSegments st.1 e,
      ∀ y ∈ hist ++ eventSegments st.1 e, x.uri = y.uri → x.seq = y.seq) :
    Retrievable (streamStep cfg st e) ↔ SparesWindow cfg st e := by
  unfold eventSegments at hdistinct
  cases hc : e.playlistCall st.1.playlistPath with
  | some call =>
    rw [hc] at hdistinct
    have hok : SparesWindow cfg st e := by
      cases e with
      | playlist | fluteFile => trivial
      | cdnFile | cacheCheck => cases hc
    rw [streamStep_playlistCall cfg hc]
    exact iff_of_true (playlistStep_retrievable h hr call hdistinct) hok
  | none =>
    cases e with
    | playlist call => cases hc
    | fluteFile indeterminate file =>
      have hf : file.contentLocation ≠ st.1.playlistPath := by
        intro hf
        simp [StreamEvent.playlistCall, hf] at hc
      rw [streamStep_fluteFile cfg hf]
      refine iff_of_true ?_ trivial
      split_ifs <;> exact hr
    | cdnFile address now file =>
      refine iff_of_true (fun k a hk => ?_) trivial
      have huri : ((streamStep cfg st (.cdnFile address now file)).2.segment a).uri =
          (st.2.segment a).uri := by
        by_cases ha : a = address
        · subst ha
          simp [streamStep, Segment.cdnFileReceived, Segment.uri]
        · simp [streamStep, Function.update_of_ne ha]
      rw [huri]
      exact hr k a hk
    | cacheCheck clock text =>
      refine forall_congr' fun k => forall_congr' fun a => forall_congr' fun hk => ?_
      obtain ⟨item, hitem⟩ := OrdMap.mem_keys.mp (hr k a hk)
      rw [OrdMap.mem_keys]
      constructor
      · rintro ⟨item', hitem'⟩
        exact ((CacheManagement.find?_checkFileExpiryAndCacheSize cfg _ clock _ _ _).mp hitem').2
      · intro hs
        exact ⟨item, (CacheManagement.find?_checkFileExpiryAndCacheSize cfg _ clock _ _ _).mpr
          ⟨hitem, hs⟩⟩

/-- What a run keeps of the stream it started with. -/
structure SameConfig (s s' : SeamlessContentStream D) : Prop where
  path : s'.playlistPath = s.playlistPath
  truncate : s'.truncateCdnPlaylistSegments = s.truncateCdnPlaylistSegments

theorem SameConfig.streamStep {s : SeamlessContentStream D} {st : SeamlessContentStream D × Memory D}
    (h : SameConfig s st.1) (e : StreamEvent) : SameConfig s (streamStep cfg st e).1 := by
  rw [streamStep_frame]
  exact ⟨h.path, h.truncate⟩

theorem SameConfig.eventSegments {s s' : SeamlessContentStream D} (h : SameConfig s s')
    (e : StreamEvent) : eventSegments s' e = eventSegments s e := by
  simp only [SeamlessContentStream.eventSegments, h.path, h.truncate]

/-- The step was defined, and every advertised segment is retrievable. -/
def SafelyRetrievable : Option (SeamlessContentStream D × Memory D) → Prop
  | some st => Retrievable st
  | none => False

/-- The condition on a step: a pass spares the items of all segments in the
window, and a download ends for a segment that is still there. -/
def Careful (first : Nat) : Option (SeamlessContentStream D × Memory D) → StreamEvent → Prop
  | some st, e => SparesWindow cfg st e ∧ Defined first st e
  | none, _ => False

instance (first : Nat) :
    (st? : Option (SeamlessContentStream D × Memory D)) → (e : StreamEvent) →
      Decidable (Careful cfg first st? e)
  | some st, e => inferInstanceAs (Decidable (SparesWindow cfg st e ∧ Defined first st e))
  | none, _ => .isFalse id

/-- In a run of a stream whose URIs are distinct, every advertised segment is
retrievable all the time exactly when no pass takes an item of the window and no
download ends for a segment that is gone. -/
theorem advertised_segments_retrievable (s : SeamlessContentStream D) (m : Memory D)
    (events : List StreamEvent) (hempty : s.segments = .empty)
    (hdistinct : ∀ x ∈ acceptedBy s events, ∀ y ∈ acceptedBy s events,
      x.uri = y.uri → x.seq = y.seq) :
    (∀ pre, pre <+: events →
      SafelyRetrievable (pre.foldl (definedStep cfg m.nextSegment) (some (s, m)))) ↔
      Runs.StepsMeet (definedStep cfg m.nextSegment) (Careful cfg m.nextSegment) (some (s, m))
        events := by
  refine Runs.prefixes_iff_stepsMeet (I := fun st? => ∀ st ∈ st?, SameConfig s st.1 ∧
      ∃ hist, Represents hist st ∧ ∀ x ∈ hist, x ∈ acceptedBy s events)
    (A := fun e => ∀ x ∈ eventSegments s e, x ∈ acceptedBy s events)
    ?_ ?_ ?_ ?_ ?_
  · rintro (_ | st) e hallowed hI - hok st' hst'
    · cases hok
    · obtain ⟨hcfg, hist, hrep, hsub⟩ := hI st rfl
      rw [definedStep_eq_some cfg hok.2] at hst'
      obtain rfl := Option.some.inj hst'
      refine ⟨hcfg.streamStep cfg e, hist ++ eventSegments st.1 e, streamStep_represents cfg hrep e,
        fun x hx => ?_⟩
      rw [hcfg.eventSegments] at hx
      exact (List.mem_append.mp hx).elim (hsub x) (hallowed x)
  · rintro (_ | st) e hallowed hI hr
    · cases hr
    · obtain ⟨hcfg, hist, hrep, hsub⟩ := hI st rfl
      have hsub' : ∀ x ∈ hist ++ eventSegments st.1 e, x ∈ acceptedBy s events := by
        intro x hx
        rw [hcfg.eventSegments] at hx
        exact (List.mem_append.mp hx).elim (hsub x) (hallowed x)
      have hiff := streamStep_retrievable_iff cfg hrep hr e
        (fun x hx y hy => hdistinct x (hsub' x hx) y (hsub' y hy))
      by_cases hdefined : Defined m.nextSegment st e
      · rw [definedStep_eq_some cfg hdefined]
        exact hiff.trans (and_iff_left hdefined).symm
      · rw [definedStep_eq_none cfg hdefined]
        exact iff_of_false id fun hok => hdefined hok.2
  · intro st hst
    obtain rfl := Option.some.inj hst
    exact ⟨⟨rfl, rfl⟩, [], represents_nil _ hempty, by simp⟩
  · intro k a hk
    rw [hempty] at hk
    cases hk
  · exact fun e he x hx => List.mem_flatMap.mpr ⟨e, he, hx⟩

def clockAt (now : Fin (2 ^ 63)) : Clock := ⟨fun _ => now, fun _ _ _ => le_rfl, fun _ => now.isLt⟩

/-- A segment received at 1000 is listed, the item map is checked at 1031, and
the segment is listed again. -/
def expiredSegment : List StreamEvent :=
  [.fluteFile 0 receivedSegment, .playlist oneSegmentPlaylist,
   .cacheCheck (clockAt 1031) (fun _ => []), .playlist oneSegmentPlaylist]

theorem expired_segment_advertised :
    let cfg := CacheManagement.ofSettings none none true
    let st := expiredSegment.foldl (streamStep cfg) (newStream, noMemory)
    expiredSegment.foldl (definedStep cfg 0) (some (newStream, noMemory)) = some st ∧
    (window st).map (·.uri) = ["a.ts".toList] ∧ "a.ts".toList ∉ st.2.cache.keys ∧
    ¬ ∀ pre, pre <+: expiredSegment →
      SafelyRetrievable (pre.foldl (definedStep cfg 0) (some (newStream, noMemory))) := by
  refine ⟨rfl, by decide, by decide, fun h => ?_⟩
  have hr := h expiredSegment List.prefix_rfl 1 0 (by decide)
  revert hr
  decide

/-- A segment from the CDN, its download, and a check before it is old. -/
def downloadedSegment : List StreamEvent :=
  [.fluteFile 0 receivedSegment,
   .playlist ⟨0, "#EXTM3U\n#EXT-X-MEDIA-SEQUENCE:1\na.ts\nb.ts\n".toList, .broadcast⟩,
   .cdnFile 1 1010 ['y'], .cacheCheck (clockAt 1030) (fun _ => []), .playlist oneSegmentPlaylist]

theorem advertised_segments_retrievable_downloaded :
    SafelyRetrievable (downloadedSegment.foldl (definedStep (.ofSettings none none true) 0)
      (some (newStream, noMemory))) := by
  refine (advertised_segments_retrievable _ newStream noMemory downloadedSegment rfl
    (by decide)).mpr ?_ downloadedSegment List.prefix_rfl
  decide

end SeamlessContentStream

end MbmsMiddleware
