import MbmsMiddleware.StreamRuns

/-! Received files and the segments they belong to. A file waits for the
playlist that lists it; a file that comes after its segment is not attached. -/

namespace MbmsMiddleware

namespace SeamlessContentStream

variable {D : Type}

/-- Received broadcast data is used, whatever came first. -/
structure BroadcastUsed (r : (SeamlessContentStream D × Memory D) × List FluteFile) : Prop where
  holds : ∀ k a, r.1.1.segments.find? k = some a →
    ∀ f ∈ r.2, f.contentLocation = (r.1.2.segment a).uri →
    ∃ g ∈ r.2, g.contentLocation = (r.1.2.segment a).uri ∧ (r.1.2.segment a).fluteFile = some g
  broadcast : ∀ k a, r.1.1.segments.find? k = some a →
    (∃ f ∈ r.2, f.contentLocation = (r.1.2.segment a).uri) →
    (∀ f ∈ r.2, f.contentLocation = (r.1.2.segment a).uri → f.complete = true) →
    (r.1.2.segment a).dataSource = .broadcast ∧ (r.1.2.segment a).buffer.2 = false
  waiting : ∀ k a, r.1.1.segments.find? k = some a → (r.1.2.segment a).fluteFile = none →
    (r.1.2.segment a).uri ∉ r.1.1.fluteFiles.keys
  /-- Which file a segment has depends only on what was received. -/
  assigned : ∀ k a, r.1.1.segments.find? k = some a →
    (∀ f ∈ r.2, ∀ g ∈ r.2, f.contentLocation = (r.1.2.segment a).uri →
      g.contentLocation = (r.1.2.segment a).uri → f = g) →
    ∀ f, (r.1.2.segment a).fluteFile = some f ↔
      f ∈ r.2 ∧ f.contentLocation = (r.1.2.segment a).uri

/-- What every step keeps: the files that wait or are attached were received
at the location they are stored under. -/
structure Received (r : (SeamlessContentStream D × Memory D) × List FluteFile) : Prop where
  window : ∃ hist, Represents hist r.1
  waiting : ∀ l f, r.1.1.fluteFiles.find? l = some f → f ∈ r.2 ∧ f.contentLocation = l
  attached : ∀ k a f, r.1.1.segments.find? k = some a → (r.1.2.segment a).fluteFile = some f →
    f ∈ r.2 ∧ f.contentLocation = (r.1.2.segment a).uri

theorem Received.broadcastUsed {r : (SeamlessContentStream D × Memory D) × List FluteFile}
    (hr : Received r)
    (holds : ∀ k a, r.1.1.segments.find? k = some a →
      ∀ f ∈ r.2, f.contentLocation = (r.1.2.segment a).uri →
      ∃ g ∈ r.2, g.contentLocation = (r.1.2.segment a).uri ∧
        (r.1.2.segment a).fluteFile = some g) : BroadcastUsed r := by
  refine ⟨holds, ?_, ?_, ?_⟩
  · rintro k a hk ⟨f, hf, hfu⟩ hcomplete
    obtain ⟨g, hg, hgu, hgf⟩ := holds k a hk f hf hfu
    have hc : (r.1.2.segment a).completeFluteFile = some g := by
      rw [Segment.completeFluteFile, hgf, Option.filter_some, hcomplete g hg hgu, if_pos rfl]
    simp only [Segment.dataSource, Segment.buffer, hc, and_self]
  · intro k a hk hnone hw
    obtain ⟨f, hf⟩ := OrdMap.mem_keys.mp hw
    obtain ⟨hfm, hfu⟩ := hr.waiting _ f hf
    obtain ⟨g, -, -, hgf⟩ := holds k a hk f hfm hfu
    rw [hnone] at hgf
    cases hgf
  · intro k a hk hunique f
    refine ⟨hr.attached k a f hk, ?_⟩
    rintro ⟨hf, hfu⟩
    obtain ⟨g, hg, hgu, hgf⟩ := holds k a hk f hf hfu
    rw [hgf, hunique f hf g hg hfu hgu]

/-- A segment file is used exactly when no segment of the window lacks it. -/
theorem set_fluteFile_broadcastUsed_iff {st : SeamlessContentStream D × Memory D}
    {received : List FluteFile} (hr : Received (st, received)) (hb : BroadcastUsed (st, received))
    (f : FluteFile) :
    let st' : SeamlessContentStream D × Memory D :=
      ({ st.1 with fluteFiles := st.1.fluteFiles.set f.contentLocation f }, st.2)
    Received (st', received ++ [f]) ∧ (BroadcastUsed (st', received ++ [f]) ↔
      ∀ k a, st.1.segments.find? k = some a → (st.2.segment a).uri = f.contentLocation →
        (st.2.segment a).fluteFile ≠ none) := by
  intro st'
  obtain ⟨hist, h⟩ := hr.window
  have hr' : Received (st', received ++ [f]) := by
    refine ⟨⟨hist, h.congr rfl rfl rfl rfl (fun _ => ⟨rfl, rfl, rfl⟩)⟩, fun l g hg => ?_,
      fun k a g hk hg => ?_⟩
    · change (st.1.fluteFiles.set f.contentLocation f).find? l = some g at hg
      rw [OrdMap.find?_set] at hg
      split_ifs at hg with hl
      · cases hg
        exact ⟨by simp, hl.symm⟩
      · obtain ⟨hm, hu⟩ := hr.waiting l g hg
        exact ⟨List.mem_append_left _ hm, hu⟩
    · obtain ⟨hm, hu⟩ := hr.attached k a g hk hg
      exact ⟨List.mem_append_left _ hm, hu⟩
  refine ⟨hr', fun hb' k a hk hu hnone => ?_, fun hok => hr'.broadcastUsed ?_⟩
  · obtain ⟨g, -, -, hg⟩ := hb'.holds k a hk f (by simp) hu.symm
    exact absurd hg (by rw [show (st'.2.segment a).fluteFile = none from hnone]; simp)
  · intro k a hk g hg hgu
    obtain ⟨x, hx⟩ : ∃ x, (st.2.segment a).fluteFile = some x := by
      rcases List.mem_append.mp hg with hg | hg
      · obtain ⟨x, -, -, hx⟩ := hb.holds k a hk g hg hgu
        exact ⟨x, hx⟩
      · rw [List.mem_singleton.mp hg] at hgu
        exact Option.ne_none_iff_exists'.mp (hok k a hk hgu.symm)
    obtain ⟨hxm, hxu⟩ := hr.attached k a x hk hx
    exact ⟨x, List.mem_append_left _ hxm, hxu, hx⟩

/-- An event that changes no window, no waiting file and no attached one. -/
theorem BroadcastUsed.congr {st : SeamlessContentStream D × Memory D}
    (st' : SeamlessContentStream D × Memory D) {received : List FluteFile} (hr : Received (st, received)) (hb : BroadcastUsed (st, received))
    (hs : st'.1 = st.1) (hnext : st'.2.nextSegment = st.2.nextSegment)
    (hobj : ∀ a, (st'.2.segment a).uri = (st.2.segment a).uri ∧
      (st'.2.segment a).seq = (st.2.segment a).seq ∧
      (st'.2.segment a).extinf = (st.2.segment a).extinf ∧
      (st'.2.segment a).fluteFile = (st.2.segment a).fluteFile) :
    Received (st', received) ∧ BroadcastUsed (st', received) := by
  obtain ⟨hist, h⟩ := hr.window
  have hr' : Received (st', received) := by
    refine ⟨⟨hist, h.congr (by rw [hs]) (by rw [hs]) (by rw [hs]) hnext
      (fun a => ⟨(hobj a).1, (hobj a).2.1, (hobj a).2.2.1⟩)⟩, fun l f hf => ?_,
      fun k a f hk hf => ?_⟩
    · dsimp only at hf
      rw [hs] at hf
      exact hr.waiting l f hf
    · dsimp only at hk hf ⊢
      rw [hs] at hk
      rw [(hobj a).2.2.2] at hf
      rw [(hobj a).1]
      exact hr.attached k a f hk hf
  refine ⟨hr', hr'.broadcastUsed (fun k a hk f hf hfu => ?_)⟩
  dsimp only at hk hf hfu ⊢
  rw [hs] at hk
  rw [(hobj a).1] at hfu ⊢
  rw [(hobj a).2.2.2]
  exact hb.holds k a hk f hf hfu

variable [DoubleText D] (cfg : CacheManagement)

/-- A run that also records the segment files received so far. -/
def observeStep (r : (SeamlessContentStream D × Memory D) × List FluteFile) (e : StreamEvent) :
    (SeamlessContentStream D × Memory D) × List FluteFile :=
  (streamStep cfg r.1 e, r.2 ++ (e.segmentFile r.1.1.playlistPath).toList)

/-- The condition on a step. A segment file comes for no segment of the window
that is without a file; and a new segment of the window whose file has been
received finds it waiting, not taken by another one with the same URI. -/
def AttachesAll (r : (SeamlessContentStream D × Memory D) × List FluteFile) (e : StreamEvent) :
    Prop :=
  (∀ f ∈ e.segmentFile r.1.1.playlistPath, ∀ k a, r.1.1.segments.find? k = some a →
    (r.1.2.segment a).uri = f.contentLocation → (r.1.2.segment a).fluteFile ≠ none) ∧
  ∀ pre y post, newcomers r.1.1.segments.keys (eventSegments r.1.1 e) = pre ++ y :: post →
    y.seq ∈ largest r.1.1.keepCount
      (r.1.1.segments.keys.toFinset ∪ numbers (eventSegments r.1.1 e)) →
    (∃ f ∈ r.2, f.contentLocation = r.1.1.playlistDir ++ y.uri) →
    r.1.1.playlistDir ++ y.uri ∈ r.1.1.fluteFiles.keys ∧ ∀ z ∈ pre, z.uri ≠ y.uri

theorem segmentFile_of_playlistCall {path : Str} {e : StreamEvent} {call : PlaylistCall}
    (hc : e.playlistCall path = some call) : e.segmentFile path = none := by
  cases e with
  | fluteFile indeterminate file =>
    simp only [StreamEvent.playlistCall] at hc
    split_ifs at hc with hf
    simp [StreamEvent.segmentFile, hf]
  | playlist | cdnFile | cacheCheck => rfl

theorem observeStep_playlistCall {r : (SeamlessContentStream D × Memory D) × List FluteFile}
    {e : StreamEvent} {call : PlaylistCall}
    (hc : e.playlistCall r.1.1.playlistPath = some call) :
    observeStep cfg r e = (playlistStep r.1 call, r.2) := by
  rw [observeStep, streamStep_playlistCall cfg hc, segmentFile_of_playlistCall hc]
  simp

theorem Received.playlistStep {st : SeamlessContentStream D × Memory D} {received : List FluteFile}
    (hr : Received (st, received)) (call : PlaylistCall) :
    Received (playlistStep st call, received) := by
  obtain ⟨⟨hist, h⟩, hwaiting, hattached⟩ := hr
  obtain ⟨hfiles, hobjects⟩ := playlistStep_objects h call
  refine ⟨⟨_, playlistStep_represents h call⟩, fun l f hf => hwaiting l f (hfiles l f hf), ?_⟩
  intro k a f hk hf
  dsimp only at hk hf ⊢
  rcases hobjects k a hk with ⟨hold, hseg⟩ | ⟨pre, y, post, -, -, hseg⟩
  · rw [hseg] at hf ⊢
    exact hattached k a f hold hf
  · rw [hseg] at hf ⊢
    simp only [newObject] at hf
    split_ifs at hf
    exact hwaiting _ f hf

/-- A playlist leaves broadcast data used exactly when every newcomer that
stays and whose file was received still finds it. -/
theorem playlistStep_broadcastUsed_iff {st : SeamlessContentStream D × Memory D}
    {received : List FluteFile} (hr : Received (st, received)) (hb : BroadcastUsed (st, received))
    (call : PlaylistCall) :
    BroadcastUsed (playlistStep st call, received) ↔
      ∀ pre y post, newcomers st.1.segments.keys
          (callSegments D st.1.truncateCdnPlaylistSegments call) = pre ++ y :: post →
        y.seq ∈ largest st.1.keepCount (st.1.segments.keys.toFinset ∪
          numbers (callSegments D st.1.truncateCdnPlaylistSegments call)) →
        (∃ f ∈ received, f.contentLocation = st.1.playlistDir ++ y.uri) →
        st.1.playlistDir ++ y.uri ∈ st.1.fluteFiles.keys ∧ ∀ z ∈ pre, z.uri ≠ y.uri := by
  obtain ⟨hist, h⟩ := hr.window
  constructor
  · rintro hb' pre y post hsplit hkept ⟨f, hf, hfu⟩
    obtain ⟨a, ha, hobj⟩ := playlistStep_newcomer hsplit hkept
    have hholds := hb'.holds y.seq a ha f hf
    dsimp only at hholds
    rw [hobj] at hholds
    obtain ⟨g, -, -, hgf⟩ := hholds hfu
    simp only [newObject] at hgf
    split_ifs at hgf with hz
    refine ⟨OrdMap.mem_keys.mpr ⟨g, hgf⟩, fun z hzm he => hz ⟨z, hzm, he⟩⟩
  · intro hok
    refine (hr.playlistStep call).broadcastUsed ?_
    intro k a hk f hf hfu
    dsimp only at hk hf hfu ⊢
    have hkeys : k ∈ largest st.1.keepCount (st.1.segments.keys.toFinset ∪
        numbers (callSegments D st.1.truncateCdnPlaylistSegments call)) := by
      have hh := (mem_keys_iff (playlistStep_represents h call) k).mp
        (OrdMap.mem_keys.mpr ⟨a, hk⟩)
      have hkeep : (SeamlessContentStream.playlistStep st call).1.keepCount = st.1.keepCount := by
        rw [playlistStep_frame]
        rfl
      rwa [hkeep, numbers_append, ← largest_largest_union, ← h.keys] at hh
    rcases (playlistStep_objects h call).2 k a hk with ⟨hold, hseg⟩ | ⟨pre, y, post, hsplit, rfl, hseg⟩
    · rw [hseg] at hfu ⊢
      exact hb.holds k a hold f hf hfu
    · rw [hseg] at hfu ⊢
      obtain ⟨hw, hz⟩ := hok pre y post hsplit hkeys ⟨f, hf, hfu⟩
      obtain ⟨g, hg⟩ := OrdMap.mem_keys.mp hw
      obtain ⟨hgm, hgu⟩ := hr.waiting _ g hg
      refine ⟨g, hgm, hgu, ?_⟩
      rw [newObject, if_neg (by rintro ⟨z, hzm, he⟩; exact hz z hzm he)]
      exact hg

theorem observeStep_iff {r : (SeamlessContentStream D × Memory D) × List FluteFile}
    (hr : Received r) (hb : BroadcastUsed r) (e : StreamEvent) :
    Received (observeStep cfg r e) ∧
      (BroadcastUsed (observeStep cfg r e) ↔ AttachesAll r e) := by
  obtain ⟨st, received⟩ := r
  cases hc : e.playlistCall st.1.playlistPath with
  | some call =>
    rw [observeStep_playlistCall cfg hc]
    refine ⟨hr.playlistStep call, ?_⟩
    rw [playlistStep_broadcastUsed_iff hr hb, AttachesAll, segmentFile_of_playlistCall hc]
    simp only [eventSegments, hc, Option.mem_def, reduceCtorEq, false_implies, implies_true,
      true_and]
  | none =>
    have hnocall : ∀ P : Prop, (P ∧ ∀ pre y post, newcomers st.1.segments.keys
        (eventSegments st.1 e) = pre ++ y :: post → y.seq ∈ largest st.1.keepCount
          (st.1.segments.keys.toFinset ∪ numbers (eventSegments st.1 e)) →
        (∃ f ∈ received, f.contentLocation = st.1.playlistDir ++ y.uri) →
        st.1.playlistDir ++ y.uri ∈ st.1.fluteFiles.keys ∧ ∀ z ∈ pre, z.uri ≠ y.uri) ↔ P := by
      intro P
      refine and_iff_left (fun pre y post hsplit => ?_)
      simp [eventSegments, hc, newcomers] at hsplit
    rw [AttachesAll, hnocall]
    cases e with
    | playlist call => cases hc
    | fluteFile indeterminate file =>
      have hf : file.contentLocation ≠ st.1.playlistPath := by
        intro hf
        simp [StreamEvent.playlistCall, hf] at hc
      rw [observeStep, streamStep_fluteFile cfg hf]
      by_cases hi : file.contentLocation = ContentStream.indexM3u8
      · simp only [StreamEvent.segmentFile, hi, or_true, if_true, Option.toList_none,
          List.append_nil, Option.mem_def, reduceCtorEq, false_implies, implies_true, iff_true]
        exact ⟨hr, hb⟩
      · simp only [StreamEvent.segmentFile, hi, hf, or_self, if_false, Option.toList_some,
          Option.mem_def, Option.some.injEq, forall_eq']
        exact set_fluteFile_broadcastUsed_iff hr hb file
    | cdnFile address now file =>
      have hh := BroadcastUsed.congr (observeStep cfg (st, received)
        (.cdnFile address now file)).1 hr hb rfl rfl (fun a => by
          by_cases ha : a = address
          · subst ha
            simp [observeStep, streamStep, Segment.cdnFileReceived, Segment.uri]
          · simp [observeStep, streamStep, Function.update_of_ne ha])
      simp only [observeStep, StreamEvent.segmentFile, Option.toList_none, List.append_nil] at hh ⊢
      exact ⟨hh.1, iff_of_true hh.2 (by simp)⟩
    | cacheCheck clock text =>
      have hh := BroadcastUsed.congr (observeStep cfg (st, received)
        (.cacheCheck clock text)).1 hr hb rfl rfl (fun _ => ⟨rfl, rfl, rfl, rfl⟩)
      simp only [observeStep, StreamEvent.segmentFile, Option.toList_none, List.append_nil] at hh ⊢
      exact ⟨hh.1, iff_of_true hh.2 (by simp)⟩

/-- Broadcast data is used throughout a run exactly when no file comes after
the segment it belongs to and none is taken by another segment. -/
theorem broadcast_data_used (s : SeamlessContentStream D) (m : Memory D)
    (events : List StreamEvent) (hempty : s.segments = .empty) (hfiles : s.fluteFiles = .empty) :
    (∀ pre, pre <+: events → BroadcastUsed (pre.foldl (observeStep cfg) ((s, m), []))) ↔
      Runs.StepsMeet (observeStep cfg) AttachesAll ((s, m), []) events := by
  have hr : Received (((s, m), []) : (SeamlessContentStream D × Memory D) × List FluteFile) := by
    refine ⟨⟨[], represents_nil _ hempty⟩, fun l f hf => ?_, fun k a f hk => ?_⟩
    · dsimp only at hf
      rw [hfiles] at hf
      cases hf
    · dsimp only at hk
      rw [hempty] at hk
      cases hk
  refine Runs.prefixes_iff_stepsMeet (I := Received) (A := fun _ => True)
    (fun r e _ hr hb _ => (observeStep_iff cfg hr hb e).1)
    (fun r e _ hr hb => (observeStep_iff cfg hr hb e).2) hr (hr.broadcastUsed ?_) (by simp)
  intro k a hk
  dsimp only at hk
  rw [hempty] at hk
  cases hk

/-- The playlist lists `a.ts` before the file arrives. -/
def fileAfterPlaylist : List StreamEvent :=
  [.playlist oneSegmentPlaylist, .fluteFile 0 receivedSegment]

/-- The same events in the other order give the segment its file. -/
theorem late_file_not_attached :
    let cfg := CacheManagement.ofSettings none none true
    let late := fileAfterPlaylist.foldl (observeStep cfg) ((newStream, noMemory), [])
    let early := fileAfterPlaylist.reverse.foldl (observeStep cfg) ((newStream, noMemory), [])
    (late.1.2.segment 0).dataSource = .unavailable ∧ (early.1.2.segment 0).dataSource = .broadcast ∧
    "a.ts".toList ∈ late.1.1.fluteFiles.keys ∧
    ¬ ∀ pre, pre <+: fileAfterPlaylist →
      BroadcastUsed (pre.foldl (observeStep cfg) ((newStream, noMemory), [])) := by
  refine ⟨by decide, by decide, by decide, fun h => ?_⟩
  have hw := (h fileAfterPlaylist List.prefix_rfl).waiting 1 0 (by decide) (by decide)
  revert hw
  decide

theorem broadcast_data_used_fileAfterPlaylist :
    let cfg := CacheManagement.ofSettings none none true
    (∀ pre, pre <+: fileAfterPlaylist →
      BroadcastUsed (pre.foldl (observeStep cfg) ((newStream, noMemory), []))) ↔
    Runs.StepsMeet (observeStep cfg) AttachesAll ((newStream, noMemory), []) fileAfterPlaylist :=
  broadcast_data_used _ newStream noMemory fileAfterPlaylist rfl rfl

end SeamlessContentStream

end MbmsMiddleware
