import MbmsMiddleware.SegmentWindow
import MbmsMiddleware.Runs

/-! Runs of `handlePlaylist`. The window is a function of the history: of all
the segments ever accepted it keeps the newest sequence numbers, each with the
segment that was listed first. -/

namespace MbmsMiddleware

structure PlaylistCall where
  indeterminate : Int
  content : Str
  source : ItemSource
  deriving DecidableEq

namespace SeamlessContentStream

variable {D : Type}

def numbers (xs : List (HlsMediaPlaylist.Segment D)) : Finset Int := (xs.map (·.seq)).toFinset

/-- The first accepted segment with a sequence number. -/
def firstWith (xs : List (HlsMediaPlaylist.Segment D)) (k : Int) :
    Option (HlsMediaPlaylist.Segment D) :=
  xs.find? (·.seq = k)

/-- The window of a stream that has accepted `hist` so far. -/
structure Represents (hist : List (HlsMediaPlaylist.Segment D))
    (st : SeamlessContentStream D × Memory D) : Prop where
  keys : st.1.segments.keys.toFinset = largest st.1.keepCount (numbers hist)
  objects : ∀ k a, st.1.segments.find? k = some a → a < st.2.nextSegment ∧
    (st.2.segment a).seq = k ∧ ∃ x, firstWith hist k = some x ∧
      (st.2.segment a).uri = st.1.playlistDir ++ x.uri ∧ (st.2.segment a).extinf = x.extinf

theorem mem_numbers {xs : List (HlsMediaPlaylist.Segment D)} {k : Int} :
    k ∈ numbers xs ↔ ∃ x ∈ xs, x.seq = k := by
  simp [numbers]

theorem numbers_append (xs ys : List (HlsMediaPlaylist.Segment D)) :
    numbers (xs ++ ys) = numbers xs ∪ numbers ys := by
  simp [numbers, List.toFinset_append]

theorem firstWith_eq_none {xs : List (HlsMediaPlaylist.Segment D)} {k : Int} :
    firstWith xs k = none ↔ k ∉ numbers xs := by
  simp [firstWith, mem_numbers]

theorem firstWith_append_of_mem {xs : List (HlsMediaPlaylist.Segment D)} {k : Int}
    {x : HlsMediaPlaylist.Segment D} (h : firstWith xs k = some x)
    (ys : List (HlsMediaPlaylist.Segment D)) : firstWith (xs ++ ys) k = some x := by
  rw [firstWith, List.find?_append, ← firstWith, h]
  rfl

theorem firstWith_append_of_notMem {xs : List (HlsMediaPlaylist.Segment D)} {k : Int}
    (h : k ∉ numbers xs) (ys : List (HlsMediaPlaylist.Segment D)) :
    firstWith (xs ++ ys) k = firstWith ys k := by
  rw [firstWith, List.find?_append, ← firstWith, firstWith_eq_none.mpr h]
  rfl

theorem represents_nil (st : SeamlessContentStream D × Memory D) (h : st.1.segments = .empty) :
    Represents [] st := by
  refine ⟨by simp [h, numbers, largest], fun k a hk => ?_⟩
  rw [h] at hk
  cases hk

theorem mem_keys_iff {hist : List (HlsMediaPlaylist.Segment D)}
    {st : SeamlessContentStream D × Memory D} (h : Represents hist st) (k : Int) :
    k ∈ st.1.segments.keys ↔ k ∈ largest st.1.keepCount (numbers hist) := by
  rw [← h.keys, List.mem_toFinset]

/-- The window after a parsed playlist in terms of the window before it. -/
theorem accept_spec (pl : HlsMediaPlaylist D) (source : ItemSource)
    (st : SeamlessContentStream D × Memory D) :
    let xs := reached st.1.truncateCdnPlaylistSegments source pl.segments
    let st' := accept pl source st
    st'.1.segments.keys.toFinset =
      largest st.1.keepCount (st.1.segments.keys.toFinset ∪ numbers xs) ∧
    ∃ inserted, Inserted xs st inserted ∧ st'.2.segment = inserted.2.segment ∧
      st'.2.nextSegment = inserted.2.nextSegment ∧
      ∀ k ∈ st'.1.segments.keys, st'.1.segments.find? k = inserted.1.segments.find? k := by
  intro xs st'
  have hins := foldl_insertSegment xs st
  generalize hI : xs.foldl insertSegment st = inserted at hins
  have hst : st' = dropped (inserted.1.segments.size - st.1.keepCount) inserted := by
    rw [← hI]
    rfl
  have hunion : inserted.1.segments.keys.toFinset = st.1.segments.keys.toFinset ∪ numbers xs := by
    ext k
    rw [List.mem_toFinset, hins.mem_keys, Finset.mem_union, List.mem_toFinset, mem_numbers]
  refine ⟨?_, inserted, hins, by rw [hst]; rfl, by rw [hst]; rfl, ?_⟩
  · rw [hst, ← hunion, ← toFinset_drop_length_sub inserted.1.segments.keys_sorted,
      ← OrdMap.size_eq_length_keys, ← OrdMap.keys_dropFront]
    rfl
  · rw [hst]
    exact fun k hk => OrdMap.find?_dropFront_of_mem hk

theorem accept_represents {hist : List (HlsMediaPlaylist.Segment D)}
    {st : SeamlessContentStream D × Memory D} (h : Represents hist st) (pl : HlsMediaPlaylist D)
    (source : ItemSource) :
    Represents (hist ++ reached st.1.truncateCdnPlaylistSegments source pl.segments)
      (accept pl source st) := by
  obtain ⟨hkeys, inserted, hins, hseg, hnext, hfind⟩ := accept_spec pl source st
  generalize reached st.1.truncateCdnPlaylistSegments source pl.segments = xs at hkeys hins ⊢
  have hframe := accept_frame pl source st
  have hdir : (accept pl source st).1.playlistDir = st.1.playlistDir := by rw [hframe]
  have hkeep : (accept pl source st).1.keepCount = st.1.keepCount := by
    rw [hframe]
    rfl
  have hkeys' : (accept pl source st).1.segments.keys.toFinset =
      largest st.1.keepCount (numbers (hist ++ xs)) := by
    rw [hkeys, h.keys, largest_largest_union, numbers_append]
  refine ⟨by rw [hkeep, hkeys'], fun k a hk => ?_⟩
  have hmem : k ∈ (accept pl source st).1.segments.keys := OrdMap.mem_keys.mpr ⟨a, hk⟩
  rw [hfind k hmem] at hk
  rw [hseg, hnext, hdir]
  cases hold : st.1.segments.find? k with
  | some b =>
    have hab : b = a := Option.some.inj ((hins.kept k b hold).symm.trans hk)
    subst hab
    obtain ⟨hlt, hseq, x, hx, huri, hinf⟩ := h.objects k b hold
    rw [hins.objects b hlt]
    exact ⟨hlt.trans_le hins.next_le, hseq, x, firstWith_append_of_mem hx xs, huri, hinf⟩
  | none =>
    -- a number that had been dropped before would not have survived this call either
    have hnot : k ∉ numbers hist := by
      intro hk'
      have hl : k ∈ largest st.1.keepCount (numbers (hist ++ xs)) := by
        rw [← hkeys']
        exact List.mem_toFinset.mpr hmem
      have hsub : numbers hist ⊆ numbers (hist ++ xs) := by
        rw [numbers_append]
        exact Finset.subset_union_left
      have hin := (mem_keys_iff h k).mpr (mem_largest_of_subset hsub hk' hl)
      exact OrdMap.find?_eq_none.mp hold hin
    cases hf : xs.find? (·.seq = k) with
    | none =>
      rw [hins.absent k hold hf] at hk
      cases hk
    | some x =>
      obtain ⟨b, hb, -, hlt, huri, hseq, hinf⟩ := hins.created k x hold hf
      have hab : b = a := Option.some.inj (hb.symm.trans hk)
      subst hab
      exact ⟨hlt, hseq, x, (firstWith_append_of_notMem hnot xs).trans hf, huri, hinf⟩

variable [DoubleText D]

/-- A call that throws has not changed anything. -/
def playlistStep (st : SeamlessContentStream D × Memory D) (call : PlaylistCall) :
    SeamlessContentStream D × Memory D :=
  match handlePlaylist call.indeterminate call.content call.source st with
  | .ok st => st
  | .error _ => st

/-- The segments that the insertion loop of a call reaches. -/
def callSegments (D : Type) [DoubleText D] (truncate : Int) (call : PlaylistCall) :
    List (HlsMediaPlaylist.Segment D) :=
  match HlsMediaPlaylist.parse call.indeterminate call.content with
  | .ok pl => reached truncate call.source pl.segments
  | .error _ => []

def accepted (D : Type) [DoubleText D] (truncate : Int) (calls : List PlaylistCall) :
    List (HlsMediaPlaylist.Segment D) :=
  calls.flatMap (callSegments D truncate)

/-- What a call leaves alone. -/
theorem playlistStep_frame (st : SeamlessContentStream D × Memory D) (call : PlaylistCall) :
    (playlistStep st call).1 = { st.1 with
      segments := (playlistStep st call).1.segments
      fluteFiles := (playlistStep st call).1.fluteFiles
      playlist := (playlistStep st call).1.playlist } := by
  unfold playlistStep
  rw [handlePlaylist_eq]
  cases hp : (HlsMediaPlaylist.parse call.indeterminate call.content :
      Except Fault (HlsMediaPlaylist D)) with
  | error e => rfl
  | ok pl =>
    simp only [Except.map]
    rw [accept_frame]

theorem playlistStep_ok {st : SeamlessContentStream D × Memory D} {call : PlaylistCall}
    {pl : HlsMediaPlaylist D}
    (hp : HlsMediaPlaylist.parse call.indeterminate call.content = .ok pl) :
    playlistStep st call = ({ (accept pl call.source st).1 with
      playlist := (windowPlaylist (accept pl call.source st).1 (accept pl call.source st).2
        pl.targetduration).toString }, (accept pl call.source st).2) := by
  unfold playlistStep
  rw [handlePlaylist_eq, hp]
  rfl

theorem playlistStep_error {st : SeamlessContentStream D × Memory D} {call : PlaylistCall}
    {e : Fault} (hp : (HlsMediaPlaylist.parse call.indeterminate call.content :
      Except Fault (HlsMediaPlaylist D)) = .error e) : playlistStep st call = st := by
  unfold playlistStep
  rw [handlePlaylist_eq, hp]
  rfl

theorem callSegments_ok {truncate : Int} {call : PlaylistCall} {pl : HlsMediaPlaylist D}
    (hp : HlsMediaPlaylist.parse call.indeterminate call.content = .ok pl) :
    callSegments D truncate call = reached truncate call.source pl.segments := by
  rw [callSegments, hp]

theorem callSegments_error {truncate : Int} {call : PlaylistCall} {e : Fault}
    (hp : (HlsMediaPlaylist.parse call.indeterminate call.content :
      Except Fault (HlsMediaPlaylist D)) = .error e) : callSegments D truncate call = [] := by
  rw [callSegments, hp]

theorem playlistStep_represents {hist : List (HlsMediaPlaylist.Segment D)}
    {st : SeamlessContentStream D × Memory D} (h : Represents hist st) (call : PlaylistCall) :
    Represents (hist ++ callSegments D st.1.truncateCdnPlaylistSegments call)
      (playlistStep st call) := by
  cases hp : (HlsMediaPlaylist.parse call.indeterminate call.content :
      Except Fault (HlsMediaPlaylist D)) with
  | error e =>
    rw [playlistStep_error hp, callSegments_error hp, List.append_nil]
    exact h
  | ok pl =>
    have hh := accept_represents h pl call.source
    rw [playlistStep_ok hp, callSegments_ok hp]
    exact ⟨hh.keys, hh.objects⟩

/-- What no call changes: configuration and directory of the stream. -/
theorem foldl_playlistStep_config (calls : List PlaylistCall)
    (st : SeamlessContentStream D × Memory D) :
    (calls.foldl playlistStep st).1.truncateCdnPlaylistSegments = st.1.truncateCdnPlaylistSegments ∧
    (calls.foldl playlistStep st).1.segmentsToKeep = st.1.segmentsToKeep ∧
    (calls.foldl playlistStep st).1.playlistDir = st.1.playlistDir := by
  refine Runs.foldl_invariant (I := fun st' : SeamlessContentStream D × Memory D =>
    st'.1.truncateCdnPlaylistSegments = st.1.truncateCdnPlaylistSegments ∧
    st'.1.segmentsToKeep = st.1.segmentsToKeep ∧ st'.1.playlistDir = st.1.playlistDir) ?_
    ⟨rfl, rfl, rfl⟩ calls
  intro st' call h
  rw [playlistStep_frame]
  exact h

theorem foldl_playlistStep_represents {hist : List (HlsMediaPlaylist.Segment D)}
    {st : SeamlessContentStream D × Memory D} (h : Represents hist st) (calls : List PlaylistCall) :
    Represents (hist ++ accepted D st.1.truncateCdnPlaylistSegments calls)
      (calls.foldl playlistStep st) := by
  induction calls generalizing hist st with
  | nil => simpa [accepted] using h
  | cons call calls ih =>
    have hh := ih (playlistStep_represents h call)
    have ht : (playlistStep st call).1.truncateCdnPlaylistSegments =
        st.1.truncateCdnPlaylistSegments := by rw [playlistStep_frame]
    rw [ht] at hh
    simpa [accepted] using hh

end SeamlessContentStream

end MbmsMiddleware
