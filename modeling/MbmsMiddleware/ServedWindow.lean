import MbmsMiddleware.PlaylistText
import MbmsMiddleware.WindowHistory
import Mathlib.Data.Finset.Sort

/-! The segment window of a whole run of `handlePlaylist`: which numbers it
holds, when their objects were made, and what is served. -/

namespace MbmsMiddleware

namespace SeamlessContentStream

variable {D : Type}

/-- The segments of the window as they are rendered. -/
def window (st : SeamlessContentStream D × Memory D) : List (HlsMediaPlaylist.Segment D) :=
  (windowPlaylist st.1 st.2 0).segments

/-- What is served under a number. -/
def describe (dir : Str) (hist : List (HlsMediaPlaylist.Segment D)) (k : Int) :
    Option (HlsMediaPlaylist.Segment D) :=
  (firstWith hist k).map fun x => { x with uri := dir ++ x.uri }

/-- The newest `K` of the accepted segments, each as it was listed first. -/
def windowOf (K : Nat) (dir : Str) (hist : List (HlsMediaPlaylist.Segment D)) :
    List (HlsMediaPlaylist.Segment D) :=
  (largest K (numbers hist)).sort.filterMap (describe dir hist)

theorem firstWith_seq {hist : List (HlsMediaPlaylist.Segment D)} {k : Int}
    {x : HlsMediaPlaylist.Segment D} (h : firstWith hist k = some x) : x.seq = k := by
  simpa using List.find?_some h

theorem describe_seq {dir : Str} {hist : List (HlsMediaPlaylist.Segment D)} {k : Int}
    {x : HlsMediaPlaylist.Segment D} (h : describe dir hist k = some x) : x.seq = k := by
  obtain ⟨y, hy, rfl⟩ := Option.map_eq_some_iff.mp h
  change y.seq = k
  exact firstWith_seq hy

theorem describe_isSome {dir : Str} {hist : List (HlsMediaPlaylist.Segment D)} {k : Int}
    (h : k ∈ numbers hist) : (describe dir hist k).isSome := by
  rw [describe, Option.isSome_map, ← Option.ne_none_iff_isSome, Ne, firstWith_eq_none, not_not]
  exact h

theorem describe_append {dir : Str} {hist : List (HlsMediaPlaylist.Segment D)} {k : Int}
    (h : k ∈ numbers hist) (xs : List (HlsMediaPlaylist.Segment D)) :
    describe dir (hist ++ xs) k = describe dir hist k := by
  cases hx : firstWith hist k with
  | none => exact absurd h (firstWith_eq_none.mp hx)
  | some x => rw [describe, describe, hx, firstWith_append_of_mem hx]

theorem window_eq_windowOf {hist : List (HlsMediaPlaylist.Segment D)}
    {st : SeamlessContentStream D × Memory D} (h : Represents hist st) :
    window st = windowOf st.1.keepCount st.1.playlistDir hist := by
  have hkeys : (largest st.1.keepCount (numbers hist)).sort = st.1.segments.keys := by
    rw [← h.keys]
    exact (List.toFinset_sort _ st.1.segments.keys_nodup).mpr
      (st.1.segments.keys_sorted.imp le_of_lt)
  rw [windowOf, hkeys, OrdMap.keys, List.keys, List.filterMap_map]
  change st.1.segments.entries.map _ = _
  rw [← List.filterMap_eq_map]
  refine List.filterMap_congr (fun e he => ?_)
  obtain ⟨_, hseq, x, hx, huri, hinf⟩ := h.objects e.1 e.2 (OrdMap.find?_eq_some.mpr he)
  simp only [Function.comp_apply, describe, hx, Option.map_some, huri, hseq, hinf, firstWith_seq hx]

theorem window_seq {hist : List (HlsMediaPlaylist.Segment D)}
    {st : SeamlessContentStream D × Memory D} (h : Represents hist st) :
    (window st).map (·.seq) = st.1.segments.keys := by
  change (st.1.segments.entries.map _).map _ = st.1.segments.entries.map _
  rw [List.map_map]
  exact List.map_congr_left
    (fun e he => (h.objects e.1 e.2 (OrdMap.find?_eq_some.mpr he)).2.1)

theorem mem_window {hist : List (HlsMediaPlaylist.Segment D)}
    {st : SeamlessContentStream D × Memory D} (h : Represents hist st)
    {y : HlsMediaPlaylist.Segment D} (hy : y ∈ window st) :
    ∃ x ∈ hist, y = { x with uri := st.1.playlistDir ++ x.uri } := by
  rw [window_eq_windowOf h] at hy
  obtain ⟨k, -, hk⟩ := List.mem_filterMap.mp hy
  obtain ⟨x, hx, rfl⟩ := Option.map_eq_some_iff.mp hk
  exact ⟨x, List.mem_of_find?_eq_some hx, rfl⟩

theorem windowOf_congr {hist hist' : List (HlsMediaPlaylist.Segment D)}
    (hsame : ∀ x, x ∈ hist ↔ x ∈ hist') (hagree : ∀ x ∈ hist, ∀ y ∈ hist, x.seq = y.seq → x = y)
    (K : Nat) (dir : Str) : windowOf K dir hist = windowOf K dir hist' := by
  have hnum : numbers hist = numbers hist' := by
    ext k
    simp only [mem_numbers, hsame]
  have hfirst (k : Int) : firstWith hist k = firstWith hist' k := by
    cases hx : firstWith hist k with
    | none => rw [eq_comm, firstWith_eq_none, ← hnum, ← firstWith_eq_none, hx]
    | some x =>
      cases hy : firstWith hist' k with
      | none =>
        rw [firstWith_eq_none, ← hnum, ← firstWith_eq_none, hx] at hy
        cases hy
      | some y =>
        have hseq := (firstWith_seq hx).trans (firstWith_seq hy).symm
        have hy' := (hsame y).mpr (List.mem_of_find?_eq_some hy)
        rw [hagree x (List.mem_of_find?_eq_some hx) y hy' hseq]
  have hdescribe : describe dir hist = describe dir hist' := by
    funext k
    rw [describe, describe, hfirst]
  rw [windowOf, windowOf, hnum, hdescribe]

theorem keepCount_eq {s : SeamlessContentStream D} (h0 : 0 ≤ s.segmentsToKeep)
    (h31 : s.segmentsToKeep < 2 ^ 31) : s.keepCount = s.segmentsToKeep.toNat := by
  unfold keepCount
  omega

variable [DoubleText D]

/-- A call replaces neither the object nor the address under a number that had
been accepted before, and what it stores under another number is new. -/
theorem playlistStep_retains {hist : List (HlsMediaPlaylist.Segment D)}
    {st : SeamlessContentStream D × Memory D} (h : Represents hist st) (call : PlaylistCall)
    {k : Int} {a : Nat} (hk : (playlistStep st call).1.segments.find? k = some a) :
    (k ∈ numbers hist → st.1.segments.find? k = some a ∧
      (playlistStep st call).2.segment a = st.2.segment a) ∧
    (k ∉ numbers hist → st.2.nextSegment ≤ a) := by
  have hstep := playlistStep_represents h call
  have hmem : k ∈ (playlistStep st call).1.segments.keys := OrdMap.mem_keys.mpr ⟨a, hk⟩
  have hold : k ∈ numbers hist → k ∈ st.1.segments.keys := by
    intro hn
    have hkeep : (playlistStep st call).1.keepCount = st.1.keepCount := by
      rw [playlistStep_frame]
      rfl
    have hl := (mem_keys_iff hstep k).mp hmem
    rw [hkeep, numbers_append] at hl
    exact (mem_keys_iff h k).mpr (mem_largest_of_subset Finset.subset_union_left hn hl)
  have hnew : k ∉ numbers hist → st.1.segments.find? k = none := by
    intro hn
    refine OrdMap.find?_eq_none.mpr (fun hm => hn ?_)
    exact largest_subset _ _ ((mem_keys_iff h k).mp hm)
  cases hp : (HlsMediaPlaylist.parse call.indeterminate call.content :
      Except Fault (HlsMediaPlaylist D)) with
  | error e =>
    rw [playlistStep_error hp] at hk ⊢
    refine ⟨fun _ => ⟨hk, rfl⟩, fun hn => ?_⟩
    rw [hnew hn] at hk
    cases hk
  | ok pl =>
    rw [playlistStep_ok hp] at hk hmem ⊢
    obtain ⟨-, inserted, hins, hseg, -, hfind⟩ := accept_spec pl call.source st
    dsimp only at hk hmem ⊢
    rw [hfind k hmem] at hk
    refine ⟨fun hn => ?_, fun hn => ?_⟩
    · obtain ⟨b, hb⟩ := OrdMap.mem_keys.mp (hold hn)
      have hab : b = a := Option.some.inj ((hins.kept k b hb).symm.trans hk)
      subst hab
      exact ⟨hb, by rw [hseg, hins.objects b (h.objects k b hb).1]⟩
    · cases hf : (reached st.1.truncateCdnPlaylistSegments call.source pl.segments).find?
          (·.seq = k) with
      | none =>
        rw [hins.absent k (hnew hn) hf] at hk
        cases hk
      | some x =>
        obtain ⟨b, hb, hle, -⟩ := hins.created k x (hnew hn) hf
        rwa [← Option.some.inj (hb.symm.trans hk)]

/-- An accepted number that is in the window at the end was never out of it. -/
theorem foldl_playlistStep_retains {hist : List (HlsMediaPlaylist.Segment D)}
    {st : SeamlessContentStream D × Memory D} (h : Represents hist st) (calls : List PlaylistCall)
    {k : Int} {a : Nat} (hn : k ∈ numbers hist)
    (hk : (calls.foldl playlistStep st).1.segments.find? k = some a) :
    st.1.segments.find? k = some a ∧
      (calls.foldl playlistStep st).2.segment a = st.2.segment a := by
  induction calls generalizing hist st with
  | nil => exact ⟨hk, rfl⟩
  | cons call calls ih =>
    have hstep := playlistStep_represents h call
    have hn' : k ∈ numbers (hist ++ callSegments D st.1.truncateCdnPlaylistSegments call) := by
      rw [numbers_append]
      exact Finset.mem_union_left _ hn
    obtain ⟨hk', hobj⟩ := ih hstep hn' hk
    obtain ⟨hk₀, hobj₀⟩ := (playlistStep_retains h call hk').1 hn
    exact ⟨hk₀, hobj.trans hobj₀⟩

theorem mem_accepted {truncate : Int} {calls : List PlaylistCall} {x : HlsMediaPlaylist.Segment D} :
    x ∈ accepted D truncate calls ↔ ∃ call ∈ calls, x ∈ callSegments D truncate call := by
  simp only [accepted, List.mem_flatMap]

/-- The served text is the window as it is now. -/
def Rendered (st : SeamlessContentStream D × Memory D) : Prop :=
  ∃ targetduration, st.1.playlist = (windowPlaylist st.1 st.2 targetduration).toString

theorem playlistStep_rendered {st : SeamlessContentStream D × Memory D} {call : PlaylistCall}
    (h : Rendered st ∨ ∃ pl : HlsMediaPlaylist D,
      HlsMediaPlaylist.parse call.indeterminate call.content = .ok pl) :
    Rendered (playlistStep st call) := by
  cases hp : (HlsMediaPlaylist.parse call.indeterminate call.content :
      Except Fault (HlsMediaPlaylist D)) with
  | ok pl =>
    rw [playlistStep_ok hp]
    exact ⟨pl.targetduration, rfl⟩
  | error e =>
    rw [playlistStep_error hp]
    refine h.resolve_right ?_
    rintro ⟨pl, hpl⟩
    rw [hp] at hpl
    cases hpl

theorem foldl_playlistStep_rendered (st : SeamlessContentStream D × Memory D)
    {calls : List PlaylistCall}
    (h : Rendered st ∨ ∃ call ∈ calls, ∃ pl : HlsMediaPlaylist D,
      HlsMediaPlaylist.parse call.indeterminate call.content = .ok pl) :
    Rendered (calls.foldl playlistStep st) := by
  induction calls generalizing st with
  | nil => simpa using h
  | cons call calls ih =>
    refine ih _ ?_
    rcases h with h | ⟨c, hc, hpl⟩
    · exact .inl (playlistStep_rendered (.inl h))
    · rcases List.mem_cons.mp hc with rfl | hc
      · exact .inl (playlistStep_rendered (.inr hpl))
      · exact .inr ⟨c, hc, hpl⟩

theorem callSegments_wellFormed {truncate : Int} {call : PlaylistCall}
    {x : HlsMediaPlaylist.Segment D} (hx : x ∈ callSegments D truncate call) :
    HlsMediaPlaylist.WellFormed x := by
  cases hp : (HlsMediaPlaylist.parse call.indeterminate call.content :
      Except Fault (HlsMediaPlaylist D)) with
  | error e =>
    rw [callSegments_error hp] at hx
    cases hx
  | ok pl =>
    rw [callSegments_ok hp] at hx
    exact HlsMediaPlaylist.parse_wellFormed hp x ((prefix_of_reached _ _ _).subset hx)

theorem accepted_wellFormed {truncate : Int} {calls : List PlaylistCall}
    {x : HlsMediaPlaylist.Segment D} (hx : x ∈ accepted D truncate calls) :
    HlsMediaPlaylist.WellFormed x := by
  obtain ⟨call, -, hx⟩ := mem_accepted.mp hx
  exact callSegments_wellFormed hx

/-- A client finds the window listed in the served text. -/
theorem Rendered.lists [LawfulDoubleText D] {hist : List (HlsMediaPlaylist.Segment D)}
    {st : SeamlessContentStream D × Memory D} (h : Rendered st) (hrep : Represents hist st)
    (hwf : ∀ x ∈ hist, HlsMediaPlaylist.WellFormed x) (hdir : '\n' ∉ st.1.playlistDir) :
    PlaylistText.Lists st.1.playlist (window st) := by
  obtain ⟨targetduration, hplaylist⟩ := h
  rw [hplaylist]
  change PlaylistText.Lists (windowPlaylist st.1 st.2 targetduration).toString
    (windowPlaylist st.1 st.2 targetduration).segments
  refine PlaylistText.lists_toString (fun y hy => ?_) (fun y hy => ?_)
  · obtain ⟨x, hx, rfl⟩ := mem_window hrep hy
    have hclean := (hwf x hx).uri_clean.1
    simp [hdir, hclean]
  · obtain ⟨x, hx, rfl⟩ := mem_window hrep hy
    exact (hwf x hx).seq_range

/-- What a run of calls that starts with an empty window makes of it. -/
structure SegmentWindow (s : SeamlessContentStream D) (m : Memory D) (calls : List PlaylistCall) :
    Prop where
  keys_subset : ∀ k ∈ (calls.foldl playlistStep (s, m)).1.segments.keys,
    k ∈ numbers (accepted D s.truncateCdnPlaylistSegments calls)
  size : (calls.foldl playlistStep (s, m)).1.segments.size =
    min s.segmentsToKeep.toNat (numbers (accepted D s.truncateCdnPlaylistSegments calls)).card
  left_out : ∀ k ∈ numbers (accepted D s.truncateCdnPlaylistSegments calls),
    k ∉ (calls.foldl playlistStep (s, m)).1.segments.keys →
    ∀ k' ∈ (calls.foldl playlistStep (s, m)).1.segments.keys, k < k'
  first : ∀ k a, (calls.foldl playlistStep (s, m)).1.segments.find? k = some a →
    ((calls.foldl playlistStep (s, m)).2.segment a).seq = k ∧
    ∃ x, firstWith (accepted D s.truncateCdnPlaylistSegments calls) k = some x ∧
      ((calls.foldl playlistStep (s, m)).2.segment a).uri = s.playlistDir ++ x.uri ∧
      ((calls.foldl playlistStep (s, m)).2.segment a).extinf = x.extinf
  /-- The object is made by the call that accepts the number first, and every
  later call finds and leaves it under that number. -/
  created : ∀ pre call post k a, calls = pre ++ call :: post →
    (calls.foldl playlistStep (s, m)).1.segments.find? k = some a →
    k ∉ numbers (accepted D s.truncateCdnPlaylistSegments pre) →
    k ∈ numbers (callSegments D s.truncateCdnPlaylistSegments call) →
    (pre.foldl playlistStep (s, m)).2.nextSegment ≤ a ∧
    ∀ mid, mid <+: post →
      ((pre ++ call :: mid).foldl playlistStep (s, m)).1.segments.find? k = some a ∧
      (calls.foldl playlistStep (s, m)).2.segment a =
        ((pre ++ call :: mid).foldl playlistStep (s, m)).2.segment a
  /-- What is served once a playlist has been parsed lists the window. -/
  listed : (∃ call ∈ calls, ∃ pl : HlsMediaPlaylist D,
      HlsMediaPlaylist.parse call.indeterminate call.content = .ok pl) →
    PlaylistText.Lists (calls.foldl playlistStep (s, m)).1.playlist
      (window (calls.foldl playlistStep (s, m)))
  increasing : (window (calls.foldl playlistStep (s, m))).map (·.seq) =
      (calls.foldl playlistStep (s, m)).1.segments.keys ∧
    ((window (calls.foldl playlistStep (s, m))).map (·.seq)).Pairwise (· < ·)
  reordered : (∀ x ∈ accepted D s.truncateCdnPlaylistSegments calls,
      ∀ y ∈ accepted D s.truncateCdnPlaylistSegments calls, x.seq = y.seq → x = y) →
    ∀ calls' : List PlaylistCall, (∀ call, call ∈ calls' ↔ call ∈ calls) →
      window (calls'.foldl playlistStep (s, m)) = window (calls.foldl playlistStep (s, m))

def newStream : SeamlessContentStream Int where
  deliveryProtocol := .hls
  base := []

def noMemory : Memory Int where
  segment _ := { contentLocation := [], seq := 0, extinf := 0 }
  nextSegment := 0
  cache := .empty

end SeamlessContentStream

end MbmsMiddleware
