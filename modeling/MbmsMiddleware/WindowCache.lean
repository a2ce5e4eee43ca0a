import MbmsMiddleware.ServedWindow

/-! The window is keyed by sequence number and the item map by URI. When a
playlist leaves the two in step. -/

namespace MbmsMiddleware

namespace SeamlessContentStream

variable {D : Type}

/-- The window and the item map agree on the stream's segments; `own` are the
addresses of the segments the stream has made. -/
structure Corresponds (own : Nat → Prop) (st : SeamlessContentStream D × Memory D) : Prop where
  cached : ∀ k a, st.1.segments.find? k = some a →
    ∃ l r b k', st.2.cache.find? (st.2.segment a).uri = some (.segment l r b) ∧
      st.1.segments.find? k' = some b ∧ (st.2.segment b).uri = (st.2.segment a).uri
  listed : ∀ l l' r b, st.2.cache.find? l = some (.segment l' r b) → own b →
    ∃ k a, st.1.segments.find? k = some a ∧ (st.2.segment a).uri = l

/-- Only segments that exist are referred to. -/
structure Allocated (st : SeamlessContentStream D × Memory D) : Prop where
  window : ∀ k a, st.1.segments.find? k = some a → a < st.2.nextSegment
  cached : ∀ l l' r b, st.2.cache.find? l = some (.segment l' r b) → b < st.2.nextSegment

def windowUris (st : SeamlessContentStream D × Memory D) : OrdMap Int Str :=
  st.1.segments.map fun a => (st.2.segment a).uri

/-- The URIs by number with those of listed segments whose numbers are new. -/
def takeIn (dir : Str) (uris : OrdMap Int Str) (x : HlsMediaPlaylist.Segment D) : OrdMap Int Str :=
  match uris.find? x.seq with
  | some _ => uris
  | none => uris.set x.seq (dir ++ x.uri)

/-- One of the `n` oldest numbers has the URI of one of the others. -/
def SharedUri (n : Nat) (uris : OrdMap Int Str) : Prop :=
  ∃ e ∈ uris.entries.take n, ∃ e' ∈ uris.entries.drop n, e.2 = e'.2

instance (n : Nat) (uris : OrdMap Int Str) : Decidable (SharedUri n uris) := by
  unfold SharedUri
  infer_instance

theorem find?_windowUris {st : SeamlessContentStream D × Memory D} {k : Int} {u : Str} :
    (windowUris st).find? k = some u ↔
      ∃ a, st.1.segments.find? k = some a ∧ (st.2.segment a).uri = u := by
  rw [windowUris, OrdMap.find?_map, Option.map_eq_some_iff]

theorem Allocated.insertSegment {st : SeamlessContentStream D × Memory D} (h : Allocated st)
    (x : HlsMediaPlaylist.Segment D) : Allocated (insertSegment st x) := by
  obtain ⟨s, m⟩ := st
  cases hx : s.segments.find? x.seq with
  | some a => rwa [insertSegment_known hx]
  | none =>
    rw [insertSegment_new hx]
    constructor
    · intro k a hk
      dsimp only at hk ⊢
      rw [OrdMap.find?_set] at hk
      split_ifs at hk with hseq
      · have ha : m.nextSegment = a := Option.some.inj hk
        omega
      · exact (h.window k a hk).trans (Nat.lt_succ_self _)
    · intro l l' r b hl
      dsimp only at hl ⊢
      rw [Cache.addItem, OrdMap.find?_set] at hl
      split_ifs at hl with huri
      · simp only [Option.some.injEq, CacheItem.segment.injEq] at hl
        omega
      · exact (h.cached l l' r b hl).trans (Nat.lt_succ_self _)

theorem windowUris_insertSegment {st : SeamlessContentStream D × Memory D} (h : Allocated st)
    (x : HlsMediaPlaylist.Segment D) :
    windowUris (insertSegment st x) = takeIn st.1.playlistDir (windowUris st) x := by
  obtain ⟨s, m⟩ := st
  cases hx : s.segments.find? x.seq with
  | some a => simp [insertSegment_known hx, takeIn, windowUris, OrdMap.find?_map, hx]
  | none =>
    refine OrdMap.find?_ext (fun k => ?_)
    have hw : (windowUris (s, m)).find? x.seq = none := by
      rw [windowUris, OrdMap.find?_map, hx, Option.map_none]
    rw [insertSegment_new hx, takeIn, hw]
    dsimp only
    rw [windowUris, OrdMap.find?_map, OrdMap.find?_set, OrdMap.find?_set]
    split_ifs with hk
    · simp [newSegment, Segment.uri]
    · rw [windowUris, OrdMap.find?_map]
      cases hf : s.segments.find? k with
      | none => rfl
      | some a =>
        have hne : a ≠ m.nextSegment := (h.window k a hf).ne
        simp [Function.update_of_ne hne]

/-- Taking in a segment keeps the two in step: the item at its URI is its own. -/
theorem Corresponds.insertSegment {own : Nat → Prop} {st : SeamlessContentStream D × Memory D}
    (h : Corresponds own st) (ha : Allocated st) (x : HlsMediaPlaylist.Segment D) :
    Corresponds own (insertSegment st x) := by
  obtain ⟨s, m⟩ := st
  cases hx : s.segments.find? x.seq with
  | some a => rwa [insertSegment_known hx]
  | none =>
    rw [insertSegment_new hx]
    have hold : ∀ k a, s.segments.find? k = some a →
        (s.segments.set x.seq m.nextSegment).find? k = some a ∧
          Function.update m.segment m.nextSegment (newSegment s x) a = m.segment a := by
      intro k a hk
      have hne : k ≠ x.seq := by
        rintro rfl
        simp [hx] at hk
      exact ⟨by rwa [OrdMap.find?_set_of_ne _ _ hne], Function.update_of_ne (ha.window k a hk).ne _ _⟩
    constructor
    · intro k a hk
      dsimp only at hk ⊢
      rw [Cache.addItem, OrdMap.find?_set]
      split_ifs with huri
      · refine ⟨_, _, _, x.seq, rfl, OrdMap.find?_set_self _ _ _, ?_⟩
        rw [Function.update_self, huri]
        rfl
      · rw [OrdMap.find?_set] at hk
        split_ifs at hk with hseq
        · have ha' : m.nextSegment = a := Option.some.inj hk
          subst ha'
          rw [Function.update_self] at huri
          exact absurd rfl huri
        · obtain ⟨l, r, b, k', hc, hb, heq⟩ := h.cached k a hk
          rw [(hold k a hk).2]
          exact ⟨l, r, b, k', hc, (hold k' b hb).1, by rw [(hold k' b hb).2, heq]⟩
    · intro l l' r b hl hb
      dsimp only at hl ⊢
      rw [Cache.addItem, OrdMap.find?_set] at hl
      split_ifs at hl with huri
      · refine ⟨x.seq, m.nextSegment, OrdMap.find?_set_self _ _ _, ?_⟩
        rw [Function.update_self, huri]
        rfl
      · obtain ⟨k, a, hk, hu⟩ := h.listed l l' r b hl hb
        exact ⟨k, a, (hold k a hk).1, by rw [(hold k a hk).2, hu]⟩

theorem foldl_insertSegment_corresponds {own : Nat → Prop} {st : SeamlessContentStream D × Memory D}
    (h : Corresponds own st) (ha : Allocated st) (xs : List (HlsMediaPlaylist.Segment D)) :
    let st' := xs.foldl insertSegment st
    Corresponds own st' ∧ Allocated st' ∧
      windowUris st' = xs.foldl (takeIn st.1.playlistDir) (windowUris st) := by
  induction xs generalizing st with
  | nil => exact ⟨h, ha, rfl⟩
  | cons x xs ih =>
    obtain ⟨hc, hal, hw⟩ := ih (h.insertSegment ha x) (ha.insertSegment x)
    refine ⟨hc, hal, ?_⟩
    rw [List.foldl_cons, List.foldl_cons, hw, windowUris_insertSegment ha x]
    have hdir : (insertSegment st x).1.playlistDir = st.1.playlistDir := by
      rw [insertSegment_frame st.1 st.2 x]
    rw [hdir]

theorem sharedUri_windowUris {n : Nat} {st : SeamlessContentStream D × Memory D} :
    SharedUri n (windowUris st) ↔ ∃ e ∈ st.1.segments.entries.take n,
      ∃ e' ∈ st.1.segments.entries.drop n, (st.2.segment e.2).uri = (st.2.segment e'.2).uri := by
  simp only [SharedUri, windowUris, OrdMap.map, ← List.map_take, ← List.map_drop, List.mem_map,
    exists_exists_and_eq_and]

theorem find?_dropFront_of_notMem {m : OrdMap Int Nat} {n : Nat} {k : Int} {a : Nat}
    (h : m.find? k = some a) (hn : ⟨k, a⟩ ∉ m.entries.take n) : (m.dropFront n).find? k = some a := by
  have hm := OrdMap.find?_eq_some.mp h
  rw [← List.take_append_drop n m.entries] at hm
  exact OrdMap.find?_eq_some.mpr ((List.mem_append.mp hm).resolve_left hn)

/-- Nothing of the stream is left behind when the oldest segments go. -/
theorem Corresponds.listed_dropped {own : Nat → Prop} {st : SeamlessContentStream D × Memory D}
    (h : Corresponds own st) (n : Nat) {l l' : Str} {r b : Nat}
    (hl : (dropped n st).2.cache.find? l = some (.segment l' r b)) (hb : own b) :
    ∃ k a, (dropped n st).1.segments.find? k = some a ∧ ((dropped n st).2.segment a).uri = l := by
  simp only [dropped, find?_removeItems] at hl ⊢
  split_ifs at hl with hmem
  obtain ⟨k, a, hk, hu⟩ := h.listed l l' r b hl hb
  refine ⟨k, a, find?_dropFront_of_notMem hk (fun ht => ?_), hu⟩
  exact hmem (List.mem_map.mpr ⟨_, ht, hu⟩)

theorem find?_cache_dropped {n : Nat} {st : SeamlessContentStream D × Memory D} {k : Int} {u : Str}
    (hk : (windowUris st).find? k = some u)
    (hgone : ∀ k' a, (dropped n st).1.segments.find? k' = some a → ((dropped n st).2.segment a).uri ≠ u) :
    (dropped n st).2.cache.find? u = none := by
  obtain ⟨a, ha, rfl⟩ := find?_windowUris.mp hk
  have ht : ⟨k, a⟩ ∈ st.1.segments.entries.take n := by
    by_contra hn
    exact hgone k a (find?_dropFront_of_notMem ha hn) rfl
  simp only [dropped, find?_removeItems]
  exact if_pos (List.mem_map.mpr ⟨_, ht, rfl⟩)

/-- Dropping keeps the two in step unless a name that goes is still in use. -/
theorem corresponds_dropped_iff {own : Nat → Prop} {st : SeamlessContentStream D × Memory D}
    (h : Corresponds own st) (n : Nat) :
    Corresponds own (dropped n st) ↔ ¬ SharedUri n (windowUris st) := by
  rw [sharedUri_windowUris]
  constructor
  · rintro h' ⟨e, he, e', he', heq⟩
    obtain ⟨l, r, b, k', hc, -⟩ := h'.cached e'.1 e'.2 (OrdMap.find?_eq_some.mpr he')
    simp only [dropped, find?_removeItems] at hc
    rw [if_pos (List.mem_map.mpr ⟨e, he, heq⟩)] at hc
    exact absurd hc (by simp)
  · intro hshared
    refine ⟨fun k a hk => ?_, fun l l' r b hl hb => h.listed_dropped n hl hb⟩
    have hdrop : ⟨k, a⟩ ∈ st.1.segments.entries.drop n := OrdMap.find?_eq_some.mp hk
    obtain ⟨l, r, b, k', hc, hb, heq⟩ := h.cached k a (OrdMap.find?_dropFront hk)
    refine ⟨l, r, b, k', ?_, find?_dropFront_of_notMem hb (fun ht => ?_), heq⟩
    · simp only [dropped, find?_removeItems]
      rw [if_neg (fun hmem => ?_)]
      · exact hc
      · obtain ⟨e, he, hu⟩ := List.mem_map.mp hmem
        exact hshared ⟨e, he, _, hdrop, hu⟩
    · exact hshared ⟨_, ht, _, hdrop, heq⟩

def ownAfter (own : Nat → Prop) (st : SeamlessContentStream D × Memory D) (b : Nat) : Prop :=
  own b ∨ st.2.nextSegment ≤ b

theorem corresponds_ownAfter {own : Nat → Prop} {st : SeamlessContentStream D × Memory D}
    (h : Corresponds own st) (ha : Allocated st) : Corresponds (ownAfter own st) st := by
  refine ⟨h.cached, fun l l' r b hl hb => h.listed l l' r b hl ?_⟩
  have hlt := ha.cached l l' r b hl
  exact hb.resolve_right (by omega)

variable [DoubleText D]

/-- After a playlist, window and item map are in step exactly when none of the
segments that leave the window has the URI of one that stays. No item is left
for a segment that left. -/
theorem handlePlaylist_in_step_iff {own : Nat → Prop} {st : SeamlessContentStream D × Memory D}
    (hstep : Corresponds own st) (halloc : Allocated st) {indeterminate : Int} {content : Str}
    {pl : HlsMediaPlaylist D} (hparse : HlsMediaPlaylist.parse indeterminate content = .ok pl)
    (source : ItemSource) :
    let uris := (reached st.1.truncateCdnPlaylistSegments source pl.segments).foldl
      (takeIn st.1.playlistDir) (windowUris st)
    ∃ st', handlePlaylist indeterminate content source st = .ok st' ∧
      (Corresponds (ownAfter own st) st' ↔ ¬ SharedUri (uris.size - st.1.keepCount) uris) ∧
      (∀ l l' r b, st'.2.cache.find? l = some (.segment l' r b) → ownAfter own st b →
        ∃ k a, st'.1.segments.find? k = some a ∧ (st'.2.segment a).uri = l) ∧
      ∀ k u, uris.find? k = some u →
        (∀ k' a, st'.1.segments.find? k' = some a → (st'.2.segment a).uri ≠ u) →
        st'.2.cache.find? u = none := by
  intro uris
  obtain ⟨hc, -, hw⟩ := foldl_insertSegment_corresponds (corresponds_ownAfter hstep halloc) halloc
    (reached st.1.truncateCdnPlaylistSegments source pl.segments)
  have hsize : uris.size =
      ((reached st.1.truncateCdnPlaylistSegments source pl.segments).foldl
        insertSegment st).1.segments.size := by
    rw [show uris = _ from hw.symm]
    exact OrdMap.size_map _ _
  rw [handlePlaylist_eq, hparse]
  refine ⟨_, rfl, ?_⟩
  rw [hsize, show uris = _ from hw.symm]
  -- only the rendered playlist is written besides
  have hsame : ∀ own' (st' : SeamlessContentStream D × Memory D) playlist,
      Corresponds own' ({ st'.1 with playlist := playlist }, st'.2) ↔ Corresponds own' st' :=
    fun _ _ _ => ⟨fun h => ⟨h.cached, h.listed⟩, fun h => ⟨h.cached, h.listed⟩⟩
  exact ⟨(hsame _ (accept pl source st) _).trans (corresponds_dropped_iff hc _),
    fun l l' r b hl hb => hc.listed_dropped _ hl hb,
    fun k u hk hgone => find?_cache_dropped hk hgone⟩

section Example

theorem corresponds_newStream :
    Corresponds (fun _ => False) ((newStream : SeamlessContentStream Int), noMemory) ∧
      Allocated ((newStream : SeamlessContentStream Int), noMemory) :=
  ⟨⟨fun _ _ h => absurd h (by simp [newStream]), fun _ _ _ _ _ h => h.elim⟩,
    fun _ _ h => absurd h (by simp [newStream]), fun _ _ _ _ h => absurd h (by simp [noMemory])⟩

/-- Eleven segments, the last one under the name of the first. -/
def wrappedNames : Str :=
  "#EXTM3U\na0\na1\na2\na3\na4\na5\na6\na7\na8\na9\na0\n".toList

theorem wrapped_name_lost :
    Corresponds (fun _ => False) ((newStream : SeamlessContentStream Int), noMemory) ∧
    ∀ st', handlePlaylist 0 wrappedNames .broadcast
        ((newStream : SeamlessContentStream Int), noMemory) = .ok st' →
      ¬ Corresponds (ownAfter (fun _ => False) ((newStream : SeamlessContentStream Int), noMemory)) st' := by
  refine ⟨corresponds_newStream.1, fun st' hst hc => ?_⟩
  have hrun : (handlePlaylist 0 wrappedNames .broadcast
      ((newStream : SeamlessContentStream Int), noMemory)).map (fun st =>
        (st.1.segments.find? 10, (st.2.segment 10).uri, st.2.cache.find? "a0".toList)) =
      .ok (some 10, "a0".toList, none) := by decide +kernel
  rw [hst] at hrun
  simp only [Except.map, Except.ok.injEq, Prod.mk.injEq] at hrun
  obtain ⟨hwindow, huri, hcache⟩ := hrun
  obtain ⟨l, r, b, k', hfind, -⟩ := hc.cached 10 10 hwindow
  rw [huri, hcache] at hfind
  exact absurd hfind (by simp)

/-- A stream that keeps two segments, and has them. -/
def twoNames : SeamlessContentStream Int × Memory Int :=
  playlistStep ({ newStream with segmentsToKeep := 2 }, noMemory)
    ⟨0, "#EXTM3U\na.ts\nb.ts\n".toList, .broadcast⟩

theorem corresponds_twoNames : Corresponds (· < 2) twoNames ∧ Allocated twoNames := by
  have hwindow : ∀ k a, twoNames.1.segments.find? k = some a →
      a < 2 ∧ ∃ l r, twoNames.2.cache.find? (twoNames.2.segment a).uri = some (.segment l r a) := by
    intro k a hk
    have hentries : twoNames.1.segments.entries = [⟨0, 0⟩, ⟨1, 1⟩] := by decide +kernel
    have hentry := hentries ▸ OrdMap.find?_eq_some.mp hk
    simp only [List.mem_cons, Sigma.mk.injEq, heq_eq_eq, List.not_mem_nil, or_false] at hentry
    rcases hentry with ⟨rfl, rfl⟩ | ⟨rfl, rfl⟩
    · exact ⟨by omega, "a.ts".toList, 0, by decide +kernel⟩
    · exact ⟨by omega, "b.ts".toList, 0, by decide +kernel⟩
  have hitems : ∀ l l' r b, twoNames.2.cache.find? l = some (.segment l' r b) →
      b < 2 ∧ ∃ k, twoNames.1.segments.find? k = some b ∧ (twoNames.2.segment b).uri = l := by
    intro l l' r b hl
    have hentries : twoNames.2.cache.entries = [⟨"a.ts".toList, .segment "a.ts".toList 0 0⟩,
        ⟨"b.ts".toList, .segment "b.ts".toList 0 1⟩] := by decide +kernel
    have hentry := hentries ▸ OrdMap.find?_eq_some.mp hl
    simp only [List.mem_cons, Sigma.mk.injEq, heq_eq_eq, CacheItem.segment.injEq, List.not_mem_nil,
      or_false] at hentry
    rcases hentry with ⟨rfl, -, -, rfl⟩ | ⟨rfl, -, -, rfl⟩
    · exact ⟨by omega, 0, by decide +kernel⟩
    · exact ⟨by omega, 1, by decide +kernel⟩
  refine ⟨⟨fun k a hk => ?_, fun l l' r b hl _ => ?_⟩, fun k a hk => (hwindow k a hk).1,
    fun l l' r b hl => (hitems l l' r b hl).1⟩
  · obtain ⟨-, l, r, hitem⟩ := (hwindow k a hk)
    exact ⟨l, r, a, k, hitem, hk, rfl⟩
  · obtain ⟨-, k, hk, huri⟩ := hitems l l' r b hl
    exact ⟨k, b, hk, huri⟩

/-- Both segments leave the window for two newer ones. -/
theorem dropped_in_step :
    let laterNames : Str := "#EXTM3U\n#EXT-X-MEDIA-SEQUENCE:1\nb.ts\nc.ts\nd.ts\n".toList
    ∃ st', handlePlaylist 0 laterNames .broadcast twoNames = .ok st' ∧ st'.1.segments.keys = [2, 3] ∧
      Corresponds (ownAfter (· < 2) twoNames) st' ∧
      (∀ l l' r b, st'.2.cache.find? l = some (.segment l' r b) → ownAfter (· < 2) twoNames b →
        ∃ k a, st'.1.segments.find? k = some a ∧ (st'.2.segment a).uri = l) := by
  intro laterNames
  have hparse : HlsMediaPlaylist.parse 0 laterNames =
      .ok ⟨-1, 0, [⟨"b.ts".toList, 1, -1⟩, ⟨"c.ts".toList, 2, -1⟩, ⟨"d.ts".toList, 3, (-1 : Int)⟩]⟩ := by
    decide
  obtain ⟨st', hrun, hstep, hlisted, -⟩ :=
    handlePlaylist_in_step_iff corresponds_twoNames.1 corresponds_twoNames.2 hparse .broadcast
  have hkeys : (handlePlaylist 0 laterNames .broadcast twoNames).map (·.1.segments.keys) =
      .ok [2, 3] := by decide +kernel
  rw [hrun] at hkeys
  exact ⟨st', hrun, Except.ok.inj hkeys, hstep.mpr (by decide +kernel), hlisted⟩

end Example

end SeamlessContentStream

end MbmsMiddleware
