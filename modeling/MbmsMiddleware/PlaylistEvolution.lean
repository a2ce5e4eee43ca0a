import MbmsMiddleware.PlaylistNumbering
import MbmsMiddleware.Sliding
import Mathlib.Data.Int.ConditionallyCompleteOrder
import Mathlib.Order.ConditionallyCompleteLattice.Basic

/-! How one served playlist follows another: which calls only take segments
off the front and put new ones at the end. -/

namespace MbmsMiddleware

namespace SeamlessContentStream

variable {D : Type}

/-- A live playlist may only lose segments at its front and gain newer ones at
its end, and its media sequence number may not decrease. -/
structure LegalSuccessor (old new : List (HlsMediaPlaylist.Segment D)) : Prop where
  slides : ∃ d suffix, new = old.drop d ++ suffix ∧ ∀ x ∈ old, ∀ y ∈ suffix, x.seq < y.seq
  mediaSequence : ∀ x ∈ old.head?, ∀ y ∈ new.head?, x.seq ≤ y.seq

/-- The same of two texts: what the old one lists stands in the new one but for
its front, with more behind it, and its number does not decrease. -/
structure SuccessorText (old new : Str) : Prop where
  slides : ∃ d, (PlaylistText.entries none (Text.getlines old)).drop d <+:
    PlaylistText.entries none (Text.getlines new)
  mediaSequence : ∀ n ∈ PlaylistText.mediaSequence old, ∀ n' ∈ PlaylistText.mediaSequence new, n ≤ n'

/-- The playlists that one source delivers over time. -/
structure LegalHistory (playlists : List (List (HlsMediaPlaylist.Segment D))) : Prop where
  consecutive : ∀ pl ∈ playlists, (pl.map (·.seq)).IsChain (fun a b => b = a + 1)
  successive : playlists.IsChain LegalSuccessor
  mediaSequence : playlists.Pairwise fun old new =>
    ∀ x ∈ old.head?, ∀ y ∈ new.head?, x.seq ≤ y.seq

/-- A listed segment that the window does not have, that belongs below one it
has, and that is new enough to stay. -/
def LateSurvivor (K : Nat) (keys : Finset Int) (xs : List (HlsMediaPlaylist.Segment D)) : Prop :=
  ∃ x ∈ xs, x.seq ∉ keys ∧ (∃ k ∈ keys, x.seq < k) ∧ x.seq ∈ largest K (keys ∪ numbers xs)

theorem legalHistory_singleton (pl : List (HlsMediaPlaylist.Segment D))
    (h : (pl.map (·.seq)).IsChain (fun a b => b = a + 1)) : LegalHistory [pl] :=
  ⟨by simpa using h, by simp, by simp⟩

theorem drop_filterMap {α β : Type*} {f : α → Option β} {l : List α}
    (h : ∀ a ∈ l, (f a).isSome) (d : Nat) : (l.filterMap f).drop d = (l.drop d).filterMap f := by
  induction l generalizing d with
  | nil => simp
  | cons a l ih =>
    obtain ⟨b, hb⟩ := Option.isSome_iff_exists.mp (h a (by simp))
    cases d with
    | zero => rfl
    | succ d =>
      rw [List.filterMap_cons_some hb, List.drop_succ_cons, List.drop_succ_cons,
        ih (fun a' ha' => h a' (by simp [ha']))]

theorem map_seq_windowOf (K : Nat) (dir : Str) (hist : List (HlsMediaPlaylist.Segment D)) :
    (windowOf K dir hist).map (·.seq) = (largest K (numbers hist)).sort := by
  have hsome : ∀ k ∈ (largest K (numbers hist)).sort, (describe dir hist k).isSome :=
    fun k hk => describe_isSome (largest_subset _ _ ((Finset.mem_sort _).mp hk))
  rw [windowOf]
  generalize (largest K (numbers hist)).sort = keys at hsome ⊢
  induction keys with
  | nil => rfl
  | cons k keys ih =>
    obtain ⟨x, hx⟩ := Option.isSome_iff_exists.mp (hsome k (by simp))
    rw [List.filterMap_cons_some hx, List.map_cons, describe_seq hx,
      ih (fun k' hk' => hsome k' (by simp [hk']))]

/-- The windows slide exactly when their numbers do. -/
theorem windowOf_slides_iff (K : Nat) (dir : Str) (hist xs : List (HlsMediaPlaylist.Segment D)) :
    (∃ d suffix, windowOf K dir (hist ++ xs) = (windowOf K dir hist).drop d ++ suffix ∧
      ∀ x ∈ windowOf K dir hist, ∀ y ∈ suffix, x.seq < y.seq) ↔
    Slides (largest K (numbers hist)).sort (largest K (numbers (hist ++ xs))).sort := by
  rw [← map_seq_windowOf K dir hist, ← map_seq_windowOf K dir (hist ++ xs)]
  constructor
  · rintro ⟨d, suffix, he, hs⟩
    refine ⟨d, suffix.map (·.seq), by rw [he, List.map_append, List.map_drop], ?_⟩
    intro a ha b hb
    obtain ⟨x, hx, rfl⟩ := List.mem_map.mp ha
    obtain ⟨y, hy, rfl⟩ := List.mem_map.mp hb
    exact hs x hx y hy
  · rintro ⟨d, suffix, he, hs⟩
    rw [map_seq_windowOf, map_seq_windowOf] at he
    have hold : ∀ k ∈ (largest K (numbers hist)).sort, k ∈ numbers hist :=
      fun k hk => largest_subset _ _ ((Finset.mem_sort _).mp hk)
    refine ⟨d, suffix.filterMap (describe dir (hist ++ xs)), ?_, fun x hx y hy => ?_⟩
    · rw [windowOf, windowOf, he, List.filterMap_append, drop_filterMap (fun k hk => describe_isSome (hold k hk))]
      congr 1
      exact List.filterMap_congr
        (fun k hk => describe_append (hold k (List.mem_of_mem_drop hk)) xs)
    · obtain ⟨k, hk, hy⟩ := List.mem_filterMap.mp hy
      rw [describe_seq hy]
      exact hs x.seq (List.mem_map.mpr ⟨x, hx, rfl⟩) k hk

theorem slides_iff_not_lateSurvivor (K : Nat) (hist xs : List (HlsMediaPlaylist.Segment D)) :
    Slides (largest K (numbers hist)).sort (largest K (numbers (hist ++ xs))).sort ↔
      ¬ LateSurvivor K (largest K (numbers hist)) xs := by
  have hnew : largest K (largest K (numbers hist) ∪ numbers xs) =
      largest K (numbers (hist ++ xs)) := by
    rw [largest_largest_union, numbers_append]
  have hsub : numbers hist ⊆ numbers (hist ++ xs) := by
    rw [numbers_append]
    exact Finset.subset_union_left
  rw [slides_iff (Finset.sortedLT_sort _).pairwise (Finset.sortedLT_sort _).pairwise]
  · simp only [Finset.mem_sort, LateSurvivor, hnew]
    constructor
    · rintro h ⟨x, -, hnk, ⟨k, hk, hlt⟩, hx⟩
      exact absurd hlt (h x.seq hx hnk k hk).asymm
    · intro h y hy hny k hk
      by_contra hle
      have hne : y ≠ k := fun he => hny (he ▸ hk)
      have hyx : y ∈ numbers xs := by
        have hm := largest_subset _ _ hy
        rw [numbers_append, Finset.mem_union] at hm
        exact hm.resolve_left (fun hm => hny (mem_largest_of_subset hsub hm hy))
      obtain ⟨x, hx, rfl⟩ := mem_numbers.mp hyx
      exact h ⟨x, hx, hny, ⟨k, hk, by omega⟩, hy⟩
  · simp only [Finset.mem_sort]
    intro a ha han b hb hab
    exact mem_largest_of_lt han (hsub (largest_subset _ _ hb)) hab

theorem legalSuccessor_iff_slides (K : Nat) (dir : Str)
    (hist xs : List (HlsMediaPlaylist.Segment D)) :
    LegalSuccessor (windowOf K dir hist) (windowOf K dir (hist ++ xs)) ↔
      Slides (largest K (numbers hist)).sort (largest K (numbers (hist ++ xs))).sort := by
  rw [← windowOf_slides_iff K dir]
  refine ⟨fun h => h.slides, fun h => ⟨h, fun x hx y hy => ?_⟩⟩
  obtain ⟨d, suffix, he, hs⟩ := h
  have hsorted : ((windowOf K dir hist).map (·.seq)).Pairwise (· < ·) := by
    rw [map_seq_windowOf]
    exact (Finset.sortedLT_sort _).pairwise
  have hxm : x ∈ windowOf K dir hist := List.mem_of_mem_head? hx
  have hym := List.mem_of_mem_head? hy
  rw [he] at hym
  rcases List.mem_append.mp hym with hym | hym
  · obtain ⟨l, hl⟩ := List.head?_eq_some_iff.mp hx
    have hym' := List.mem_of_mem_drop hym
    rw [hl] at hsorted hym'
    rcases List.mem_cons.mp hym' with rfl | hm
    · exact le_rfl
    · exact ((List.pairwise_cons.mp hsorted).1 y.seq (List.mem_map.mpr ⟨y, hm, rfl⟩)).le
  · exact (hs x hxm y hym).le

theorem head_le_of_isChain {l : List Int} (h : l.IsChain (fun a b => b = a + 1)) {f k : Int}
    (hf : f ∈ l.head?) (hk : k ∈ l) : f ≤ k := by
  induction l generalizing f with
  | nil => cases hk
  | cons a l ih =>
    cases hf
    obtain ⟨hnext, hl⟩ := List.isChain_cons.mp h
    rcases List.mem_cons.mp hk with rfl | hk
    · exact le_rfl
    · cases l with
      | nil => cases hk
      | cons b l =>
        have := hnext b rfl
        have := ih hl rfl hk
        omega

theorem mem_of_isChain {l : List Int} (h : l.IsChain (fun a b => b = a + 1)) {f k n : Int}
    (hf : f ∈ l.head?) (hk : k ∈ l) (hfn : f ≤ n) (hnk : n ≤ k) : n ∈ l := by
  induction l generalizing f with
  | nil => cases hk
  | cons a l ih =>
    cases hf
    obtain ⟨hnext, hl⟩ := List.isChain_cons.mp h
    rcases hfn.eq_or_lt with rfl | hlt
    · exact List.mem_cons_self
    · refine List.mem_cons_of_mem a ?_
      have hkl : k ∈ l := (List.mem_cons.mp hk).resolve_left (by omega)
      cases l with
      | nil => cases hkl
      | cons b l =>
        have := hnext b rfl
        exact ih hl rfl hkl (by omega)

theorem reached_head? (truncate : Int) (source : ItemSource)
    (segments : List (HlsMediaPlaylist.Segment D)) :
    (reached truncate source segments).head? = segments.head? := by
  cases segments <;> rfl

variable [DoubleText D]

/-- The segments that a playlist lists; none where it does not parse. -/
def listed (D : Type) [DoubleText D] (call : PlaylistCall) : List (HlsMediaPlaylist.Segment D) :=
  match HlsMediaPlaylist.parse call.indeterminate call.content with
  | .ok pl => pl.segments
  | .error _ => []

def playlistsFrom (D : Type) [DoubleText D] (source : ItemSource) (calls : List PlaylistCall) :
    List (List (HlsMediaPlaylist.Segment D)) :=
  (calls.filter (·.source = source)).map (listed D)

def StartsNoLater (D : Type) [DoubleText D] (c call : PlaylistCall) : Prop :=
  ∀ x ∈ (listed D c).head?, ∀ y ∈ (listed D call).head?, x.seq ≤ y.seq

instance (c call : PlaylistCall) : Decidable (StartsNoLater D c call) :=
  inferInstanceAs (Decidable (∀ x ∈ (listed D c).head?, ∀ y ∈ (listed D call).head?, x.seq ≤ y.seq))

theorem callSegments_eq (truncate : Int) (call : PlaylistCall) :
    callSegments D truncate call = reached truncate call.source (listed D call) := by
  unfold callSegments listed
  cases (HlsMediaPlaylist.parse call.indeterminate call.content :
      Except Fault (HlsMediaPlaylist D)) <;> rfl

theorem callSegments_isChain (truncate : Int) {call : PlaylistCall}
    (h : ((listed D call).map (·.seq)).IsChain (fun a b => b = a + 1)) :
    ((callSegments D truncate call).map (·.seq)).IsChain (fun a b => b = a + 1) := by
  rw [callSegments_eq]
  exact h.prefix ((prefix_of_reached _ _ _).map _)

/-- A call that starts no earlier than the ones before it brings nothing late. -/
theorem not_lateSurvivor_of_startsNoLater {K : Nat} {truncate : Int} {calls : List PlaylistCall}
    {call : PlaylistCall}
    (hcons : ∀ c ∈ calls ++ [call], ((listed D c).map (·.seq)).IsChain (fun a b => b = a + 1))
    (hstart : ∀ c ∈ calls, StartsNoLater D c call) :
    ¬ LateSurvivor K (largest K (numbers (accepted D truncate calls)))
      (callSegments D truncate call) := by
  rintro ⟨y, hy, hny, ⟨k, hk, hlt⟩, hl⟩
  rw [largest_largest_union] at hl
  have hnot : y.seq ∉ numbers (accepted D truncate calls) := fun hm =>
    hny (mem_largest_of_subset Finset.subset_union_left hm hl)
  obtain ⟨x, hx, rfl⟩ := mem_numbers.mp (largest_subset _ _ hk)
  obtain ⟨c, hc, hxc⟩ := mem_accepted.mp hx
  have hchain := callSegments_isChain truncate (hcons c (by simp [hc]))
  have hchain' := callSegments_isChain truncate (hcons call (by simp))
  obtain ⟨x₀, xs, hxs⟩ := List.exists_cons_of_ne_nil (List.ne_nil_of_mem hxc)
  obtain ⟨y₀, ys, hys⟩ := List.exists_cons_of_ne_nil (List.ne_nil_of_mem hy)
  have hx₀ : x₀.seq ≤ y₀.seq := by
    refine hstart c hc x₀ ?_ y₀ ?_
    · rw [← reached_head? truncate c.source, ← callSegments_eq, hxs]
      rfl
    · rw [← reached_head? truncate call.source, ← callSegments_eq, hys]
      rfl
  have hy₀ : y₀.seq ≤ y.seq := by
    refine head_le_of_isChain hchain' ?_ (List.mem_map.mpr ⟨y, hy, rfl⟩)
    rw [hys]
    rfl
  have hmem : y.seq ∈ (callSegments D truncate c).map (·.seq) := by
    refine mem_of_isChain hchain (f := x₀.seq) ?_ (List.mem_map.mpr ⟨x, hxc, rfl⟩)
      (hx₀.trans hy₀) hlt.le
    rw [hxs]
    rfl
  obtain ⟨z, hz, hzy⟩ := List.mem_map.mp hmem
  exact hnot (mem_numbers.mpr ⟨z, mem_accepted.mpr ⟨c, hc, hz⟩, hzy⟩)

theorem LegalHistory.startsNoLater {calls : List PlaylistCall} {call : PlaylistCall}
    (h : LegalHistory (playlistsFrom D call.source (calls ++ [call]))) :
    ∀ c ∈ calls, c.source = call.source → StartsNoLater D c call := by
  intro c hc hsrc
  have hp := h.mediaSequence
  rw [playlistsFrom, List.filter_append, List.map_append] at hp
  refine (List.pairwise_append.mp hp).2.2 (listed D c) ?_ (listed D call) ?_
  · exact List.mem_map.mpr ⟨c, List.mem_filter.mpr ⟨hc, by simpa using hsrc⟩, rfl⟩
  · simp

theorem LegalHistory.isChain {calls : List PlaylistCall}
    (h : ∀ source, LegalHistory (playlistsFrom D source calls)) :
    ∀ c ∈ calls, ((listed D c).map (·.seq)).IsChain (fun a b => b = a + 1) := by
  intro c hc
  refine (h c.source).consecutive (listed D c) ?_
  exact List.mem_map.mpr ⟨c, List.mem_filter.mpr ⟨hc, by simp⟩, rfl⟩

theorem LegalSuccessor.text {old new : List (HlsMediaPlaylist.Segment D)} {text text' : Str}
    (h : LegalSuccessor old new) (hold : PlaylistText.Lists text old)
    (hnew : PlaylistText.Lists text' new) : SuccessorText text text' := by
  obtain ⟨d, suffix, he, -⟩ := h.slides
  constructor
  · refine ⟨d, ?_⟩
    rw [hold.entries, hnew.entries, he, List.map_append, List.map_drop]
    exact List.prefix_append _ _
  · intro n hn n' hn'
    rw [hold.mediaSequence] at hn
    rw [hnew.mediaSequence] at hn'
    obtain ⟨x, hx, rfl⟩ := Option.map_eq_some_iff.mp hn
    obtain ⟨y, hy, rfl⟩ := Option.map_eq_some_iff.mp hn'
    exact h.mediaSequence x hx y hy

/-- The broadcast starts at 10, the CDN lists older segments. -/
def broadcastStart : PlaylistCall where
  indeterminate := 0
  content := "#EXTM3U\n#EXT-X-MEDIA-SEQUENCE:10\ns10\ns11\ns12\n".toList
  source := .broadcast

def cdnStart : PlaylistCall where
  indeterminate := 0
  content :=
    "#EXTM3U\n#EXT-X-MEDIA-SEQUENCE:5\ns5\ns6\ns7\ns8\ns9\ns10\ns11\ns12\n".toList
  source := .cdn

/-- Both sources have delivered a playlist, and the broadcast goes on. -/
def broadcastNext : PlaylistCall where
  indeterminate := 0
  content := "#EXTM3U\n#EXT-X-MEDIA-SEQUENCE:11\ns11\ns12\ns13\n".toList
  source := .broadcast

end SeamlessContentStream

end MbmsMiddleware
