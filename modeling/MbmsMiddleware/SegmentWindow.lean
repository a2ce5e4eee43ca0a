import MbmsMiddleware.SeamlessContentStream
import MbmsMiddleware.Largest

/-! One call of `handlePlaylist`: which listed segments its loop reaches, what
inserting them does to the window, and what is dropped at the end. -/

namespace MbmsMiddleware

namespace SeamlessContentStream

variable {D : Type}

/-- The listed segments that the insertion loop comes to. -/
def reachedFrom (count : Nat) : Nat → List (HlsMediaPlaylist.Segment D) →
    List (HlsMediaPlaylist.Segment D)
  | _, [] => []
  | idx, segment :: rest =>
    segment :: if idx > count then [] else reachedFrom count (idx + 1) rest

def reached (truncate : Int) (source : ItemSource) (segments : List (HlsMediaPlaylist.Segment D)) :
    List (HlsMediaPlaylist.Segment D) :=
  reachedFrom (insertCount truncate source segments.length) 0 segments

theorem prefix_of_reachedFrom (count idx : Nat) (segments : List (HlsMediaPlaylist.Segment D)) :
    reachedFrom count idx segments <+: segments := by
  induction segments generalizing idx with
  | nil => exact List.prefix_rfl
  | cons segment rest ih =>
    rw [reachedFrom]
    refine List.cons_prefix_cons.mpr ⟨rfl, ?_⟩
    split_ifs
    · exact List.nil_prefix
    · exact ih (idx + 1)

theorem prefix_of_reached (truncate : Int) (source : ItemSource)
    (segments : List (HlsMediaPlaylist.Segment D)) : reached truncate source segments <+: segments :=
  prefix_of_reachedFrom _ 0 segments

theorem insertLoop_eq_foldl (count idx : Nat) (segments : List (HlsMediaPlaylist.Segment D))
    (st : SeamlessContentStream D × Memory D) :
    insertLoop count idx segments st = (reachedFrom count idx segments).foldl insertSegment st := by
  induction segments generalizing idx st with
  | nil => rfl
  | cons segment rest ih =>
    simp only [insertLoop, reachedFrom, List.foldl_cons]
    split_ifs
    · rfl
    · exact ih (idx + 1) (insertSegment st segment)

/-- The object created for a listed segment. -/
def newSegment (s : SeamlessContentStream D) (segment : HlsMediaPlaylist.Segment D) : Segment D where
  contentLocation := s.playlistDir ++ segment.uri
  seq := segment.seq
  extinf := segment.extinf
  cdnClient := s.cdnClient
  fluteFile := s.fluteFiles.find? (s.playlistDir ++ segment.uri)
  contentReceivedAt := (s.fluteFiles.find? (s.playlistDir ++ segment.uri)).elim 0 (·.receivedAt)

theorem insertSegment_known {s : SeamlessContentStream D} {m : Memory D}
    {segment : HlsMediaPlaylist.Segment D} {address : Nat}
    (h : s.segments.find? segment.seq = some address) : insertSegment (s, m) segment = (s, m) := by
  simp [insertSegment, h]

theorem insertSegment_new {s : SeamlessContentStream D} {m : Memory D}
    {segment : HlsMediaPlaylist.Segment D} (h : s.segments.find? segment.seq = none) :
    insertSegment (s, m) segment =
      ({ s with
          segments := s.segments.set segment.seq m.nextSegment
          fluteFiles := s.fluteFiles.erase (s.playlistDir ++ segment.uri) },
       { segment := Function.update m.segment m.nextSegment (newSegment s segment)
         nextSegment := m.nextSegment + 1
         cache := m.cache.addItem (.segment (s.playlistDir ++ segment.uri) 0 m.nextSegment) }) := by
  have herase : s.fluteFiles.find? (s.playlistDir ++ segment.uri) = none →
      s.fluteFiles.erase (s.playlistDir ++ segment.uri) = s.fluteFiles := by
    intro hn
    refine OrdMap.find?_ext (fun l => ?_)
    rw [OrdMap.find?_erase]
    split_ifs with hl
    · rw [hl, hn]
    · rfl
  cases hf : s.fluteFiles.find? (s.playlistDir ++ segment.uri) with
  | none =>
    rw [herase hf]
    cases hc : s.cdnClient <;>
      simp [insertSegment, newSegment, h, hf, hc, Segment.setCdnClient]
  | some file =>
    cases hc : s.cdnClient <;>
      simp [insertSegment, newSegment, h, hf, hc, Segment.setCdnClient, Segment.setFluteFile]

/-- Everything but the window and the waiting files stays as it is. -/
theorem insertSegment_frame (s : SeamlessContentStream D) (m : Memory D)
    (segment : HlsMediaPlaylist.Segment D) :
    (insertSegment (s, m) segment).1 = { s with
      segments := (insertSegment (s, m) segment).1.segments
      fluteFiles := (insertSegment (s, m) segment).1.fluteFiles } := by
  cases h : s.segments.find? segment.seq with
  | none => rw [insertSegment_new h]
  | some address => rw [insertSegment_known h]

theorem foldl_insertSegment_frame (xs : List (HlsMediaPlaylist.Segment D))
    (st : SeamlessContentStream D × Memory D) :
    (xs.foldl insertSegment st).1 = { st.1 with
      segments := (xs.foldl insertSegment st).1.segments
      fluteFiles := (xs.foldl insertSegment st).1.fluteFiles } := by
  induction xs generalizing st with
  | nil => rfl
  | cons x xs ih =>
    rw [List.foldl_cons, ih (insertSegment st x), insertSegment_frame st.1 st.2 x]

theorem keepCount_foldl_insertSegment (xs : List (HlsMediaPlaylist.Segment D))
    (st : SeamlessContentStream D × Memory D) :
    (xs.foldl insertSegment st).1.keepCount = st.1.keepCount := by
  rw [foldl_insertSegment_frame]
  rfl

/-- What inserting listed segments does to the window and to the objects. -/
structure Inserted (xs : List (HlsMediaPlaylist.Segment D))
    (st st' : SeamlessContentStream D × Memory D) : Prop where
  next_le : st.2.nextSegment ≤ st'.2.nextSegment
  objects : ∀ a < st.2.nextSegment, st'.2.segment a = st.2.segment a
  kept : ∀ k a, st.1.segments.find? k = some a → st'.1.segments.find? k = some a
  absent : ∀ k, st.1.segments.find? k = none → xs.find? (·.seq = k) = none →
    st'.1.segments.find? k = none
  created : ∀ k x, st.1.segments.find? k = none → xs.find? (·.seq = k) = some x →
    ∃ a, st'.1.segments.find? k = some a ∧ st.2.nextSegment ≤ a ∧ a < st'.2.nextSegment ∧
      (st'.2.segment a).uri = st.1.playlistDir ++ x.uri ∧ (st'.2.segment a).seq = k ∧
      (st'.2.segment a).extinf = x.extinf

theorem foldl_insertSegment (xs : List (HlsMediaPlaylist.Segment D))
    (st : SeamlessContentStream D × Memory D) : Inserted xs st (xs.foldl insertSegment st) := by
  induction xs generalizing st with
  | nil => exact ⟨le_rfl, fun _ _ => rfl, fun _ _ h => h, fun _ h _ => h, by simp⟩
  | cons x xs ih =>
    obtain ⟨s, m⟩ := st
    rw [List.foldl_cons]
    cases hx : s.segments.find? x.seq with
    | some a₀ =>
      have hh := ih (s, m)
      rw [insertSegment_known hx]
      refine ⟨hh.next_le, hh.objects, hh.kept, fun k hk hf => ?_, fun k y hk hf => ?_⟩
      all_goals
        have hne : x.seq ≠ k := by
          rintro rfl
          simp [hx] at hk
        rw [List.find?_cons_of_neg (by simpa using hne)] at hf
      · exact hh.absent k hk hf
      · exact hh.created k y hk hf
    | none =>
      have hh := ih (insertSegment (s, m) x)
      rw [insertSegment_new hx] at hh ⊢
      generalize hst : xs.foldl insertSegment _ = st' at hh ⊢
      obtain ⟨hnext, hobjects, hkept, habsent, hcreated⟩ := hh
      dsimp only at hnext hobjects hkept habsent hcreated
      have hlt : m.nextSegment < st'.2.nextSegment := hnext
      refine ⟨hlt.le, fun a ha => ?_, fun k a hk => ?_, fun k hk hf => ?_, fun k y hk hf => ?_⟩
      · have ha' : a < m.nextSegment := ha
        rw [hobjects a (by omega), Function.update_of_ne (by omega)]
      · have hne : k ≠ x.seq := by
          rintro rfl
          simp [hx] at hk
        exact hkept k a (by rwa [OrdMap.find?_set_of_ne _ _ hne])
      · have hne : x.seq ≠ k := by
          rintro rfl
          simp at hf
        rw [List.find?_cons_of_neg (by simpa using hne)] at hf
        exact habsent k (by rwa [OrdMap.find?_set_of_ne _ _ hne.symm]) hf
      · by_cases hne : x.seq = k
        · subst hne
          rw [List.find?_cons_of_pos (by simp)] at hf
          cases hf
          refine ⟨m.nextSegment, hkept _ _ (OrdMap.find?_set_self _ _ _), le_rfl, hlt, ?_⟩
          rw [hobjects m.nextSegment (by omega), Function.update_self]
          exact ⟨rfl, rfl, rfl⟩
        · rw [List.find?_cons_of_neg (by simpa using hne)] at hf
          obtain ⟨a, h1, h2, h3, h4⟩ := hcreated k y
            (by rwa [OrdMap.find?_set_of_ne _ _ (Ne.symm hne)]) hf
          exact ⟨a, h1, (Nat.le_succ _).trans h2, h3, h4⟩

theorem Inserted.mem_keys {xs : List (HlsMediaPlaylist.Segment D)}
    {st st' : SeamlessContentStream D × Memory D} (h : Inserted xs st st') (k : Int) :
    k ∈ st'.1.segments.keys ↔ k ∈ st.1.segments.keys ∨ ∃ x ∈ xs, x.seq = k := by
  rw [← OrdMap.find?_isSome, ← OrdMap.find?_isSome]
  cases hk : st.1.segments.find? k with
  | some a => simp [h.kept k a hk]
  | none =>
    cases hf : xs.find? (·.seq = k) with
    | none =>
      rw [h.absent k hk hf]
      simpa using hf
    | some x =>
      obtain ⟨a, ha, -⟩ := h.created k x hk hf
      have hx := List.find?_some hf
      simp only [decide_eq_true_eq] at hx
      simp only [ha, Option.isSome_some, Option.isSome_none, Bool.false_eq_true, false_or, true_iff]
      exact ⟨x, List.mem_of_find?_eq_some hf, hx⟩

def removeItems (segment : Nat → Segment D) (cache : Cache) (es : List ((_ : Int) × Nat)) : Cache :=
  es.foldl (fun c e => Cache.removeItem c (segment e.2).uri) cache

theorem find?_removeItems (segment : Nat → Segment D) (cache : Cache) (es : List ((_ : Int) × Nat))
    (l : Str) : (removeItems segment cache es).find? l =
      if l ∈ es.map (fun e => (segment e.2).uri) then none else cache.find? l := by
  induction es generalizing cache with
  | nil => simp [removeItems]
  | cons e es ih =>
    have hh := ih (cache.removeItem (segment e.2).uri)
    rw [removeItems, List.foldl_cons, ← removeItems, hh, Cache.removeItem, OrdMap.find?_erase]
    rw [List.map_cons]
    by_cases hl : l = (segment e.2).uri
    · simp [hl]
    · simp only [List.mem_cons, hl, false_or, if_false]

/-- Dropping the `n` oldest segments together with their cache items. -/
def dropped (n : Nat) (st : SeamlessContentStream D × Memory D) :
    SeamlessContentStream D × Memory D :=
  ({ st.1 with segments := st.1.segments.dropFront n },
   { st.2 with
     cache := removeItems st.2.segment st.2.cache (st.1.segments.entries.take n) })

theorem dropped_succ {st : SeamlessContentStream D × Memory D} (h : 0 < st.1.segments.size) (n : Nat) :
    dropped n (dropOldest st) = dropped (n + 1) st := by
  obtain ⟨s, m⟩ := st
  cases he : s.segments.entries with
  | nil => simp [OrdMap.size, he] at h
  | cons e es =>
    simp only [dropOldest, he, dropped, OrdMap.dropFront_dropFront, Nat.add_comm 1 n]
    simp [OrdMap.dropFront, he, removeItems]

theorem dropLoop_eq (fuel : Nat) (st : SeamlessContentStream D × Memory D) :
    dropLoop fuel st = dropped (min fuel (st.1.segments.size - st.1.keepCount)) st := by
  induction fuel generalizing st with
  | zero => simp [dropLoop, dropped, removeItems]
  | succ fuel ih =>
    rw [dropLoop]
    split_ifs with hgt
    · have hk : (dropOldest st).1.keepCount = st.1.keepCount := by
        obtain ⟨s, m⟩ := st
        simp only [dropOldest]
        split <;> rfl
      have hs : (dropOldest st).1.segments.size = st.1.segments.size - 1 := by
        obtain ⟨s, m⟩ := st
        simp only [dropOldest]
        split
        · rename_i he
          simp [OrdMap.size, he]
        · exact OrdMap.size_dropFront _ _
      rw [ih, hk, hs, dropped_succ (by omega)]
      congr 1
      omega
    · have hz : st.1.segments.size - st.1.keepCount = 0 := by omega
      rw [hz, Nat.min_zero]
      simp [dropped, removeItems]

/-- The window after a parsed playlist. -/
def accept (pl : HlsMediaPlaylist D) (source : ItemSource)
    (st : SeamlessContentStream D × Memory D) : SeamlessContentStream D × Memory D :=
  let inserted :=
    (reached st.1.truncateCdnPlaylistSegments source pl.segments).foldl insertSegment st
  dropped (inserted.1.segments.size - st.1.keepCount) inserted

theorem accept_frame (pl : HlsMediaPlaylist D) (source : ItemSource)
    (st : SeamlessContentStream D × Memory D) :
    (accept pl source st).1 = { st.1 with
      segments := (accept pl source st).1.segments
      fluteFiles := (accept pl source st).1.fluteFiles } := by
  have hh := foldl_insertSegment_frame
    (reached st.1.truncateCdnPlaylistSegments source pl.segments) st
  simp only [accept, dropped]
  rw [hh]

variable [DoubleText D]

/-- A call either parses and updates the window, or throws and changes nothing. -/
theorem handlePlaylist_eq (indeterminate : Int) (content : Str) (source : ItemSource)
    (st : SeamlessContentStream D × Memory D) :
    handlePlaylist indeterminate content source st =
      (HlsMediaPlaylist.parse indeterminate content).map fun pl =>
        let (s, m) := accept pl source st
        ({ s with playlist := (windowPlaylist s m pl.targetduration).toString }, m) := by
  cases hp : (HlsMediaPlaylist.parse indeterminate content : Except Fault (HlsMediaPlaylist D)) with
  | error e => simp [handlePlaylist, hp, bind, Except.bind, Except.map]
  | ok pl =>
    simp only [handlePlaylist, hp, bind, Except.bind, Except.map, pure, Except.pure, dropLoop_eq,
      min_eq_right (Nat.sub_le _ _), accept, insertLoop_eq_foldl, reached]
    rw [keepCount_foldl_insertSegment]

end SeamlessContentStream

end MbmsMiddleware
