import MbmsMiddleware.SegmentLifetimes
import MbmsMiddleware.SystemStreams
import Mathlib.Algebra.Order.BigOperators.Group.Finset

/-! The segments in the item map. Each is listed under its own URI and is in one
window under one number, so there are no more than the windows can hold. -/

namespace MbmsMiddleware

/-- `_segments_to_keep` of every seamless stream, as it is compared. -/
def Config.keepCount (cfg : Config) : Nat := ((cfg.maxSegmentsPerStream.getD 10) % 2 ^ 64).toNat

variable {D : Type}

namespace World

def listedSegments (w : World D) : List Nat :=
  w.memory.cache.entries.filterMap fun e => e.2.segment?

/-- How the segments of the item map are held. -/
structure ListsWindows (keep : Nat) (w : World D) : Prop where
  owned : ∀ l l' r x, w.memory.cache.find? l = some (.segment l' r x) →
    l' = l ∧ (w.memory.segment x).uri = l ∧ ∃! owner : Nat × Int, w.Holds owner.1 owner.2 x
  nodup : w.listedSegments.Nodup
  bounded : w.listedSegments.length ≤ w.nextStream * keep

variable {w : World D}

theorem mem_listedSegments {x : Nat} : x ∈ w.listedSegments ↔
    ∃ l l' r, w.memory.cache.find? l = some (.segment l' r x) :=
  List.mem_filterMap.trans Cache.shares_iff

/-- Segments are listed under their URIs, so no two entries share one. -/
theorem Separate.nodup_listedSegments (h : w.Separate) : w.listedSegments.Nodup := by
  unfold listedSegments
  refine List.pairwise_filterMap.mpr (w.memory.cache.sorted.imp_of_mem ?_)
  rintro ⟨l, item⟩ ⟨l', item'⟩ he he' hlt x hx x' hx' rfl
  obtain ⟨_, r, rfl⟩ := CacheItem.eq_segment hx
  obtain ⟨_, r', rfl⟩ := CacheItem.eq_segment hx'
  obtain ⟨-, huri, -⟩ := h.listed l _ r x (OrdMap.find?_eq_some.mpr he)
  obtain ⟨-, huri', -⟩ := h.listed l' _ r' x (OrdMap.find?_eq_some.mpr he')
  exact hlt.ne (huri.symm.trans huri')

theorem listsWindows_of_size {keep : Nat} (h : w.Separate)
    (hsize : ∀ a < w.nextStream, (w.segmentsAt a).size ≤ keep) : w.ListsWindows keep := by
  have howner : ∀ l l' r x, w.memory.cache.find? l = some (.segment l' r x) →
      ∃! owner : Nat × Int, w.Holds owner.1 owner.2 x := by
    intro l l' r x hl
    obtain ⟨-, -, a, k, hheld⟩ := h.listed l l' r x hl
    refine ⟨(a, k), hheld, fun owner howner => ?_⟩
    obtain ⟨ha, hk⟩ := h.own owner.1 owner.2 a k x howner hheld
    exact Prod.ext ha hk
  refine ⟨fun l l' r x hl => ?_, h.nodup_listedSegments, ?_⟩
  · obtain ⟨hll, huri, -⟩ := h.listed l l' r x hl
    exact ⟨hll, huri, howner l l' r x hl⟩
  · let windows := (Finset.range w.nextStream).biUnion fun a =>
      ((w.segmentsAt a).entries.map (·.2)).toFinset
    have hsub : w.listedSegments.toFinset ⊆ windows := by
      intro x hx
      obtain ⟨l, l', r, hl⟩ := mem_listedSegments.mp (List.mem_toFinset.mp hx)
      obtain ⟨-, -, a, k, hheld⟩ := h.listed l l' r x hl
      refine Finset.mem_biUnion.mpr ⟨a, Finset.mem_range.mpr hheld.1, ?_⟩
      rw [List.mem_toFinset]
      exact List.mem_map.mpr ⟨⟨k, x⟩, OrdMap.find?_eq_some.mp hheld.2, rfl⟩
    calc w.listedSegments.length
        = w.listedSegments.toFinset.card := (List.toFinset_card_of_nodup h.nodup_listedSegments).symm
      _ ≤ windows.card := Finset.card_le_card hsub
      _ ≤ (Finset.range w.nextStream).card * keep := by
        refine Finset.card_biUnion_le_card_mul _ _ _ fun a ha => ?_
        refine (List.toFinset_card_le _).trans ?_
        rw [List.length_map]
        exact hsize a (Finset.mem_range.mp ha)
      _ = w.nextStream * keep := by rw [Finset.card_range]

end World

namespace System

variable [DoubleText D] (env : SystemEnvironment D) (cfg : SystemConfig)

theorem window_size (es : List (SystemEvent D)) {a : Nat}
    (ha : a < (es.foldl (step env cfg) (start env cfg)).world.nextStream) :
    ((es.foldl (step env cfg) (start env cfg)).world.segmentsAt a).size ≤ cfg.toConfig.keepCount := by
  have hshows := shows_run env cfg a es
  generalize (es.foldl (step env cfg) (start env cfg)).world = w at ha hshows
  cases hs : w.stream a with
  | basic s =>
    unfold World.segmentsAt
    rw [hs]
    exact Nat.zero_le _
  | seamless s =>
    rw [World.viewAt_of_stream ⟨ha, hs⟩] at hshows
    obtain ⟨hkeep, hwindow⟩ := hshows
    have hsize := hwindow.window.size_le
    unfold PlainStream.window PlainStream.keepCount at hsize
    rw [OrdMap.size_map, hkeep] at hsize
    rw [World.segmentsAt_of_stream hs]
    exact (OrdMap.size_map _ _).symm.trans_le hsize

/-- However long the middleware runs, and whatever streams have been given up, the
item map has no more segments than all windows together can hold. -/
theorem segments_bounded (es : List (SystemEvent D)) :
    (es.foldl (step env cfg) (start env cfg)).world.ListsWindows cfg.toConfig.keepCount :=
  World.listsWindows_of_size (sound_run es).world.separate fun _ ha => window_size env cfg es ha

end System

end MbmsMiddleware
