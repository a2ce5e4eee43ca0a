import MbmsMiddleware.WindowHistory

/-! What becomes of the waiting files and of the item map when a playlist is
handled: only the listed segments that are new to the window matter. -/

namespace MbmsMiddleware

namespace SeamlessContentStream

variable {D : Type}

/-- The segments that are not in the window yet, each where it is listed first. -/
def newcomers : List Int → List (HlsMediaPlaylist.Segment D) → List (HlsMediaPlaylist.Segment D)
  | _, [] => []
  | known, x :: xs =>
    if x.seq ∈ known then newcomers known xs else x :: newcomers (x.seq :: known) xs

theorem newcomers_congr {known known' : List Int} (h : ∀ k, k ∈ known ↔ k ∈ known')
    (xs : List (HlsMediaPlaylist.Segment D)) : newcomers known xs = newcomers known' xs := by
  induction xs generalizing known known' with
  | nil => rfl
  | cons x xs ih =>
    have hcons : newcomers (x.seq :: known) xs = newcomers (x.seq :: known') xs :=
      ih (fun k => by rw [List.mem_cons, List.mem_cons, h])
    simp only [newcomers, h, ih h, hcons]

theorem mem_newcomers {known : List Int} {xs : List (HlsMediaPlaylist.Segment D)}
    {x : HlsMediaPlaylist.Segment D} (hx : x ∈ newcomers known xs) : x ∈ xs ∧ x.seq ∉ known := by
  induction xs generalizing known with
  | nil => cases hx
  | cons y ys ih =>
    rw [newcomers] at hx
    split_ifs at hx with hy
    · exact ⟨List.mem_cons_of_mem y (ih hx).1, (ih hx).2⟩
    · rcases List.mem_cons.mp hx with rfl | hx
      · exact ⟨List.mem_cons_self, hy⟩
      · obtain ⟨hm, hn⟩ := ih hx
        exact ⟨List.mem_cons_of_mem y hm, fun hk => hn (List.mem_cons_of_mem _ hk)⟩

theorem exists_newcomer {known : List Int} {xs : List (HlsMediaPlaylist.Segment D)} {k : Int}
    (hk : k ∉ known) (h : ∃ x ∈ xs, x.seq = k) : ∃ x ∈ newcomers known xs, x.seq = k := by
  induction xs generalizing known with
  | nil => simp at h
  | cons y ys ih =>
    obtain ⟨x, hx, rfl⟩ := h
    rw [newcomers]
    by_cases hy : y.seq = x.seq
    · rw [if_neg (hy ▸ hk)]
      exact ⟨y, List.mem_cons_self, hy⟩
    · have hx' : x ∈ ys := (List.mem_cons.mp hx).resolve_left (fun he => hy (he ▸ rfl))
      split_ifs with hyk
      · exact ih hk ⟨x, hx', rfl⟩
      · have hk' : x.seq ∉ y.seq :: known := by
          rw [List.mem_cons, not_or]
          exact ⟨Ne.symm hy, hk⟩
        obtain ⟨z, hz, hzk⟩ := ih hk' ⟨x, hx', rfl⟩
        exact ⟨z, List.mem_cons_of_mem y hz, hzk⟩

theorem newcomers_nodup (known : List Int) (xs : List (HlsMediaPlaylist.Segment D)) :
    (newcomers known xs).Pairwise (fun x y => x.seq ≠ y.seq) := by
  induction xs generalizing known with
  | nil => exact .nil
  | cons y ys ih =>
    rw [newcomers]
    split_ifs
    · exact ih known
    · refine List.pairwise_cons.mpr ⟨fun z hz he => ?_, ih _⟩
      exact (mem_newcomers hz).2 (he ▸ List.mem_cons_self)

/-- Only the newcomers matter to the insertion loop. -/
theorem foldl_newcomers (xs : List (HlsMediaPlaylist.Segment D))
    (st : SeamlessContentStream D × Memory D) :
    (newcomers st.1.segments.keys xs).foldl insertSegment st = xs.foldl insertSegment st := by
  induction xs generalizing st with
  | nil => rfl
  | cons x xs ih =>
    obtain ⟨s, m⟩ := st
    rw [newcomers, List.foldl_cons]
    by_cases hx : x.seq ∈ s.segments.keys
    · obtain ⟨a, ha⟩ := OrdMap.mem_keys.mp hx
      rw [if_pos hx, insertSegment_known ha, ← ih]
    · rw [if_neg hx, List.foldl_cons, ← ih]
      congr 1
      refine newcomers_congr (fun k => ?_) xs
      rw [insertSegment_new (OrdMap.find?_eq_none.mpr hx), OrdMap.mem_keys_set, List.mem_cons]

/-- What inserting new segments does to the waiting files and to the item map. -/
structure Added (ys : List (HlsMediaPlaylist.Segment D))
    (st st' : SeamlessContentStream D × Memory D) : Prop where
  waiting : ∀ l, st'.1.fluteFiles.find? l =
    if ∃ y ∈ ys, st.1.playlistDir ++ y.uri = l then none else st.1.fluteFiles.find? l
  cached : ∀ l, l ∈ st'.2.cache.keys ↔
    l ∈ st.2.cache.keys ∨ ∃ y ∈ ys, st.1.playlistDir ++ y.uri = l

theorem foldl_insertSegment_dir (ys : List (HlsMediaPlaylist.Segment D))
    (st : SeamlessContentStream D × Memory D) :
    (ys.foldl insertSegment st).1.playlistDir = st.1.playlistDir := by
  rw [foldl_insertSegment_frame]

theorem foldl_insertSegment_added {ys : List (HlsMediaPlaylist.Segment D)}
    {st : SeamlessContentStream D × Memory D} (hnd : ys.Pairwise (fun x y => x.seq ≠ y.seq))
    (hnew : ∀ y ∈ ys, y.seq ∉ st.1.segments.keys) : Added ys st (ys.foldl insertSegment st) := by
  induction ys using List.reverseRecOn with
  | nil => exact ⟨by simp, by simp⟩
  | append_singleton ys y ih =>
    obtain ⟨hnd, -, hcross⟩ := List.pairwise_append.mp hnd
    have hh := ih hnd (fun z hz => hnew z (by simp [hz]))
    have hins := foldl_insertSegment ys st
    have hdir := foldl_insertSegment_dir ys st
    rw [List.foldl_append, List.foldl_cons, List.foldl_nil]
    generalize ys.foldl insertSegment st = st₁ at hh hins hdir
    obtain ⟨s₁, m₁⟩ := st₁
    dsimp only at hdir
    have hy : s₁.segments.find? y.seq = none := by
      rw [OrdMap.find?_eq_none, hins.mem_keys]
      rintro (hm | ⟨z, hz, hzy⟩)
      · exact hnew y (by simp) hm
      · exact hcross z hz y (by simp) hzy
    rw [insertSegment_new hy]
    refine ⟨fun l => ?_, fun l => ?_⟩
    · have hw := hh.waiting l
      dsimp only at hw ⊢
      rw [OrdMap.find?_erase, hw, hdir]
      by_cases hl : st.1.playlistDir ++ y.uri = l
      · rw [if_pos hl.symm, if_pos ⟨y, by simp, hl⟩]
      · rw [if_neg (Ne.symm hl)]
        refine if_congr ?_ rfl rfl
        simp only [List.mem_append, List.mem_singleton]
        constructor
        · rintro ⟨z, hz, hzl⟩
          exact ⟨z, .inl hz, hzl⟩
        · rintro ⟨z, hz | rfl, hzl⟩
          · exact ⟨z, hz, hzl⟩
          · exact absurd hzl hl
    · have hc := hh.cached l
      dsimp only at hc ⊢
      simp only [Cache.addItem, OrdMap.mem_keys_set, CacheItem.contentLocation, hc, hdir,
        List.mem_append, List.mem_singleton]
      constructor
      · rintro (rfl | hm | ⟨z, hz, hzl⟩)
        · exact .inr ⟨y, .inr rfl, rfl⟩
        · exact .inl hm
        · exact .inr ⟨z, .inl hz, hzl⟩
      · rintro (hm | ⟨z, hz | rfl, hzl⟩)
        · exact .inr (.inl hm)
        · exact .inr (.inr ⟨z, hz, hzl⟩)
        · exact .inl hzl.symm

/-- The object made for `y` when the segments `pre` have been inserted before:
it takes the waiting file, unless one of them has taken it. -/
def newObject (s : SeamlessContentStream D) (pre : List (HlsMediaPlaylist.Segment D))
    (y : HlsMediaPlaylist.Segment D) : Segment D :=
  let file := if ∃ z ∈ pre, z.uri = y.uri then none else s.fluteFiles.find? (s.playlistDir ++ y.uri)
  { contentLocation := s.playlistDir ++ y.uri
    seq := y.seq
    extinf := y.extinf
    cdnClient := s.cdnClient
    fluteFile := file
    contentReceivedAt := file.elim 0 (·.receivedAt) }

theorem foldl_insertSegment_attached {pre post : List (HlsMediaPlaylist.Segment D)}
    {y : HlsMediaPlaylist.Segment D} (st : SeamlessContentStream D × Memory D)
    (hnd : (pre ++ y :: post).Pairwise (fun x y => x.seq ≠ y.seq))
    (hnew : ∀ x ∈ pre ++ y :: post, x.seq ∉ st.1.segments.keys) :
    ∃ a, ((pre ++ y :: post).foldl insertSegment st).1.segments.find? y.seq = some a ∧
      ((pre ++ y :: post).foldl insertSegment st).2.segment a = newObject st.1 pre y := by
  obtain ⟨hnd, -, hcross⟩ := List.pairwise_append.mp hnd
  have hpre := foldl_insertSegment_added hnd (fun z hz => hnew z (by simp [hz]))
  have hins := foldl_insertSegment pre st
  have hframe := foldl_insertSegment_frame pre st
  rw [List.foldl_append, List.foldl_cons]
  generalize pre.foldl insertSegment st = st₁ at hpre hins hframe
  obtain ⟨s₁, m₁⟩ := st₁
  have hy : s₁.segments.find? y.seq = none := by
    rw [OrdMap.find?_eq_none, hins.mem_keys]
    rintro (hm | ⟨z, hz, hzy⟩)
    · exact hnew y (by simp) hm
    · exact hcross z hz y (by simp) hzy
  have hfile : s₁.fluteFiles.find? (st.1.playlistDir ++ y.uri) =
      if ∃ z ∈ pre, z.uri = y.uri then none
      else st.1.fluteFiles.find? (st.1.playlistDir ++ y.uri) := by
    have hw := hpre.waiting (st.1.playlistDir ++ y.uri)
    simp only [List.append_cancel_left_eq] at hw
    exact hw
  have hdir : s₁.playlistDir = st.1.playlistDir := congrArg (·.playlistDir) hframe
  have hclient : s₁.cdnClient = st.1.cdnClient := congrArg (·.cdnClient) hframe
  have hpost := foldl_insertSegment post (insertSegment (s₁, m₁) y)
  rw [insertSegment_new hy] at hpost ⊢
  refine ⟨m₁.nextSegment, hpost.kept _ _ (OrdMap.find?_set_self _ _ _), ?_⟩
  rw [hpost.objects m₁.nextSegment (Nat.lt_succ_self _)]
  change Function.update m₁.segment m₁.nextSegment (newSegment s₁ y) m₁.nextSegment = _
  rw [Function.update_self, newSegment, newObject, hdir, hclient, hfile]

/-- The objects under the numbers of the window once a list is inserted. -/
theorem foldl_insertSegment_find? {xs : List (HlsMediaPlaylist.Segment D)}
    {st : SeamlessContentStream D × Memory D}
    (hlt : ∀ k a, st.1.segments.find? k = some a → a < st.2.nextSegment) {k : Int} {a : Nat}
    (hk : (xs.foldl insertSegment st).1.segments.find? k = some a) :
    st.1.segments.find? k = some a ∧ (xs.foldl insertSegment st).2.segment a = st.2.segment a ∨
    ∃ pre y post, newcomers st.1.segments.keys xs = pre ++ y :: post ∧ y.seq = k ∧
      (xs.foldl insertSegment st).2.segment a = newObject st.1 pre y := by
  have hins := foldl_insertSegment xs st
  cases hold : st.1.segments.find? k with
  | some b =>
    have hab : b = a := Option.some.inj ((hins.kept k b hold).symm.trans hk)
    subst hab
    exact .inl ⟨rfl, hins.objects b (hlt k b hold)⟩
  | none =>
    have hx : ∃ x ∈ xs, x.seq = k :=
      ((hins.mem_keys k).mp (OrdMap.mem_keys.mpr ⟨a, hk⟩)).resolve_left (OrdMap.find?_eq_none.mp hold)
    obtain ⟨y, hy, rfl⟩ := exists_newcomer (OrdMap.find?_eq_none.mp hold) hx
    obtain ⟨pre, post, hsplit⟩ := List.append_of_mem hy
    obtain ⟨b, hb, hobj⟩ := foldl_insertSegment_attached st
      (hsplit ▸ newcomers_nodup st.1.segments.keys xs)
      (fun x hx => (mem_newcomers (hsplit ▸ hx)).2)
    rw [← hsplit, foldl_newcomers] at hb hobj
    obtain rfl : b = a := Option.some.inj (hb.symm.trans hk)
    exact .inr ⟨pre, y, post, hsplit, rfl, hobj⟩

theorem mem_removeItems {segment : Nat → Segment D} {cache : Cache} {es : List ((_ : Int) × Nat)}
    {l : Str} : l ∈ (removeItems segment cache es).keys ↔
      l ∈ cache.keys ∧ ∀ e ∈ es, (segment e.2).uri ≠ l := by
  rw [← OrdMap.find?_isSome, ← OrdMap.find?_isSome, find?_removeItems]
  have hmem : l ∈ es.map (fun e => (segment e.2).uri) ↔ ¬ ∀ e ∈ es, (segment e.2).uri ≠ l := by
    simp [List.mem_map]
  by_cases hl : l ∈ es.map (fun e => (segment e.2).uri)
  · rw [if_pos hl]
    simp [hmem.mp hl]
  · rw [if_neg hl]
    exact (and_iff_left (not_not.mp (mt hmem.mpr hl))).symm

/-- The item map loses the items of the segments that are dropped. -/
theorem mem_cache_accept {pl : HlsMediaPlaylist D} {source : ItemSource}
    {st : SeamlessContentStream D × Memory D} {l : Str} :
    let inserted :=
      (reached st.1.truncateCdnPlaylistSegments source pl.segments).foldl insertSegment st
    l ∈ (accept pl source st).2.cache.keys ↔ l ∈ inserted.2.cache.keys ∧
      ∀ k a, inserted.1.segments.find? k = some a →
        k ∉ (accept pl source st).1.segments.keys → (inserted.2.segment a).uri ≠ l := by
  intro inserted
  change l ∈ (removeItems _ _ _).keys ↔ _
  rw [mem_removeItems]
  refine and_congr_right (fun _ => ⟨fun h k a hk hn => ?_, fun h e he => ?_⟩)
  · exact h ⟨k, a⟩ (OrdMap.mem_take_iff.mpr ⟨OrdMap.find?_eq_some.mp hk, hn⟩)
  · obtain ⟨hm, hn⟩ := OrdMap.mem_take_iff.mp he
    exact h e.1 e.2 (OrdMap.find?_eq_some.mpr hm) hn

variable [DoubleText D]

/-- Waiting files and objects after a call: a file is only taken away, and an
object of the window is an old one or one made for a newcomer. -/
theorem playlistStep_objects {hist : List (HlsMediaPlaylist.Segment D)}
    {st : SeamlessContentStream D × Memory D} (h : Represents hist st) (call : PlaylistCall) :
    let ys := newcomers st.1.segments.keys
      (callSegments D st.1.truncateCdnPlaylistSegments call)
    let st' := playlistStep st call
    (∀ l f, st'.1.fluteFiles.find? l = some f → st.1.fluteFiles.find? l = some f) ∧
    ∀ k a, st'.1.segments.find? k = some a →
      st.1.segments.find? k = some a ∧ st'.2.segment a = st.2.segment a ∨
      ∃ pre y post, ys = pre ++ y :: post ∧ y.seq = k ∧
        st'.2.segment a = newObject st.1 pre y := by
  intro ys st'
  cases hp : (HlsMediaPlaylist.parse call.indeterminate call.content :
      Except Fault (HlsMediaPlaylist D)) with
  | error e =>
    have hst : st' = st := playlistStep_error hp
    rw [hst]
    exact ⟨fun l f hf => hf, fun k a hk => .inl ⟨hk, rfl⟩⟩
  | ok pl =>
    have hadded := foldl_insertSegment_added (newcomers_nodup st.1.segments.keys
      (callSegments D st.1.truncateCdnPlaylistSegments call)) (fun y hy => (mem_newcomers hy).2)
    rw [foldl_newcomers] at hadded
    have hst : st' = _ := playlistStep_ok hp
    rw [hst]
    refine ⟨fun l f hf => ?_, fun k a hk => ?_⟩
    · have hw := hadded.waiting l
      rw [callSegments_ok hp] at hw
      have hf' := hw.symm.trans hf
      split_ifs at hf'
      exact hf'
    · have hlt : ∀ k a, st.1.segments.find? k = some a → a < st.2.nextSegment :=
        fun k a hk => (h.objects k a hk).1
      have hh := foldl_insertSegment_find? hlt (OrdMap.find?_dropFront hk)
      simp only [ys, callSegments_ok hp]
      exact hh

theorem playlistStep_newcomer {st : SeamlessContentStream D × Memory D} {call : PlaylistCall}
    {pre post : List (HlsMediaPlaylist.Segment D)} {y : HlsMediaPlaylist.Segment D}
    (hsplit : newcomers st.1.segments.keys
      (callSegments D st.1.truncateCdnPlaylistSegments call) = pre ++ y :: post)
    (hkept : y.seq ∈ largest st.1.keepCount (st.1.segments.keys.toFinset ∪
      numbers (callSegments D st.1.truncateCdnPlaylistSegments call))) :
    ∃ a, (playlistStep st call).1.segments.find? y.seq = some a ∧
      (playlistStep st call).2.segment a = newObject st.1 pre y := by
  cases hp : (HlsMediaPlaylist.parse call.indeterminate call.content :
      Except Fault (HlsMediaPlaylist D)) with
  | error e => simp [callSegments_error hp, newcomers] at hsplit
  | ok pl =>
    rw [callSegments_ok hp] at hsplit hkept
    obtain ⟨a, ha, hobj⟩ := foldl_insertSegment_attached st
      (hsplit ▸ newcomers_nodup st.1.segments.keys _)
      (fun x hx => (mem_newcomers (hsplit ▸ hx)).2)
    rw [← hsplit, foldl_newcomers] at ha hobj
    rw [playlistStep_ok hp]
    refine ⟨a, ?_, hobj⟩
    obtain ⟨hkeys, -⟩ := accept_spec pl call.source st
    rw [← hkeys, List.mem_toFinset] at hkept
    exact (OrdMap.find?_dropFront_of_mem hkept).trans ha

end SeamlessContentStream

end MbmsMiddleware
