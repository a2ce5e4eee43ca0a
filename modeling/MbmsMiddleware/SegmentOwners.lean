import MbmsMiddleware.WorldChanges

/-! Who holds a segment. Streams share the item map and the memory, but no two
windows share a segment, and the item map refers to segments of windows only. -/

namespace MbmsMiddleware

namespace SeamlessContentStream

variable {D : Type} {s : SeamlessContentStream D} {m : Memory D}

theorem dropOldest_nil (h : s.segments.entries = []) : dropOldest (s, m) = (s, m) := by
  simp only [dropOldest, h]

theorem dropOldest_cons {number : Int} {oldest : Nat} {rest : List ((_ : Int) × Nat)}
    (h : s.segments.entries = ⟨number, oldest⟩ :: rest) :
    dropOldest (s, m) = ({ s with segments := s.segments.dropFront 1 },
      { m with cache := m.cache.removeItem (m.segment oldest).uri }) := by
  simp only [dropOldest, h]

theorem find?_dropFront_one {segments : OrdMap Int Nat} {number : Int} {oldest : Nat}
    {rest : List ((_ : Int) × Nat)} (h : segments.entries = ⟨number, oldest⟩ :: rest) (k : Int) :
    (segments.dropFront 1).find? k = if k = number then none else segments.find? k := by
  have hnodup := segments.keys_nodup
  unfold OrdMap.keys at hnodup
  change (segments.entries.drop 1).dlookup k =
    if k = number then none else segments.entries.dlookup k
  rw [h] at hnodup ⊢
  rw [List.keys_cons, List.nodup_cons] at hnodup
  split_ifs with hk
  · subst hk
    exact List.dlookup_eq_none.mpr hnodup.1
  · exact (List.dlookup_cons_ne _ _ hk).symm

end SeamlessContentStream

namespace World

variable {D : Type}

/-- The window of the stream at an address; a basic stream has none. -/
def segmentsAt (w : World D) (address : Nat) : OrdMap Int Nat :=
  match w.stream address with
  | .basic _ => .empty
  | .seamless s => s.segments

/-- A segment is in the window of a stream under a number. -/
def Holds (w : World D) (address : Nat) (number : Int) (x : Nat) : Prop :=
  address < w.nextStream ∧ (w.segmentsAt address).find? number = some x

structure Separate (w : World D) : Prop where
  allocated : ∀ a k x, w.Holds a k x → x < w.memory.nextSegment
  own : ∀ a k a' k' x, w.Holds a k x → w.Holds a' k' x → a = a' ∧ k = k'
  numbered : ∀ a k x, w.Holds a k x → (w.memory.segment x).seq = k
  listed : ∀ l l' r x, w.memory.cache.find? l = some (.segment l' r x) →
    l' = l ∧ (w.memory.segment x).uri = l ∧ ∃ a k, w.Holds a k x

variable {w : World D} {address : Nat} {s : SeamlessContentStream D}

theorem segmentsAt_of_stream (hs : w.stream address = .seamless s) :
    w.segmentsAt address = s.segments := by
  rw [segmentsAt, hs]

theorem segmentsAt_setStream (w : World D) (address : Nat) (s : AnyStream D) (b : Nat) :
    (w.setStream address s).segmentsAt b =
      if b = address then (s.asSeamless?.elim .empty (·.segments)) else w.segmentsAt b := by
  unfold segmentsAt
  by_cases hb : b = address
  · subst hb
    rw [if_pos rfl, setStream_stream_self]
    cases s <;> rfl
  · rw [if_neg hb, setStream_stream_of_ne w s hb]

theorem segmentsAt_storeStream (w : World D) (address : Nat)
    (st : SeamlessContentStream D × Memory D) (b : Nat) :
    (w.storeStream address st).segmentsAt b =
      if b = address then st.1.segments else w.segmentsAt b :=
  segmentsAt_setStream w address (.seamless st.1) b

theorem holds_storeStream {st : SeamlessContentStream D × Memory D} {a : Nat} {k : Int} {x : Nat} :
    (w.storeStream address st).Holds a k x ↔ a < w.nextStream ∧
      (if a = address then st.1.segments else w.segmentsAt a).find? k = some x := by
  rw [Holds, segmentsAt_storeStream]
  rfl

theorem Separate.congr (h : w.Separate) {w' : World D}
    (hsegments : ∀ a, w'.segmentsAt a = w.segmentsAt a) (hnext : w'.nextStream = w.nextStream)
    (hmemory : w'.memory = w.memory) : w'.Separate := by
  have hholds : ∀ a k x, w'.Holds a k x ↔ w.Holds a k x := by
    intro a k x
    rw [Holds, Holds, hsegments, hnext]
  constructor
  · intro a k x hx
    rw [hmemory]
    exact h.allocated a k x ((hholds a k x).mp hx)
  · intro a k a' k' x hx hx'
    exact h.own a k a' k' x ((hholds a k x).mp hx) ((hholds a' k' x).mp hx')
  · intro a k x hx
    rw [hmemory]
    exact h.numbered a k x ((hholds a k x).mp hx)
  · intro l l' r x hl
    rw [hmemory] at hl ⊢
    obtain ⟨hll, huri, a, k, hx⟩ := h.listed l l' r x hl
    exact ⟨hll, huri, a, k, (hholds a k x).mpr hx⟩

theorem Separate.withCache (h : w.Separate) {cache : Cache}
    (hcache : ∀ l l' r x, cache.find? l = some (.segment l' r x) →
      w.memory.cache.find? l = some (.segment l' r x)) :
    ({ w with memory := { w.memory with cache := cache } } : World D).Separate :=
  ⟨h.allocated, h.own, h.numbered, fun l l' r x hl => h.listed l l' r x (hcache l l' r x hl)⟩

theorem Separate.newStream (h : w.Separate) {s : AnyStream D}
    (hs : s.asSeamless?.elim .empty (·.segments) = (.empty : OrdMap Int Nat)) :
    ({ w.setStream w.nextStream s with nextStream := w.nextStream + 1 } : World D).Separate := by
  have hholds : ∀ a k x, ({ w.setStream w.nextStream s with
      nextStream := w.nextStream + 1 } : World D).Holds a k x ↔ w.Holds a k x := by
    intro a k x
    change a < w.nextStream + 1 ∧ ((w.setStream w.nextStream s).segmentsAt a).find? k = some x ↔ _
    rw [segmentsAt_setStream, Holds]
    split_ifs with ha
    · rw [hs, OrdMap.find?_empty]
      simp [ha]
    · exact and_congr_left fun _ => by omega
  refine ⟨?_, ?_, ?_, ?_⟩
  · exact fun a k x hx => h.allocated a k x ((hholds a k x).mp hx)
  · exact fun a k a' k' x hx hx' => h.own a k a' k' x ((hholds a k x).mp hx) ((hholds a' k' x).mp hx')
  · exact fun a k x hx => h.numbered a k x ((hholds a k x).mp hx)
  · intro l l' r x hl
    obtain ⟨hll, huri, a, k, hx⟩ := h.listed l l' r x hl
    exact ⟨hll, huri, a, k, (hholds a k x).mpr hx⟩

/-- A new segment has a free address. -/
theorem Separate.insert (h : w.Separate) (hs : w.StreamAt address s)
    (segment : HlsMediaPlaylist.Segment D) :
    (w.storeStream address (SeamlessContentStream.insertSegment (s, w.memory) segment)).Separate := by
  have hwindow := segmentsAt_of_stream hs.2
  cases hk : s.segments.find? segment.seq with
  | some y =>
    rw [SeamlessContentStream.insertSegment_known hk, storeStream_self hs.2]
    exact h
  | none =>
    rw [SeamlessContentStream.insertSegment_new hk]
    generalize hst : (⟨_, _⟩ : SeamlessContentStream D × Memory D) = st
    have hsegments : st.1.segments = s.segments.set segment.seq w.memory.nextSegment := by
      rw [← hst]
    have hmemory : st.2 = ⟨Function.update w.memory.segment w.memory.nextSegment
        (SeamlessContentStream.newSegment s segment), w.memory.nextSegment + 1,
        w.memory.cache.addItem (.segment (s.playlistDir ++ segment.uri) 0 w.memory.nextSegment)⟩ := by
      rw [← hst]
    have hholds : ∀ a k x, (w.storeStream address st).Holds a k x ↔
        a = address ∧ k = segment.seq ∧ x = w.memory.nextSegment ∨ w.Holds a k x := by
      intro a k x
      rw [holds_storeStream, Holds]
      split_ifs with ha
      · subst ha
        rw [hsegments, OrdMap.find?_set, hwindow]
        split_ifs with hks
        · subst hks
          simp [hk, hs.1, eq_comm]
        · simp [hks]
      · simp [ha]
    have hold : ∀ x < w.memory.nextSegment, st.2.segment x = w.memory.segment x := by
      intro x hx
      rw [hmemory]
      exact Function.update_of_ne hx.ne _ _
    have hnew : st.2.segment w.memory.nextSegment = SeamlessContentStream.newSegment s segment := by
      rw [hmemory]
      exact Function.update_self ..
    constructor
    · intro a k x hx
      change x < st.2.nextSegment
      rw [hmemory]
      rcases (hholds a k x).mp hx with ⟨-, -, rfl⟩ | hx
      · exact Nat.lt_succ_self _
      · exact (h.allocated a k x hx).trans (Nat.lt_succ_self _)
    · intro a k a' k' x hx hx'
      rcases (hholds a k x).mp hx with ⟨ha, hk, hnext⟩ | hheld <;>
        rcases (hholds a' k' x).mp hx' with ⟨ha', hk', hnext'⟩ | hheld'
      · exact ⟨ha.trans ha'.symm, hk.trans hk'.symm⟩
      · exact absurd (h.allocated a' k' x hheld') hnext.not_lt
      · exact absurd (h.allocated a k x hheld) hnext'.not_lt
      · exact h.own a k a' k' x hheld hheld'
    · intro a k x hx
      change (st.2.segment x).seq = k
      rcases (hholds a k x).mp hx with ⟨-, rfl, rfl⟩ | hx
      · rw [hnew]
        rfl
      · rw [hold x (h.allocated a k x hx)]
        exact h.numbered a k x hx
    · intro l l' r x hl
      change st.2.cache.find? l = _ at hl
      change l' = l ∧ (st.2.segment x).uri = l ∧ _
      rw [hmemory] at hl
      rw [Cache.addItem, OrdMap.find?_set] at hl
      split_ifs at hl with hl'
      · cases hl
        exact ⟨hl'.symm, by rw [hnew, hl']; rfl, address, segment.seq,
          (hholds _ _ _).mpr (.inl ⟨rfl, rfl, rfl⟩)⟩
      · obtain ⟨hll, huri, a, k, hx⟩ := h.listed l l' r x hl
        rw [hold x (h.allocated a k x hx)]
        exact ⟨hll, huri, a, k, (hholds a k x).mpr (.inr hx)⟩

theorem Separate.drop (h : w.Separate) (hs : w.StreamAt address s) :
    (w.storeStream address (SeamlessContentStream.dropOldest (s, w.memory))).Separate := by
  have hwindow := segmentsAt_of_stream hs.2
  cases hentries : s.segments.entries with
  | nil =>
    rw [SeamlessContentStream.dropOldest_nil hentries, storeStream_self hs.2]
    exact h
  | cons e rest =>
    obtain ⟨number, oldest⟩ := e
    rw [SeamlessContentStream.dropOldest_cons hentries]
    generalize hst : (⟨_, _⟩ : SeamlessContentStream D × Memory D) = st
    have hfind : s.segments.find? number = some oldest :=
      OrdMap.find?_eq_some.mpr (by rw [hentries]; exact List.mem_cons_self)
    have hholdsOldest : w.Holds address number oldest := ⟨hs.1, by rw [hwindow, hfind]⟩
    have hsegments : ∀ k, st.1.segments.find? k =
        if k = number then none else s.segments.find? k := by
      intro k
      rw [← hst]
      exact SeamlessContentStream.find?_dropFront_one hentries k
    have hholds : ∀ a k x, (w.storeStream address st).Holds a k x ↔
        w.Holds a k x ∧ ¬ (a = address ∧ k = number) := by
      intro a k x
      rw [holds_storeStream, Holds]
      split_ifs with ha
      · subst ha
        rw [hsegments, hwindow]
        split_ifs with hk <;> simp [hk]
      · simp [ha]
    have hmemory : st.2 = { w.memory with
        cache := w.memory.cache.removeItem (w.memory.segment oldest).uri } := by
      rw [← hst]
    constructor
    · intro a k x hx
      change x < st.2.nextSegment
      rw [hmemory]
      exact h.allocated a k x ((hholds a k x).mp hx).1
    · intro a k a' k' x hx hx'
      exact h.own a k a' k' x ((hholds a k x).mp hx).1 ((hholds a' k' x).mp hx').1
    · intro a k x hx
      change (st.2.segment x).seq = k
      rw [hmemory]
      exact h.numbered a k x ((hholds a k x).mp hx).1
    · intro l l' r x hl
      change st.2.cache.find? l = _ at hl
      change l' = l ∧ (st.2.segment x).uri = l ∧ _
      rw [hmemory] at hl ⊢
      rw [Cache.removeItem, OrdMap.find?_erase] at hl
      split_ifs at hl with hl'
      obtain ⟨hll, huri, a, k, hx⟩ := h.listed l l' r x hl
      refine ⟨hll, huri, a, k, (hholds a k x).mpr ⟨hx, ?_⟩⟩
      rintro ⟨rfl, rfl⟩
      -- the segment that is dropped has its item at its own URI
      have hsame : x = oldest := Option.some.inj (hx.2.symm.trans hholdsOldest.2)
      exact hl' (by rw [← huri, hsame])

theorem Separate.download (h : w.Separate) (segment now : Nat) (file : Str) :
    (w.download segment now file).Separate := by
  have hsame : ∀ x, ((w.download segment now file).memory.segment x).uri = (w.memory.segment x).uri ∧
      ((w.download segment now file).memory.segment x).seq = (w.memory.segment x).seq := by
    intro x
    change (Function.update w.memory.segment segment _ x).uri = _ ∧
      (Function.update w.memory.segment segment _ x).seq = _
    by_cases hx : x = segment
    · subst hx
      rw [Function.update_self]
      exact ⟨rfl, rfl⟩
    · rw [Function.update_of_ne hx]
      exact ⟨rfl, rfl⟩
  refine ⟨h.allocated, h.own, ?_, ?_⟩
  · intro a k x hx
    rw [(hsame x).2]
    exact h.numbered a k x hx
  · intro l l' r x hl
    rw [(hsame x).1]
    exact h.listed l l' r x hl

/-- Whatever happens, no two windows share a segment. -/
theorem Separate.effect {env : Environment D} {cfg : Config} {brought : List (Str × Str)}
    {w' : World D} (he : Effect env cfg brought w w') (h : w.Separate) : w'.Separate := by
  have hadd : ∀ item : CacheItem, (∀ l r x, item ≠ .segment l r x) →
      ({ w with memory := { w.memory with cache := w.memory.cache.addItem item } } : World D).Separate := by
    intro item hitem
    refine h.withCache fun l l' r x hl => ?_
    rw [Cache.addItem, OrdMap.find?_set] at hl
    split_ifs at hl with hloc
    · exact absurd (Option.some.inj hl) (hitem l' r x)
    · exact hl
  have hsame : ∀ (a : Nat) (t : AnyStream D) (b : Nat),
      t.asSeamless?.elim .empty (·.segments) = w.segmentsAt a →
      (w.setStream a t).segmentsAt b = w.segmentsAt b := by
    intro a t b ht
    rw [segmentsAt_setStream]
    split_ifs with hb
    · rw [hb, ht]
    · rfl
  cases he with
  | items items hitems => exact h.congr (fun _ => rfl) rfl rfl
  | frame => exact h.congr (fun _ => rfl) rfl rfl
  | listPlaylist location owner => exact hadd _ (by simp)
  | newStream s hs =>
    refine h.newStream ?_
    cases s with
    | basic cs => rfl
    | seamless s =>
      change s = _ at hs
      rw [hs]
      rfl
  | content a c =>
    refine h.congr (fun b => hsame a _ b ?_) rfl rfl
    unfold segmentsAt
    cases w.stream a <;> rfl
  | redirect a s hs =>
    refine h.congr (fun b => hsame a _ b ?_) rfl rfl
    rw [segmentsAt_of_stream hs]
    rfl
  | insert a s hs segment => exact h.insert hs segment
  | drop a s hs => exact h.drop hs
  | render a s hs playlist =>
    refine h.congr (fun b => hsame a _ b ?_) rfl rfl
    rw [segmentsAt_of_stream hs.2]
    rfl
  | keep a s hs file =>
    refine h.congr (fun b => hsame a _ b ?_) rfl rfl
    rw [segmentsAt_of_stream hs.2]
    rfl
  | store a cs ha hs file =>
    unfold ContentStream.fluteFileReceived
    split_ifs
    all_goals first | exact hadd _ (by simp) | exact h
  | download segment now file hx => exact h.download segment now file
  | forget cache hcache => exact h.withCache fun l l' r x hl => hcache l _ hl

theorem separate_initial [DoubleText D] (env : Environment D) : (initial env : World D).Separate := by
  have hholds : ∀ a k x, ¬ (initial env : World D).Holds a k x := by
    intro a k x hx
    exact absurd hx.1 (Nat.not_lt_zero a)
  refine ⟨?_, ?_, ?_, ?_⟩
  · exact fun a k x hx => absurd hx (hholds a k x)
  · exact fun a k _ _ x hx _ => absurd hx (hholds a k x)
  · exact fun a k x hx => absurd hx (hholds a k x)
  · intro l l' r x hl
    cases hl

theorem Reachable.separate [DoubleText D] {env : Environment D} {cfg : Config}
    (h : Reachable env cfg w) : w.Separate :=
  h.invariant (separate_initial env) fun _ _ _ he hw => hw.effect he

end World

end MbmsMiddleware
