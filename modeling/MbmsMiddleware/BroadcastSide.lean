import MbmsMiddleware.HandlerViews

/-! The side of the objects that the announcement and the broadcast decide:
everything but the item map and what downloads leave in segments. No call of a
handler and no reception reads the rest. -/

namespace MbmsMiddleware

variable {D : Type}

/-- The segment without what a download leaves in it. -/
def Segment.broadcastSide (s : Segment D) : Segment D :=
  { s with cdnFile := none, contentReceivedAt := 0 }

def Memory.broadcastSide (m : Memory D) : Memory D where
  segment a := (m.segment a).broadcastSide
  nextSegment := m.nextSegment
  cache := .empty

namespace Memory

variable {m m' : Memory D}

theorem broadcastSide_segment (h : m.broadcastSide = m'.broadcastSide) (a : Nat) :
    (m.segment a).broadcastSide = (m'.segment a).broadcastSide :=
  congrFun (congrArg Memory.segment h) a

theorem broadcastSide_nextSegment (h : m.broadcastSide = m'.broadcastSide) :
    m.nextSegment = m'.nextSegment :=
  (congrArg Memory.nextSegment h :)

theorem broadcastSide_new (h : m.broadcastSide = m'.broadcastSide) (seg : Segment D)
    (cache cache' : Cache) :
    Memory.broadcastSide ⟨Function.update m.segment m.nextSegment seg, m.nextSegment + 1, cache⟩ =
      Memory.broadcastSide
        ⟨Function.update m'.segment m'.nextSegment seg, m'.nextSegment + 1, cache'⟩ := by
  have hsegment : (fun a => (m.segment a).broadcastSide) =
      fun a => (m'.segment a).broadcastSide := funext (broadcastSide_segment h)
  simp only [broadcastSide, World.apply_update Segment.broadcastSide, hsegment,
    broadcastSide_nextSegment h]

end Memory

namespace SeamlessContentStream

def broadcastSide (st : SeamlessContentStream D × Memory D) : SeamlessContentStream D × Memory D :=
  (st.1, st.2.broadcastSide)

variable {st st' : SeamlessContentStream D × Memory D}

theorem broadcastSide_insertSegment (h : broadcastSide st = broadcastSide st')
    (x : HlsMediaPlaylist.Segment D) :
    broadcastSide (insertSegment st x) = broadcastSide (insertSegment st' x) := by
  obtain ⟨s, m⟩ := st
  obtain ⟨s', m'⟩ := st'
  obtain ⟨rfl, hm⟩ := Prod.mk.inj h
  change m.broadcastSide = m'.broadcastSide at hm
  unfold insertSegment
  dsimp only
  cases s.segments.find? x.seq with
  | some _ => exact h
  | none =>
    refine Prod.ext ?_ (Memory.broadcastSide_new hm _ _ _)
    simp only [broadcastSide, Memory.broadcastSide_nextSegment hm]

theorem broadcastSide_insertLoop (h : broadcastSide st = broadcastSide st') (count idx : Nat)
    (l : List (HlsMediaPlaylist.Segment D)) :
    broadcastSide (insertLoop count idx l st) = broadcastSide (insertLoop count idx l st') := by
  induction l generalizing idx st st' with
  | nil => exact h
  | cons x l ih =>
    have hx := broadcastSide_insertSegment h x
    simp only [insertLoop]
    split_ifs
    · exact hx
    · exact ih hx (idx + 1)

theorem broadcastSide_dropOldest (h : broadcastSide st = broadcastSide st') :
    broadcastSide (dropOldest st) = broadcastSide (dropOldest st') := by
  obtain ⟨s, m⟩ := st
  obtain ⟨s', m'⟩ := st'
  obtain ⟨rfl, hm⟩ := Prod.mk.inj h
  unfold dropOldest
  dsimp only
  cases s.segments.entries with
  | nil => exact h
  | cons e l => exact congrArg (Prod.mk _) hm

theorem broadcastSide_dropLoop (h : broadcastSide st = broadcastSide st') (fuel : Nat) :
    broadcastSide (dropLoop fuel st) = broadcastSide (dropLoop fuel st') := by
  induction fuel generalizing st st' with
  | zero => exact h
  | succ fuel ih =>
    have hs : st.1 = st'.1 := (Prod.mk.inj h).1
    simp only [dropLoop, hs]
    split_ifs
    · exact ih (broadcastSide_dropOldest h)
    · exact h

theorem windowPlaylist_congr {m m' : Memory D} (h : m.broadcastSide = m'.broadcastSide)
    (s : SeamlessContentStream D) (targetduration : Int) :
    windowPlaylist s m targetduration = windowPlaylist s m' targetduration := by
  have hlisted : ∀ a, (⟨(m.segment a).uri, (m.segment a).seq, (m.segment a).extinf⟩ :
      HlsMediaPlaylist.Segment D) =
        ⟨(m'.segment a).uri, (m'.segment a).seq, (m'.segment a).extinf⟩ := by
    intro a
    have hseg := Memory.broadcastSide_segment h a
    have huri : (m.segment a).uri = (m'.segment a).uri := (congrArg Segment.contentLocation hseg :)
    have hseq : (m.segment a).seq = (m'.segment a).seq := (congrArg Segment.seq hseg :)
    have hextinf : (m.segment a).extinf = (m'.segment a).extinf := (congrArg Segment.extinf hseg :)
    rw [huri, hseq, hextinf]
  simp only [windowPlaylist, hlisted]

variable [DoubleText D]

theorem broadcastSide_handlePlaylist (h : broadcastSide st = broadcastSide st') (indeterminate : Int)
    (content : Str) (source : ItemSource) :
    (handlePlaylist indeterminate content source st).map broadcastSide =
      (handlePlaylist indeterminate content source st').map broadcastSide := by
  have hs : st.1 = st'.1 := (Prod.mk.inj h).1
  unfold handlePlaylist
  cases (HlsMediaPlaylist.parse indeterminate content : Except Fault (HlsMediaPlaylist D)) with
  | error e => rfl
  | ok playlist =>
    simp only [bind, Except.bind, pure, Except.pure, Except.map, hs]
    have hinsert := broadcastSide_insertLoop h
      (insertCount st'.1.truncateCdnPlaylistSegments source playlist.segments.length) 0
      playlist.segments
    generalize insertLoop _ 0 playlist.segments st = inserted at hinsert ⊢
    generalize insertLoop _ 0 playlist.segments st' = inserted' at hinsert ⊢
    have hsize : inserted.1 = inserted'.1 := (Prod.mk.inj hinsert).1
    rw [hsize]
    have hdrop := broadcastSide_dropLoop hinsert inserted'.1.segments.size
    generalize dropLoop inserted'.1.segments.size inserted = dropped at hdrop ⊢
    generalize dropLoop inserted'.1.segments.size inserted' = dropped' at hdrop ⊢
    obtain ⟨s, m⟩ := dropped
    obtain ⟨s', m'⟩ := dropped'
    obtain ⟨rfl, hm⟩ := Prod.mk.inj hdrop
    simp only [broadcastSide, windowPlaylist_congr hm, show m.broadcastSide = m'.broadcastSide from hm]

theorem broadcastSide_fluteFileReceived (h : broadcastSide st = broadcastSide st')
    (indeterminate : Int) (file : FluteFile) :
    (fluteFileReceived indeterminate file st).map broadcastSide =
      (fluteFileReceived indeterminate file st').map broadcastSide := by
  obtain ⟨hs, hm⟩ := Prod.mk.inj h
  unfold fluteFileReceived
  rw [hs]
  split_ifs
  · exact broadcastSide_handlePlaylist h indeterminate file.buffer .broadcast
  · exact congrArg Except.ok h
  · exact congrArg (fun m => Except.ok (_, m)) hm

end SeamlessContentStream

namespace World

def broadcastSide (w : World D) : World D := { w with memory := w.memory.broadcastSide }

theorem eq_of_broadcastSide {w w' : World D} (h : w.broadcastSide = w'.broadcastSide) :
    ∃ m, w' = { w with memory := m } ∧ w.memory.broadcastSide = m.broadcastSide := by
  obtain ⟨m, stream, nextStream, service, nextService, services, items, basePath, passed⟩ := w
  obtain ⟨m', stream', nextStream', service', nextService', services', items', basePath',
    passed'⟩ := w'
  unfold broadcastSide at h
  injection h with hm h₁ h₂ h₃ h₄ h₅ h₆ h₇ h₈
  subst h₁ h₂ h₃ h₄ h₅ h₆ h₇ h₈
  exact ⟨m', rfl, hm⟩

theorem broadcastSide_memory (w : World D) {m m' : Memory D}
    (h : m.broadcastSide = m'.broadcastSide) :
    World.broadcastSide { w with memory := m } = World.broadcastSide { w with memory := m' } :=
  congrArg (fun m => { w with memory := m }) h

theorem showsItems_broadcastSide : ShowsItems (broadcastSide (D := D)) where
  items _ _ h := (congrArg World.items h :)
  setItems l _ _ h := congrArg (fun w => { w with items := l }) h

variable [DoubleText D] (env : Environment D)

omit [DoubleText D] in
theorem broadcastSide_callSetCdnEndpoint (address : Nat) (cdnEpt : Str) :
    EStateM.Respects broadcastSide (callSetCdnEndpoint (D := D) env.rest address cdnEpt) := by
  intro w w' h
  obtain ⟨m, rfl, hm⟩ := eq_of_broadcastSide h
  unfold callSetCdnEndpoint
  dsimp only
  cases (w.stream address).asSeamless? with
  | none => exact congrArg (EStateM.Result.error _) h
  | some s =>
    simp only [SeamlessContentStream.setCdnEndpoint]
    cases env.rest.uri cdnEpt with
    | none => exact congrArg (EStateM.Result.error _) (broadcastSide_memory _ hm)
    | some uri =>
      dsimp only
      split_ifs
      · exact congrArg (EStateM.Result.ok _) (broadcastSide_memory _ hm)
      · exact congrArg (EStateM.Result.error _) (broadcastSide_memory _ hm)

theorem broadcastSide_addAndStartContentStream (service address : Nat) :
    EStateM.Respects broadcastSide (addAndStartContentStream env service address) := by
  intro w w' h
  obtain ⟨m, rfl, hm⟩ := eq_of_broadcastSide h
  unfold addAndStartContentStream
  dsimp only
  cases ((w.service service).matchStream (w.stream address).content).start with
  | error e => simp only [EStateM.Result.mapState, broadcastSide, setStream, setService, hm]
  | ok cs => simp only [EStateM.Result.mapState, broadcastSide, setStream, setService, hm]

theorem broadcastSide_perform (op : MiddlewareCall D) :
    EStateM.Respects broadcastSide (perform env op) := by
  cases op with
  | readMasterManifest service manifest basePath =>
    refine respects_callReadMasterManifest (fun w w' h => ?_) (fun w w' h sv cache cache' => ?_)
      manifest basePath
    · obtain ⟨m, rfl, -⟩ := eq_of_broadcastSide h
      rfl
    · obtain ⟨m, rfl, hm⟩ := eq_of_broadcastSide h
      have hcache : Memory.broadcastSide { w.memory with cache := cache } =
          Memory.broadcastSide { m with cache := cache' } := hm
      exact broadcastSide_memory (w.setService service sv) hcache
  | setCdnEndpoint address cdnEpt => exact broadcastSide_callSetCdnEndpoint env address cdnEpt
  | addAndStartContentStream service address =>
    exact broadcastSide_addAndStartContentStream env service address
  | _ =>
    intro w w' h
    obtain ⟨m, rfl, hm⟩ := eq_of_broadcastSide h
    simp only [perform, EStateM.Result.mapState, broadcastSide, setStream, setService, hm]

omit [DoubleText D] in
theorem broadcastSide_storeResult {w : World D} {m : Memory D}
    {x y : Except Fault (SeamlessContentStream D × Memory D)}
    (hm : w.memory.broadcastSide = m.broadcastSide)
    (h : x.map SeamlessContentStream.broadcastSide = y.map SeamlessContentStream.broadcastSide)
    (address : Nat) (isPlaylist : Bool) :
    (w.storeResult address isPlaylist x).1.broadcastSide =
      (World.storeResult address isPlaylist { w with memory := m } y).1.broadcastSide := by
  cases x with
  | error e =>
    cases y with
    | error e' => exact broadcastSide_memory w hm
    | ok st' => cases h
  | ok st =>
    cases y with
    | error e' => cases h
    | ok st' =>
      obtain ⟨s, m₁⟩ := st
      obtain ⟨s', m₂⟩ := st'
      injection h with hst
      obtain ⟨rfl, hm'⟩ := Prod.mk.inj hst
      exact broadcastSide_memory _ hm'

theorem broadcastSide_receive {w w' : World D} (h : w.broadcastSide = w'.broadcastSide)
    (address : Nat) (indeterminate : Int) (r : Reception) :
    (w.receive address indeterminate r).1.broadcastSide =
      (w'.receive address indeterminate r).1.broadcastSide := by
  obtain ⟨m, rfl, hm⟩ := eq_of_broadcastSide h
  have hst : ∀ s : SeamlessContentStream D, SeamlessContentStream.broadcastSide (s, w.memory) =
      SeamlessContentStream.broadcastSide (s, m) := fun s => congrArg (Prod.mk s) hm
  unfold receive
  dsimp only
  cases w.stream address with
  | basic cs =>
    cases r with
    | fluteFile file => exact broadcastSide_memory w hm
    | cdnPlaylist content => exact h
  | seamless s =>
    cases r with
    | fluteFile file =>
      exact broadcastSide_storeResult hm
        (SeamlessContentStream.broadcastSide_fluteFileReceived (hst s) indeterminate file) address _
    | cdnPlaylist content =>
      dsimp only
      split_ifs
      · exact broadcastSide_storeResult hm
          (SeamlessContentStream.broadcastSide_handlePlaylist (hst s) indeterminate content .cdn)
          address _
      · exact h

theorem receiveFault?_congr {w w' : World D} (h : w.broadcastSide = w'.broadcastSide)
    (address : Nat) (indeterminate : Int) (r : Reception) :
    w.receiveFault? address indeterminate r = w'.receiveFault? address indeterminate r := by
  obtain ⟨m, rfl, hm⟩ := eq_of_broadcastSide h
  have hst : ∀ s : SeamlessContentStream D, SeamlessContentStream.broadcastSide (s, w.memory) =
      SeamlessContentStream.broadcastSide (s, m) := fun s => congrArg (Prod.mk s) hm
  have hfault : ∀ x y : Except Fault (SeamlessContentStream D × Memory D),
      x.map SeamlessContentStream.broadcastSide = y.map SeamlessContentStream.broadcastSide →
      x.fault? = y.fault? := by
    intro x y hxy
    rw [← Except.fault?_map SeamlessContentStream.broadcastSide, hxy, Except.fault?_map]
  unfold receiveFault?
  dsimp only
  cases w.stream address with
  | basic cs => rfl
  | seamless s =>
    cases r with
    | fluteFile file =>
      exact hfault _ _ (SeamlessContentStream.broadcastSide_fluteFileReceived (hst s) indeterminate file)
    | cdnPlaylist content =>
      dsimp only
      split_ifs
      · exact hfault _ _
          (SeamlessContentStream.broadcastSide_handlePlaylist (hst s) indeterminate content .cdn)
      · rfl

end World

end MbmsMiddleware
