import MbmsMiddleware.AnnouncedOwners
import MbmsMiddleware.ListedSegments
import MbmsMiddleware.ObjectChanges

/-! The life of a segment in its window. As long as a number stays in a window it
is the same segment, data that are there stay and are not downloaded again, and a
number that has left the window does not come back. -/

namespace MbmsMiddleware

variable {D : Type}

theorem Segment.Became.dataSource {x y : Segment D} (h : x.Became y)
    (hx : x.dataSource ≠ .unavailable) : y.dataSource = x.dataSource := by
  have hcomplete : y.completeFluteFile = x.completeFluteFile := by
    unfold Segment.completeFluteFile
    rw [h.fluteFile]
  unfold Segment.dataSource at hx ⊢
  rw [hcomplete]
  cases hf : x.completeFluteFile with
  | some f => rfl
  | none =>
    rw [hf] at hx
    cases hc : x.cdnFile with
    | none =>
      rw [hc] at hx
      exact absurd rfl hx
    | some file =>
      obtain ⟨file', hfile'⟩ := Option.isSome_iff_exists.mp (h.cdnFile (by rw [hc]; rfl))
      rw [hfile']

theorem Segment.Became.buffer {x y : Segment D} (h : x.Became y) (hx : x.dataSource = .broadcast) :
    y.buffer = x.buffer := by
  have hcomplete : y.completeFluteFile = x.completeFluteFile := by
    unfold Segment.completeFluteFile
    rw [h.fluteFile]
  unfold Segment.dataSource at hx
  unfold Segment.buffer
  rw [hcomplete]
  cases hf : x.completeFluteFile with
  | some f => rfl
  | none =>
    rw [hf] at hx
    cases hc : x.cdnFile <;> rw [hc] at hx <;> cases hx

namespace SeamlessContentStream

theorem segments_insertSegment (st : SeamlessContentStream D × Memory D)
    (x : HlsMediaPlaylist.Segment D) :
    (insertSegment st x).1.segments = st.1.segments.setNew (x.seq, st.2.nextSegment) := by
  obtain ⟨s, m⟩ := st
  cases hx : s.segments.find? x.seq with
  | some y => rw [insertSegment_known hx, OrdMap.setNew_known hx]
  | none => rw [insertSegment_new hx, OrdMap.setNew_new hx]

theorem segments_foldl_insertSegment (xs : List (HlsMediaPlaylist.Segment D))
    (st : SeamlessContentStream D × Memory D) :
    ∃ new : List (Int × Nat),
      (xs.foldl insertSegment st).1.segments = new.foldl OrdMap.setNew st.1.segments := by
  induction xs generalizing st with
  | nil => exact ⟨[], rfl⟩
  | cons x xs ih =>
    obtain ⟨new, hnew⟩ := ih (insertSegment st x)
    rw [segments_insertSegment] at hnew
    exact ⟨(x.seq, st.2.nextSegment) :: new, hnew⟩

/-- The window goes on as a map that keeps its newest keys. -/
theorem playlistStep_recent [DoubleText D] (st : SeamlessContentStream D × Memory D)
    {hist : List (Int × Nat)} (h : OrdMap.Recent st.1.keepCount hist st.1.segments)
    (call : PlaylistCall) :
    ∃ more, OrdMap.Recent st.1.keepCount (hist ++ more) (playlistStep st call).1.segments := by
  cases hp : (HlsMediaPlaylist.parse call.indeterminate call.content :
      Except Fault (HlsMediaPlaylist D)) with
  | error e =>
    rw [playlistStep_error hp]
    exact ⟨[], by rwa [List.append_nil]⟩
  | ok pl =>
    obtain ⟨new, hnew⟩ := segments_foldl_insertSegment
      (reached st.1.truncateCdnPlaylistSegments call.source pl.segments) st
    have hsegments : (playlistStep st call).1.segments =
        (new.foldl OrdMap.setNew st.1.segments).keepLast st.1.keepCount := by
      rw [playlistStep_ok hp, ← hnew]
      rfl
    rw [hsegments]
    exact ⟨new, h.accept new⟩

end SeamlessContentStream

namespace World

/-- All seamless streams keep the same number of segments. -/
def Keeps (cfg : Config) (w : World D) : Prop :=
  ∀ a s, w.StreamAt a s → s.segmentsToKeep = cfg.maxSegmentsPerStream.getD 10

/-- What windows have taken in goes on. -/
structure Continues (keep : Nat) (w w' : World D) : Prop where
  next : w.nextStream ≤ w'.nextStream
  recent : ∀ a < w.nextStream, ∀ hist, OrdMap.Recent keep hist (w.segmentsAt a) →
    ∃ more, OrdMap.Recent keep (hist ++ more) (w'.segmentsAt a)
  became : ∀ x < w.memory.nextSegment, x < w'.memory.nextSegment ∧
    (w.memory.segment x).Became (w'.memory.segment x)

variable {env : Environment D} {cfg : Config} {brought : List (Str × Str)} {w w' : World D}
  {keep : Nat}

theorem Effect.became (h : Effect env cfg brought w w') {x : Nat} (hx : x < w.memory.nextSegment) :
    x < w'.memory.nextSegment ∧ (w.memory.segment x).Became (w'.memory.segment x) := by
  refine ⟨hx.trans_le h.segments.next, ?_⟩
  rcases h.segments.old x hx with hsame | ⟨now, file, -, hsame⟩
  · rw [hsame]
    exact .refl _
  · rw [hsame]
    exact Segment.became_cdnFileReceived _ _ _

theorem Keeps.effect (h : w.Keeps cfg) (he : Effect env cfg brought w w') : w'.Keeps cfg := by
  intro a s' hs'
  rcases he.stream hs' with hfresh | ⟨s, hs, hafter⟩
  · rw [hfresh]
    rfl
  · rw [hafter.segmentsToKeep]
    exact h a s hs

theorem Reachable.keeps [DoubleText D] (h : Reachable env cfg w) : w.Keeps cfg :=
  h.invariant (fun a _ hs => absurd hs.1 (Nat.not_lt_zero a)) fun _ _ _ he hw => hw.effect he

theorem Continues.refl (keep : Nat) (w : World D) : Continues keep w w :=
  ⟨le_rfl, fun _ _ hist h => ⟨[], by rwa [List.append_nil]⟩, fun _ hx => ⟨hx, .refl _⟩⟩

theorem Continues.trans {w'' : World D} (h : Continues keep w w') (h' : Continues keep w' w'') :
    Continues keep w w'' := by
  refine ⟨h.next.trans h'.next, fun a ha hist hist' => ?_, fun x hx => ?_⟩
  · obtain ⟨more, hmore⟩ := h.recent a ha hist hist'
    obtain ⟨more', hmore'⟩ := h'.recent a (ha.trans_le h.next) _ hmore
    exact ⟨more ++ more', by rwa [← List.append_assoc]⟩
  · obtain ⟨hx', hbecame⟩ := h.became x hx
    obtain ⟨hx'', hbecame'⟩ := h'.became x hx'
    exact ⟨hx'', hbecame.trans hbecame'⟩

theorem segmentsAt_congr (h : w'.stream = w.stream) (a : Nat) : w'.segmentsAt a = w.segmentsAt a := by
  unfold segmentsAt
  rw [h]

theorem segmentsAt_setContent (b : Nat) (c : ContentStream D) (a : Nat) :
    (w.setStream b ((w.stream b).setContent c)).segmentsAt a = w.segmentsAt a := by
  rw [segmentsAt_setStream]
  split_ifs with hab
  · subst hab
    unfold segmentsAt
    cases w.stream a <;> rfl
  · rfl

variable [DoubleText D]

theorem segmentsAt_setCdnEndpoint (b : Nat) (url : Str) (a : Nat) :
    (perform env (.setCdnEndpoint b url) w).state.segmentsAt a = w.segmentsAt a ∧
      (perform env (.setCdnEndpoint b url) w).state.nextStream = w.nextStream := by
  change (callSetCdnEndpoint env.rest b url w).state.segmentsAt a = _ ∧
    (callSetCdnEndpoint env.rest b url w).state.nextStream = _
  unfold callSetCdnEndpoint
  cases hs : w.stream b with
  | basic cs => exact ⟨rfl, rfl⟩
  | seamless s =>
    have hsegments : (s.setCdnEndpoint env.rest b url w.memory.cache).1.segments = s.segments := by
      unfold SeamlessContentStream.setCdnEndpoint
      split
      · rfl
      · dsimp only
        split_ifs <;> rfl
    have hset : (w.setStream b (.seamless
        (s.setCdnEndpoint env.rest b url w.memory.cache).1)).segmentsAt a = w.segmentsAt a := by
      rw [segmentsAt_setStream]
      split_ifs with hab
      · subst hab
        rw [segmentsAt_of_stream hs]
        exact hsegments
      · rfl
    dsimp only [AnyStream.asSeamless?]
    cases (s.setCdnEndpoint env.rest b url w.memory.cache).2.2 with
    | none => exact ⟨(segmentsAt_congr rfl a).trans hset, rfl⟩
    | some e => exact ⟨(segmentsAt_congr rfl a).trans hset, rfl⟩

theorem segmentsAt_addAndStart (service b a : Nat) :
    (perform env (.addAndStartContentStream service b) w).state.segmentsAt a = w.segmentsAt a ∧
      (perform env (.addAndStartContentStream service b) w).state.nextStream = w.nextStream := by
  change (addAndStartContentStream env service b w).state.segmentsAt a = _ ∧
    (addAndStartContentStream env service b w).state.nextStream = _
  unfold addAndStartContentStream
  dsimp only
  cases ((w.service service).matchStream (w.stream b).content).start with
  | error e => exact ⟨(segmentsAt_congr rfl a).trans (segmentsAt_setContent b _ a), rfl⟩
  | ok cs =>
    refine ⟨(segmentsAt_congr ?_ a).trans (segmentsAt_setContent b cs a), rfl⟩
    exact Function.update_idem ..

variable (env) in
theorem windows_change {c : WorldChange D} (hc : ∀ a i r, c ≠ .reception a i r) :
    w.nextStream ≤ (w.change env c).nextStream ∧
      ∀ a < w.nextStream, (w.change env c).segmentsAt a = w.segmentsAt a := by
  cases c with
  | reception a i r => exact absurd rfl (hc a i r)
  | items | download | cacheCheck => exact ⟨le_rfl, fun a _ => segmentsAt_congr rfl a⟩
  | call op =>
    cases op with
    | newStream s =>
      refine ⟨Nat.le_succ _, fun a ha => ?_⟩
      change (w.setStream w.nextStream s).segmentsAt a = _
      rw [segmentsAt_setStream, if_neg ha.ne]
    | setCdnEndpoint b url =>
      exact ⟨(segmentsAt_setCdnEndpoint b url 0).2.ge, fun a _ => (segmentsAt_setCdnEndpoint b url a).1⟩
    | addAndStartContentStream service b =>
      exact ⟨(segmentsAt_addAndStart service b 0).2.ge, fun a _ => (segmentsAt_addAndStart service b a).1⟩
    | readMasterManifest service manifest basePath =>
      change w.nextStream ≤ (callReadMasterManifest service manifest basePath w).state.nextStream ∧
        ∀ a < w.nextStream, (callReadMasterManifest service manifest basePath w).state.segmentsAt a = _
      unfold callReadMasterManifest
      split <;> exact ⟨le_rfl, fun a _ => segmentsAt_congr rfl a⟩
    | newService | addName | setDeliveryProtocol | setBasePath | setService | getService
      | deliveryProtocol | basePath | contentStreamCount =>
      exact ⟨le_rfl, fun a _ => segmentsAt_congr rfl a⟩

theorem receive_cases (b : Nat) (indeterminate : Int) (r : Reception) :
    (w.receive b indeterminate r).1.stream = w.stream ∧
      (w.receive b indeterminate r).1.nextStream = w.nextStream ∨
    ∃ s, w.stream b = .seamless s ∧
      ((∃ call, (w.receive b indeterminate r).1 =
        w.storeStream b (SeamlessContentStream.playlistStep (s, w.memory) call)) ∨
      ∃ files, (w.receive b indeterminate r).1 =
        w.storeStream b ({ s with fluteFiles := files }, w.memory)) := by
  unfold receive
  cases hs : w.stream b with
  | basic cs => cases r <;> exact .inl ⟨rfl, rfl⟩
  | seamless s =>
    cases r with
    | fluteFile file =>
      right
      refine ⟨s, rfl, ?_⟩
      dsimp only [SeamlessContentStream.fluteFileReceived]
      split_ifs
      · exact .inl ⟨⟨indeterminate, file.buffer, .broadcast⟩,
          storeResult_handlePlaylist hs ⟨indeterminate, file.buffer, .broadcast⟩ _⟩
      · exact .inr ⟨s.fluteFiles, rfl⟩
      · exact .inr ⟨s.fluteFiles.set file.contentLocation file, rfl⟩
    | cdnPlaylist content =>
      dsimp only
      split_ifs
      · exact .inr ⟨s, rfl, .inl ⟨⟨indeterminate, content, .cdn⟩,
          storeResult_handlePlaylist hs ⟨indeterminate, content, .cdn⟩ _⟩⟩
      · exact .inl ⟨rfl, rfl⟩

theorem window_receive (b : Nat) (hkeep : ∀ s, w.stream b = .seamless s → s.keepCount = keep)
    (indeterminate : Int) (r : Reception) :
    (w.receive b indeterminate r).1.nextStream = w.nextStream ∧ ∀ a hist,
      OrdMap.Recent keep hist (w.segmentsAt a) →
      ∃ more, OrdMap.Recent keep (hist ++ more) ((w.receive b indeterminate r).1.segmentsAt a) := by
  have hsame : ∀ (w' : World D) (a : Nat) (hist : List (Int × Nat)),
      w'.segmentsAt a = w.segmentsAt a → OrdMap.Recent keep hist (w.segmentsAt a) →
      ∃ more, OrdMap.Recent keep (hist ++ more) (w'.segmentsAt a) := by
    intro w' a hist hsegments h
    exact ⟨[], by rwa [List.append_nil, hsegments]⟩
  rcases receive_cases (w := w) b indeterminate r with ⟨hstream, hnext⟩ | ⟨s, hs, ⟨call, hcall⟩ | ⟨files, hfiles⟩⟩
  · exact ⟨hnext, fun a hist => hsame _ a hist (segmentsAt_congr hstream a)⟩
  · rw [hcall]
    refine ⟨rfl, fun a hist h => ?_⟩
    by_cases hab : a = b
    · subst hab
      rw [segmentsAt_of_stream hs, ← hkeep s hs] at h
      rw [segmentsAt_storeStream, if_pos rfl, ← hkeep s hs]
      exact SeamlessContentStream.playlistStep_recent (s, w.memory) h call
    · refine hsame _ a hist ?_ h
      rw [segmentsAt_storeStream, if_neg hab]
  · rw [hfiles]
    refine ⟨rfl, fun a hist => hsame _ a hist ?_⟩
    rw [segmentsAt_storeStream]
    split_ifs with hab
    · rw [hab, segmentsAt_of_stream hs]
    · rfl

theorem continues_change (hw : w.Keeps cfg) {c : WorldChange D} (hc : w.Permitted env cfg c) :
    Continues cfg.keepCount w (w.change env c) := by
  have hbecame : ∀ x < w.memory.nextSegment, x < (w.change env c).memory.nextSegment ∧
      (w.memory.segment x).Became ((w.change env c).memory.segment x) := by
    intro x hx
    exact Effects.invariant (I := fun v => x < v.memory.nextSegment ∧
      (w.memory.segment x).Became (v.memory.segment x))
      (fun _ _ he hv => ⟨(he.became hv.1).1, hv.2.trans (he.became hv.1).2⟩) (effects_change hc)
      ⟨hx, .refl _⟩
  by_cases hreception : ∃ a i r, c = .reception a i r
  · obtain ⟨b, i, r, rfl⟩ := hreception
    have hkeep : ∀ s, w.stream b = .seamless s →
        s.keepCount = cfg.keepCount := by
      intro s hs
      rw [SeamlessContentStream.keepCount, hw b s ⟨hc, hs⟩, Config.keepCount]
    obtain ⟨hnext, hrecent⟩ := window_receive b hkeep i r
    exact ⟨hnext.ge, fun a _ hist h => hrecent a hist h, hbecame⟩
  · obtain ⟨hnext, hwindows⟩ := windows_change (w := w) (c := c) env
      fun a i r h => hreception ⟨a, i, r, h⟩
    refine ⟨hnext, fun a ha hist h => ⟨[], ?_⟩, hbecame⟩
    rwa [List.append_nil, hwindows a ha]

end World

namespace System

variable [DoubleText D] {env : SystemEnvironment D} {cfg : SystemConfig} {s : System D}

theorem Sound.continues_step (h : s.Sound env cfg) (e : SystemEvent D) :
    World.Continues cfg.toConfig.keepCount s.world (s.step env cfg e).world := by
  rw [step_world]
  have hpermitted := h.permitted e
  rcases s.changes_cases env cfg e with hnone | ⟨c, hc⟩
  · rw [hnone]
    exact .refl _ _
  · rw [hc] at hpermitted ⊢
    exact World.continues_change h.world.keeps (hpermitted c List.mem_cons_self)

theorem Sound.continues_run (h : s.Sound env cfg) (es : List (SystemEvent D)) :
    World.Continues cfg.toConfig.keepCount s.world (es.foldl (System.step env cfg) s).world := by
  have hrun := Runs.foldl_invariant (I := fun t : System D => t.Sound env cfg ∧
    World.Continues cfg.toConfig.keepCount s.world t.world)
    (fun t e ht => ⟨ht.1.step e, ht.2.trans (ht.1.continues_step e)⟩) ⟨h, .refl _ _⟩ es
  exact hrun.2

theorem recent_run (es : List (SystemEvent D)) {a : Nat}
    (ha : a < (es.foldl (step env cfg) (start env cfg)).world.nextStream) :
    ∃ hist, OrdMap.Recent cfg.toConfig.keepCount hist
      ((es.foldl (step env cfg) (start env cfg)).world.segmentsAt a) :=
  ⟨_, OrdMap.recent_entries (window_size env cfg es ha)⟩

variable (env cfg) in
theorem continues_append (es es' : List (SystemEvent D)) :
    World.Continues cfg.toConfig.keepCount (es.foldl (step env cfg) (start env cfg)).world
      ((es ++ es').foldl (step env cfg) (start env cfg)).world := by
  rw [List.foldl_append]
  exact (sound_run es).continues_run es'

/-- A number that stays in a window stays the same segment. Its data do not change
any more where they were broadcast, nor does their source once there is one. -/
theorem segment_stays (es es' : List (SystemEvent D)) {a : Nat} {k : Int} {x y : Nat}
    (h : (es.foldl (step env cfg) (start env cfg)).world.Holds a k x)
    (h' : ((es ++ es').foldl (step env cfg) (start env cfg)).world.Holds a k y) :
    y = x ∧
    let before := (es.foldl (step env cfg) (start env cfg)).world.memory.segment x
    let after := ((es ++ es').foldl (step env cfg) (start env cfg)).world.memory.segment x
    before.Became after ∧
      (before.dataSource ≠ .unavailable → after.dataSource = before.dataSource) ∧
      (before.dataSource = .broadcast → after.buffer = before.buffer) := by
  have hcontinues := continues_append env cfg es es'
  obtain ⟨hist, hhist⟩ := recent_run es h.1
  obtain ⟨more, hmore⟩ := hcontinues.recent a h.1 hist hhist
  obtain ⟨-, hbecame⟩ := hcontinues.became x
    ((sound_run es).world.separate.allocated a k x h)
  exact ⟨hhist.find?_eq hmore h.2 h'.2, hbecame, hbecame.dataSource, hbecame.buffer⟩

/-- A number that has left a window is never in it again. -/
theorem number_gone (es es' es'' : List (SystemEvent D)) {a : Nat} {k : Int}
    (h : ∃ x, (es.foldl (step env cfg) (start env cfg)).world.Holds a k x)
    (h' : ¬ ∃ x, ((es ++ es').foldl (step env cfg) (start env cfg)).world.Holds a k x) :
    ¬ ∃ x, ((es ++ es' ++ es'').foldl (step env cfg) (start env cfg)).world.Holds a k x := by
  obtain ⟨x, ha, hx⟩ := h
  have hcontinues := continues_append env cfg es es'
  have hcontinues' := continues_append env cfg (es ++ es') es''
  obtain ⟨hist, hhist⟩ := recent_run es ha
  obtain ⟨more, hmore⟩ := hcontinues.recent a ha hist hhist
  obtain ⟨more', hmore'⟩ := hcontinues'.recent a (ha.trans_le hcontinues.next) _ hmore
  have hgone := hhist.find?_gone hmore hmore' (OrdMap.mem_keys.mpr ⟨x, hx⟩) fun hmem => by
    obtain ⟨y, hy⟩ := OrdMap.mem_keys.mp hmem
    exact h' ⟨y, ha.trans_le hcontinues.next, hy⟩
  rintro ⟨y, -, hy⟩
  exact hgone (OrdMap.mem_keys.mpr ⟨y, hy⟩)

/-- A segment has data, and at most `n` downloads of it are under way. -/
def Supplied (x n : Nat) (s : System D) : Prop :=
  x < s.world.memory.nextSegment ∧ (s.world.memory.segment x).dataSource ≠ .unavailable ∧
    s.state.downloads.count x ≤ n

theorem Sound.supplied_step (h : s.Sound env cfg) {x n : Nat} (hx : s.Supplied x n)
    (e : SystemEvent D) : (s.step env cfg e).Supplied x n := by
  obtain ⟨hlt, hdata, hcount⟩ := hx
  obtain ⟨hlt', hbecame⟩ := (h.continues_step e).became x hlt
  refine ⟨hlt', by rw [hbecame.dataSource hdata]; exact hdata, ?_⟩
  rcases downloads_step env cfg s e with hsame | ⟨y, hend⟩ | ⟨y, hy, hnew⟩
  · rw [hsame]
    exact hcount
  · rw [hend]
    exact (List.erase_sublist.count_le x).trans hcount
  · have hne : y ≠ x := fun hyx => hdata (hyx ▸ hy.2)
    rw [hnew, List.count_append, List.count_singleton, if_neg (by simpa using hne)]
    exact hcount

/-- When a segment has data, from broadcast or CDN, no download of it is begun any
more: those under way only become fewer. -/
theorem downloads_needed (es es' : List (SystemEvent D)) {x : Nat}
    (hx : x < (es.foldl (step env cfg) (start env cfg)).world.memory.nextSegment)
    (hdata : ((es.foldl (step env cfg) (start env cfg)).world.memory.segment x).dataSource ≠
      .unavailable) :
    ((es ++ es').foldl (step env cfg) (start env cfg)).state.downloads.count x ≤
      (es.foldl (step env cfg) (start env cfg)).state.downloads.count x := by
  rw [List.foldl_append]
  have hrun := Runs.foldl_invariant
    (I := fun t : System D => t.Sound env cfg ∧ t.Supplied x
      ((es.foldl (step env cfg) (start env cfg)).state.downloads.count x))
    (fun t e ht => ⟨ht.1.step e, ht.1.supplied_step ht.2 e⟩) ⟨sound_run es, hx, hdata, le_rfl⟩ es'
  exact hrun.2.2.2

section Example

/-- A service that can be had from the CDN only. -/
def cdnSystem : SystemEnvironment Int :=
  { broadcastSystem with toEnvironment := World.cdnEnvironment }

def cdnService : SystemConfig := { localService with seamless := true }

/-- The playlist of the stream is polled, and two requests for its segment are under
way, each of which has set off a download. -/
def demandedEvents : List (SystemEvent Int) :=
  [.reception 0 0 (.cdnPlaylist "#EXTM3U\n#EXT-X-MEDIA-SEQUENCE:1\na.ts\n".toList),
    .request .get (RestHandler.requestFor "/e/a.ts"), .call 0 1000 .none, .call 0 1000 .ok,
    .request .get (RestHandler.requestFor "/e/a.ts"), .call 1 1000 .none, .call 1 1000 .ok]

def downloadedEvents : List (SystemEvent Int) :=
  demandedEvents ++ [.download 0 1000 "x".toList]

theorem segment_stays_through_download :
    0 = 0 ∧
    let before := (demandedEvents.foldl (step cdnSystem cdnService)
      (start cdnSystem cdnService)).world.memory.segment 0
    let after := (downloadedEvents.foldl (step cdnSystem cdnService)
      (start cdnSystem cdnService)).world.memory.segment 0
    before.Became after ∧
      (before.dataSource ≠ .unavailable → after.dataSource = before.dataSource) ∧
      (before.dataSource = .broadcast → after.buffer = before.buffer) := by
  have hheld : ∀ es ∈ [demandedEvents, downloadedEvents],
      0 < (es.foldl (step cdnSystem cdnService) (start cdnSystem cdnService)).world.nextStream ∧
      ((es.foldl (step cdnSystem cdnService)
        (start cdnSystem cdnService)).world.segmentsAt 0).find? 1 = some 0 := by
    decide +kernel
  exact segment_stays _ _ (hheld _ (by simp)) (hheld downloadedEvents (by simp))

/-- One of the two downloads has ended, and the segment is asked for again. -/
theorem downloads_needed_downloaded :
    let asked : List (SystemEvent Int) := [.request .get (RestHandler.requestFor "/e/a.ts"),
      .call 2 1000 .none, .call 2 1000 .ok]
    ((downloadedEvents ++ asked).foldl (step cdnSystem cdnService)
        (start cdnSystem cdnService)).state.downloads.count 0 ≤
      (downloadedEvents.foldl (step cdnSystem cdnService)
        (start cdnSystem cdnService)).state.downloads.count 0 :=
  downloads_needed _ _ (by decide +kernel) (by decide +kernel)

def narrowService : SystemConfig :=
  { localService with seamless := true, maxSegmentsPerStream := some 1 }

def playlistEvent (number : String) : SystemEvent Int :=
  .reception 0 0 (.fluteFile { Session.playlistFile with
    buffer := ("#EXTM3U\n#EXT-X-MEDIA-SEQUENCE:" ++ number ++ "\na.ts\n").toList })

theorem number_gone_relisted :
    ¬ ∃ x, (([playlistEvent "1"] ++ [playlistEvent "2"] ++ [playlistEvent "1"]).foldl
      (step broadcastSystem narrowService) (start broadcastSystem narrowService)).world.Holds 0 1 x := by
  have hheld : 0 < ([playlistEvent "1"].foldl (step broadcastSystem narrowService)
        (start broadcastSystem narrowService)).world.nextStream ∧
      (([playlistEvent "1"].foldl (step broadcastSystem narrowService)
        (start broadcastSystem narrowService)).world.segmentsAt 0).find? 1 = some 0 ∧
      ((([playlistEvent "1"] ++ [playlistEvent "2"]).foldl (step broadcastSystem narrowService)
        (start broadcastSystem narrowService)).world.segmentsAt 0).find? 1 = none := by
    decide +kernel
  refine number_gone _ _ _ ⟨0, hheld.1, hheld.2.1⟩ fun ⟨x, _, hx⟩ => ?_
  exact Option.some_ne_none x (hx.symm.trans hheld.2.2)

end Example

end System

end MbmsMiddleware
