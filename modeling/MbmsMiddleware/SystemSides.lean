import MbmsMiddleware.BroadcastSide
import MbmsMiddleware.SystemRuns

/-! What the sides of the middleware have to do with each other. Requests,
downloads and housekeeping change nothing of what the broadcast decides. -/

namespace MbmsMiddleware

namespace Process

variable {D : Type} (cfg : ProcessConfig)

/-- The reply can be read and has no announcement channel. -/
def silent (mchs : Except Fault (Json D)) : Bool :=
  match channels mchs with
  | .ok l => (l.find? announces).isNone
  | .error _ => false

theorem silent_iff {mchs : Except Fault (Json D)} :
    silent mchs = true ↔ ∃ l, channels mchs = .ok l ∧ l.find? announces = none := by
  unfold silent
  cases channels mchs <;> simp

def broadcastSide (m : Process D) : World D × Option ServiceAnnouncement :=
  (m.world.broadcastSide, m.serviceAnnouncement)

theorem broadcastSide_handleMtch (mtch : Json D) :
    EStateM.Respects broadcastSide (handleMtch cfg mtch) := by
  refine EStateM.respects_bind (EStateM.respects_ofExcept _) fun mtch => ?_
  refine EStateM.respects_get (fun m m' h => ?_) fun m => ?_
  · rw [(Prod.mk.inj h).2]
  · split_ifs
    · refine EStateM.respects_bind (EStateM.respects_modify fun m m' h => ?_) fun _ => ?_
      · exact congrArg (Prod.mk · _) (Prod.mk.inj h).1
      · refine EStateM.respects_bind (EStateM.respects_ofExcept _) fun sa => ?_
        refine EStateM.respects_modify fun m m' h => ?_
        exact congrArg (Prod.mk · _) (Prod.mk.inj h).1
    · exact EStateM.respects_pure _

theorem broadcastSide_tickHandler (mchs : Except Fault (Json D)) (clock : Clock) :
    EStateM.Respects broadcastSide (tickHandler cfg mchs clock) := by
  refine EStateM.respects_bind (EStateM.respects_modify fun m m' h => h) fun _ => ?_
  refine EStateM.respects_bind (EStateM.respects_ofExcept _) fun mchs => ?_
  refine EStateM.respects_bind (EStateM.respects_forM (fun mch => ?_) _) fun _ => ?_
  · refine EStateM.respects_bind (EStateM.respects_ofExcept _) fun mtchs => ?_
    exact EStateM.respects_forM (broadcastSide_handleMtch cfg) _
  · refine EStateM.respects_bind (EStateM.respects_modify fun m m' h => h) fun _ => ?_
    exact EStateM.respects_modify fun m m' h => h

end Process

namespace Session

variable {D : Type} [DoubleText D]

theorem broadcastSide_receive {s t : Session D}
    (h : s.seen World.broadcastSide = t.seen World.broadcastSide) (address : Nat)
    (indeterminate : Int) (r : Reception) :
    (s.receive address indeterminate r).seen World.broadcastSide =
      (t.receive address indeterminate r).seen World.broadcastSide := by
  obtain ⟨hworld, hrest⟩ := Prod.mk.inj h
  have hnext : s.world.nextStream = t.world.nextStream := (congrArg World.nextStream hworld :)
  unfold receive
  rw [hnext]
  split_ifs
  · obtain ⟨hhandlers, hrunning⟩ := Prod.mk.inj hrest
    refine Prod.ext (World.broadcastSide_receive hworld address indeterminate r)
      (Prod.ext hhandlers ?_)
    exact congrArg₂ and hrunning (congrArg Option.isNone
      (World.receiveFault?_congr hworld address indeterminate r))
  · exact h

end Session

namespace System

variable {D : Type}

/-- The middleware without its item map, what it has from the CDN, and its requests. -/
def broadcastSide (s : System D) : System D where
  state := { process :=
    { world := s.world.broadcastSide
      serviceAnnouncement := s.state.process.serviceAnnouncement } }
  handlers := s.handlers
  firstStream := s.firstStream
  firstService := s.firstService
  running := s.running

/-- The announcement, and the first objects of its description under way. -/
def described (s : System D) : Option ServiceAnnouncement × Nat × Nat :=
  (s.state.process.serviceAnnouncement, s.firstStream, s.firstService)

theorem broadcastSide_iff {s t : System D} :
    s.broadcastSide = t.broadcastSide ↔ s.session.seen World.broadcastSide =
        t.session.seen World.broadcastSide ∧ s.described = t.described := by
  constructor
  · intro h
    have hprocess := (congrArg (fun s : System D => s.state.process) h :)
    constructor
    · refine Prod.ext (congrArg Process.world hprocess :) (Prod.ext ?_ ?_)
      · exact (congrArg System.handlers h :)
      · exact (congrArg System.running h :)
    · refine Prod.ext (congrArg Process.serviceAnnouncement hprocess :) (Prod.ext ?_ ?_)
      · exact (congrArg System.firstStream h :)
      · exact (congrArg System.firstService h :)
  · rintro ⟨h, hdescribed⟩
    obtain ⟨hworld, hrest⟩ := Prod.mk.inj h
    obtain ⟨hhandlers, hrunning⟩ := Prod.mk.inj hrest
    obtain ⟨hsa, hfirst⟩ := Prod.mk.inj hdescribed
    obtain ⟨hstream, hservice⟩ := Prod.mk.inj hfirst
    unfold broadcastSide
    rw [hsa, hstream, hservice, show s.world.broadcastSide = t.world.broadcastSide from hworld,
      show s.handlers = t.handlers from hhandlers, show s.running = t.running from hrunning]

end System

namespace SystemEvent

/-- A file of the announcement, the next call of its handlers, a reception, or a
tick that does not just keep the cache in order. -/
def ofBroadcast {D : Type} : SystemEvent D → Bool
  | .announcement _ | .handler | .reception .. => true
  | .tick mchs _ => !Process.silent mchs
  | .download .. | .request .. | .call .. => false

end SystemEvent

namespace System

variable {D : Type} [DoubleText D] (env : SystemEnvironment D) (cfg : SystemConfig)

theorem broadcastSide_announce {s t : System D} (h : s.broadcastSide = t.broadcastSide)
    (file : FluteFile) :
    (s.announce env cfg file).broadcastSide = (t.announce env cfg file).broadcastSide := by
  obtain ⟨hseen, hdescribed⟩ := broadcastSide_iff.mp h
  obtain ⟨hsa, hfirst⟩ := Prod.mk.inj hdescribed
  have hhandlers : s.handlers = t.handlers := (congrArg System.handlers h :)
  have hannounced : ∀ sa : ServiceAnnouncement,
      (s.withAnnouncement sa).broadcastSide = (t.withAnnouncement sa).broadcastSide := fun sa =>
    broadcastSide_iff.mpr ⟨hseen, Prod.ext rfl hfirst⟩
  unfold announce
  rw [show t.state.process.serviceAnnouncement = s.state.process.serviceAnnouncement from hsa.symm,
    ← hhandlers]
  cases s.state.process.serviceAnnouncement with
  | none => exact h
  | some sa =>
    dsimp only
    split_ifs
    · rcases sa.textToParse env.toReceptionEnvironment file with ⟨sa, e | _ | str⟩
      · exact congrArg (fun s : System D => { s with running := false }) (hannounced sa)
      · exact hannounced sa
      · refine broadcastSide_iff.mpr ⟨?_, Prod.ext rfl hfirst⟩
        exact Session.seen_begin env.toEnvironment cfg.toConfig World.showsItems_broadcastSide
          (broadcastSide_iff.mp (hannounced sa)).1 str
    · exact h

omit [DoubleText D] in
theorem broadcastSide_withProcess {s t : System D}
    (h : s.broadcastSide = t.broadcastSide)
    {m m' : Process D} (hm : Process.broadcastSide m = Process.broadcastSide m') :
    (s.withProcess m).broadcastSide = (t.withProcess m').broadcastSide := by
  obtain ⟨hseen, hdescribed⟩ := broadcastSide_iff.mp h
  obtain ⟨hworld, hsa⟩ := Prod.mk.inj hm
  exact broadcastSide_iff.mpr
    ⟨Prod.ext hworld (Prod.mk.inj hseen).2, Prod.ext hsa (Prod.mk.inj hdescribed).2⟩

omit [DoubleText D] in
theorem broadcastSide_tick {s t : System D} (h : s.broadcastSide = t.broadcastSide)
    (mchs : Except Fault (Json D)) (clock : Clock) :
    (s.tick cfg mchs clock).broadcastSide = (t.tick cfg mchs clock).broadcastSide := by
  obtain ⟨hseen, hdescribed⟩ := broadcastSide_iff.mp h
  have hprocess : Process.broadcastSide s.state.process = Process.broadcastSide t.state.process :=
    Prod.ext (Prod.mk.inj hseen).1 (Prod.mk.inj hdescribed).1
  have hend := Process.broadcastSide_tickHandler cfg.toProcessConfig mchs clock hprocess
  unfold tick
  cases hs : Process.tickHandler cfg.toProcessConfig mchs clock s.state.process with
  | ok u m =>
    cases ht : Process.tickHandler cfg.toProcessConfig mchs clock t.state.process with
    | ok u' m' =>
      rw [hs, ht] at hend
      injection hend with _ hm
      exact broadcastSide_withProcess h hm
    | error e m' =>
      rw [hs, ht] at hend
      cases hend
  | error e m =>
    cases ht : Process.tickHandler cfg.toProcessConfig mchs clock t.state.process with
    | ok u' m' =>
      rw [hs, ht] at hend
      cases hend
    | error e' m' =>
      rw [hs, ht] at hend
      injection hend with _ hm
      exact congrArg (fun s : System D => { s with running := false })
        (broadcastSide_withProcess h hm)

theorem broadcastSide_proceed {s t : System D} (h : s.broadcastSide = t.broadcastSide) :
    (s.proceed env).broadcastSide = (t.proceed env).broadcastSide := by
  obtain ⟨hseen, hdescribed⟩ := broadcastSide_iff.mp h
  have hsession := Session.seen_proceed env.toEnvironment
    (World.broadcastSide_perform env.toEnvironment) hseen
  have hproceed : (s.withSession (s.session.proceed env.toEnvironment)).broadcastSide =
      (t.withSession (t.session.proceed env.toEnvironment)).broadcastSide :=
    broadcastSide_iff.mpr ⟨hsession, hdescribed⟩
  have hbetween : ∀ {s t : System D}, s.broadcastSide = t.broadcastSide →
      s.betweenDescriptions.broadcastSide = t.betweenDescriptions.broadcastSide := by
    intro s t h
    obtain ⟨hseen, hdescribed⟩ := broadcastSide_iff.mp h
    have hworld := (Prod.mk.inj hseen).1
    refine broadcastSide_iff.mpr ⟨hseen, Prod.ext (Prod.mk.inj hdescribed).1 (Prod.ext ?_ ?_)⟩
    · exact (congrArg World.nextStream hworld :)
    · exact (congrArg World.nextService hworld :)
  have hhandlers : s.handlers = t.handlers := (congrArg System.handlers h :)
  have hleft : (s.session.proceed env.toEnvironment).handlers =
      (t.session.proceed env.toEnvironment).handlers := (congrArg System.handlers hproceed :)
  have hstarts : s.startsDescription = t.startsDescription := by
    unfold startsDescription
    rw [hhandlers]
  have hover : s.startsDescription = true ∨
      (s.session.proceed env.toEnvironment).handlers.length < s.handlers.length ↔
    t.startsDescription = true ∨
      (t.session.proceed env.toEnvironment).handlers.length < t.handlers.length := by
    rw [hstarts, hhandlers, hleft]
  unfold proceed
  dsimp only
  by_cases ho : s.startsDescription = true ∨
      (s.session.proceed env.toEnvironment).handlers.length < s.handlers.length
  · exact (congrArg System.broadcastSide (if_pos ho)).trans
      ((hbetween hproceed).trans (congrArg System.broadcastSide (if_pos (hover.mp ho)).symm))
  · exact (congrArg System.broadcastSide (if_neg ho)).trans
      (hproceed.trans (congrArg System.broadcastSide (if_neg (mt hover.mpr ho)).symm))

omit [DoubleText D] in
theorem keepsStreams_congr {w w' : World D} (h : w.broadcastSide = w'.broadcastSide) (n : Nat) :
    w.KeepsStreams n ↔ w'.KeepsStreams n := by
  have hsame : w.broadcastSide.KeepsStreams n ↔ w.KeepsStreams n := Iff.rfl
  rw [← hsame, h]
  exact Iff.rfl

theorem defined_congr {s t : System D} (h : s.broadcastSide = t.broadcastSide) {e : SystemEvent D}
    (he : e.ofBroadcast = true) : s.Defined env e ↔ t.Defined env e := by
  cases e with
  | handler =>
    have hproceed := broadcastSide_proceed env h
    have hworld : (s.proceed env).world.broadcastSide = (t.proceed env).world.broadcastSide :=
      (Prod.mk.inj (broadcastSide_iff.mp hproceed).1).1
    have hrunning : (s.proceed env).running = (t.proceed env).running :=
      (congrArg System.running hproceed :)
    have hfirst : (s.proceed env).firstStream = (t.proceed env).firstStream :=
      (congrArg System.firstStream hproceed :)
    change (_ → World.KeepsStreams _ _) ↔ (_ → World.KeepsStreams _ _)
    rw [hrunning, hfirst, keepsStreams_congr hworld]
  | announcement | reception | tick => exact Iff.rfl
  | download | request | call => cases he

theorem broadcastSide_step {s t : System D} (h : s.broadcastSide = t.broadcastSide)
    {e : SystemEvent D} (he : e.ofBroadcast = true) :
    (s.step env cfg e).broadcastSide = (t.step env cfg e).broadcastSide := by
  obtain ⟨hseen, hdescribed⟩ := broadcastSide_iff.mp h
  have hrunning : s.running = t.running := (congrArg System.running h :)
  have hgoes : s.running = true ∧ s.Defined env e ↔ t.running = true ∧ t.Defined env e := by
    rw [hrunning, defined_congr env h he]
  unfold step
  by_cases hr : s.running = true ∧ s.Defined env e
  · rw [if_pos hr, if_pos (hgoes.mp hr)]
    cases e with
    | announcement file => exact broadcastSide_announce env cfg h file
    | handler => exact broadcastSide_proceed env h
    | reception address indeterminate r =>
      refine broadcastSide_iff.mpr ⟨?_, hdescribed⟩
      exact Session.broadcastSide_receive hseen address indeterminate r
    | tick mchs clock => exact broadcastSide_tick cfg h mchs clock
    | download segment now file => cases he
    | request method message => cases he
    | call idx now answer => cases he
  · rw [if_neg hr, if_neg fun ht => hr (hgoes.mpr ht)]
    exact congrArg (fun s : System D => { s with running := false }) h

omit [DoubleText D] in
theorem broadcastSide_housekeeping (s : System D) {mchs : Except Fault (Json D)} (clock : Clock)
    (h : (SystemEvent.tick mchs clock).ofBroadcast = false) :
    (s.tick cfg mchs clock).broadcastSide = s.broadcastSide := by
  have hdoes := Process.tickHandler_does cfg.toProcessConfig mchs clock s.state.process
  have hsilent : Process.silent mchs = true := by simpa [SystemEvent.ofBroadcast] using h
  obtain ⟨l, hl, hnone⟩ := Process.silent_iff.mp hsilent
  unfold tick
  cases hs : Process.tickHandler cfg.toProcessConfig mchs clock s.state.process with
  | error e m =>
    rw [hs] at hdoes
    cases hl.symm.trans hdoes
  | ok u m =>
    rw [hs] at hdoes
    obtain ⟨l', hl', rfl⟩ := hdoes
    cases hl.symm.trans hl'
    refine broadcastSide_withProcess (s := s) (t := s) rfl ?_
    rw [hnone]
    exact Prod.ext rfl Option.or_none

omit [DoubleText D] in
theorem broadcastSide_download (s : System D) (segment now : Nat) (file : Str) :
    System.broadcastSide { s with state := s.state.cdnCompletion segment now file } =
      s.broadcastSide := by
  have hsegment : ∀ seg : Segment D,
      (seg.cdnFileReceived now file).broadcastSide = seg.broadcastSide := fun _ => rfl
  have hmemory : (fun a => (Function.update s.world.memory.segment segment
      ((s.world.memory.segment segment).cdnFileReceived now file) a).broadcastSide) =
        fun a => (s.world.memory.segment a).broadcastSide := by
    rw [World.apply_update Segment.broadcastSide, hsegment]
    exact Function.update_eq_self segment fun a => (s.world.memory.segment a).broadcastSide
  unfold RestState.cdnCompletion
  split_ifs
  · exact congrArg (fun segments => { s.broadcastSide with state := { process :=
      { world := { s.world with memory :=
          { segment := segments, nextSegment := s.world.memory.nextSegment, cache := .empty } }
        serviceAnnouncement := s.state.process.serviceAnnouncement } } }) hmemory
  · rfl

theorem broadcastSide_unnoticed (s : System D) {e : SystemEvent D} (he : e.ofBroadcast = false)
    (hr : (s.step env cfg e).running = true) :
    (s.step env cfg e).broadcastSide = s.broadcastSide := by
  unfold step
  rw [if_pos (goes_of_running env cfg hr)]
  cases e with
  | announcement file => cases he
  | handler => cases he
  | reception address indeterminate r => cases he
  | tick mchs clock => exact broadcastSide_housekeeping cfg s clock he
  | download segment now file => exact broadcastSide_download s segment now file
  | request method message => rfl
  | call idx now answer =>
    obtain ⟨downloads, replies, requests, hcall⟩ := call_frame env s idx now answer
    dsimp only
    rw [hcall]
    rfl

/-- In a run that goes on to its end, requests, what comes from the CDN for them,
and housekeeping have no part in what the broadcast decides. -/
theorem requests_leave_broadcast (s : System D) (es : List (SystemEvent D))
    (hend : (es.foldl (step env cfg) s).running = true) :
    (es.foldl (step env cfg) s).broadcastSide =
      ((es.filter SystemEvent.ofBroadcast).foldl (step env cfg) s).broadcastSide := by
  refine Runs.view_filter broadcastSide (fun s : System D => s.running = true) ?_ ?_ ?_ rfl hend
  · exact fun s e h => (goes_of_running env cfg h).1
  · exact fun s e he h => broadcastSide_unnoticed env cfg s he h
  · exact fun s t e he h => broadcastSide_step env cfg h he

section Example

def seamlessService : SystemConfig where
  seamless := true
  cacheManagement := .ofSettings none none true

def receivingSystem : System Int where
  state := { process :=
    { world := .initial broadcastSystem.toEnvironment
      serviceAnnouncement := some
        { tmgi := "000001".toList, tsi := 0, iface := []
          fluteReceiver := some ⟨[], "239.0.0.1".toList, 4000, 0⟩ } } }

def announcementFile : FluteFile where
  contentLocation := "sa.multipart".toList
  toi := 1
  contentType := []
  buffer := "sa".toList
  receivedAt := 1000
  complete := true

/-- The playlist of a stream is received and asked for before its handler is done. -/
def interleavedEvents : List (SystemEvent Int) :=
  List.replicate 8 .handler ++
    [.reception 0 0 (.fluteFile Session.playlistFile),
      .request .get (RestHandler.requestFor "/v.m3u8"), .call 0 1000 .none] ++
    List.replicate 4 .handler

theorem requests_leave_broadcast_interleaved :
    let es := .announcement announcementFile :: interleavedEvents ++
      [.tick (.ok (.array [])) stoppedClock]
    (es.foldl (step broadcastSystem seamlessService) receivingSystem).broadcastSide =
      ((es.filter SystemEvent.ofBroadcast).foldl (step broadcastSystem seamlessService)
        receivingSystem).broadcastSide :=
  requests_leave_broadcast broadcastSystem seamlessService receivingSystem _ (by decide +kernel)

end Example

end System

end MbmsMiddleware
