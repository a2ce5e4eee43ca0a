import MbmsMiddleware.AtomicAnnouncements

/-! The local service announcement. A middleware that reads it from a file
provides what one that receives the same text provides. -/

namespace MbmsMiddleware

variable {D : Type} [DoubleText D]

namespace System

variable {env : SystemEnvironment D} {cfg : SystemConfig} {p : Provision D} {s : System D}

/-- The process takes no announcement and provides what it provides. -/
structure Settled (p : Provision D) (s : System D) : Prop where
  world : s.world.provision = p
  idle : s.running = true → s.handlers = []
  unreceived : s.running = true →
    ∃ sa, s.state.process.serviceAnnouncement = some sa ∧ sa.fluteReceiver = none

theorem start_of_not_local (h : ¬ ProcessRun.usesLocalService cfg.toProcessConfig) :
    (start env cfg).world = .initial env.toEnvironment := by
  have hlocal : Process.handleLocalServiceAnnouncement env.toProcessEnvironment cfg.toProcessConfig
      { world := .initial env.toEnvironment } =
        .ok false { world := .initial env.toEnvironment } := if_neg h
  simp only [start, Process.start, bind, EStateM.bind, hlocal]
  rfl

/-- Where the local announcement can be handled, the process starts with what it
provides. -/
theorem settled_start (h : ProcessRun.usesLocalService cfg.toProcessConfig) {w : World D}
    (hparse : World.parseBootstrap env.toEnvironment cfg.toConfig
      (env.readFile cfg.localBootstrapFile) (.initial env.toEnvironment) = .ok () w) :
    (start env cfg).Settled w.provision := by
  have hlocal : Process.handleLocalServiceAnnouncement env.toProcessEnvironment cfg.toProcessConfig
      { world := .initial env.toEnvironment } =
        .ok true
          { world := w
            serviceAnnouncement := some (ProcessRun.localAnnouncement cfg.toProcessConfig) } := by
    refine (if_pos h).trans ?_
    dsimp only
    rw [hparse]
    rfl
  have hstart : (start env cfg : System D) =
      { state := { process :=
          { world := w
            serviceAnnouncement := some (ProcessRun.localAnnouncement cfg.toProcessConfig)
            armed := true } }
        firstStream := w.nextStream
        firstService := w.nextService
        running := decide (w.KeepsStreams w.nextStream) } := by
    simp only [start, Process.start, bind, EStateM.bind, hlocal]
    rfl
  rw [hstart]
  exact ⟨rfl, fun _ => rfl, fun _ => ⟨_, rfl, rfl⟩⟩

omit [DoubleText D] in
theorem tick_announcement {sa : ServiceAnnouncement}
    (h : s.state.process.serviceAnnouncement = some sa) (mchs : Except Fault (Json D))
    (clock : Clock) (hr : (s.tick cfg mchs clock).running = true) :
    (s.tick cfg mchs clock).state.process.serviceAnnouncement = some sa := by
  have hdoes := Process.tickHandler_does cfg.toProcessConfig mchs clock s.state.process
  unfold tick at hr ⊢
  cases htick : Process.tickHandler cfg.toProcessConfig mchs clock s.state.process with
  | ok u m =>
    rw [htick] at hdoes
    obtain ⟨l, -, rfl⟩ := hdoes
    exact congrArg (Option.or · _) h
  | error e m =>
    rw [htick] at hr
    cases hr

theorem announcement_aside {sa : ServiceAnnouncement}
    (h : s.state.process.serviceAnnouncement = some sa) {e : SystemEvent D}
    (he : e.ofAnnouncement = false) (hr : (s.step env cfg e).running = true) :
    (s.step env cfg e).state.process.serviceAnnouncement = some sa := by
  unfold System.step at hr ⊢
  split_ifs at hr ⊢
  · cases e with
    | announcement file => cases he
    | handler => cases he
    | reception address indeterminate r => exact h
    | download segment now file =>
      dsimp only
      unfold RestState.cdnCompletion
      split_ifs <;> exact h
    | tick mchs clock => exact tick_announcement h mchs clock hr
    | request method message => exact h
    | call idx now answer =>
      obtain ⟨downloads, replies, requests, hcall⟩ := call_frame env s idx now answer
      dsimp only
      rw [hcall]
      exact h

theorem Settled.step (h : s.Settled p) (e : SystemEvent D) : (s.step env cfg e).Settled p := by
  by_cases hr : s.running = true ∧ s.Defined env e
  · obtain ⟨sa, hsa, hreceiver⟩ := h.unreceived hr.1
    cases he : e.ofAnnouncement with
    | false =>
      have haside := aside_step env cfg s he
      refine ⟨haside.world.trans h.world, fun hr' => haside.handlers.trans (h.idle hr.1), ?_⟩
      exact fun hr' => ⟨sa, announcement_aside hsa he hr', hreceiver⟩
    | true =>
      have hsame : s.step env cfg e = s := by
        unfold System.step
        rw [if_pos hr]
        cases e with
        | announcement file =>
          dsimp only
          unfold announce
          rw [hsa]
          dsimp only
          rw [hreceiver, if_neg (by simp)]
        | handler =>
          have hidle := h.idle hr.1
          have hproceed : s.session.proceed env.toEnvironment = s.session := by
            unfold Session.proceed
            rw [show s.session.handlers = [] from hidle]
          have hover : ¬ (s.startsDescription = true ∨ s.handlers.length < s.handlers.length) := by
            simp [startsDescription, hidle]
          dsimp only
          unfold proceed
          rw [hproceed]
          exact if_neg hover
        | reception | download | tick | request | call => cases he
      rw [hsame]
      exact h
  · rw [step_of_undefined env cfg hr]
    exact ⟨h.world, fun hr' => (Bool.false_ne_true hr').elim, fun hr' => (Bool.false_ne_true hr').elim⟩

variable (env cfg) (cfg' : SystemConfig)

/-- A middleware that reads a local announcement provides, throughout its run, what
one provides that has received the same text and has handled it. -/
theorem local_agrees (hcfg : cfg'.toConfig = cfg.toConfig)
    (hlocal : ProcessRun.usesLocalService cfg.toProcessConfig)
    (hbroadcast : ¬ ProcessRun.usesLocalService cfg'.toProcessConfig)
    {es es' : List (SystemEvent D)}
    (htexts : Runs.trace (step env cfg') (announcedTexts env) (start env cfg') es' =
      [env.readFile cfg.localBootstrapFile]) :
    let s' := es'.foldl (step env cfg') (start env cfg')
    s'.running = true → s'.handlers = [] →
      (es.foldl (step env cfg) (start env cfg)).world.provision = s'.world.provision := by
  intro s' hr hidle
  have hrun := provided_run env cfg' (s := start env cfg') rfl es'
  rw [htexts, start_of_not_local hbroadcast] at hrun
  obtain ⟨w, hw, hprovision⟩ := hrun.idle hr hidle
  have hparse : World.parseBootstrap env.toEnvironment cfg.toConfig
      (env.readFile cfg.localBootstrapFile) (.initial env.toEnvironment) = .ok () w := by
    rw [← hcfg]
    exact (EStateM.forM_concat (l := []) rfl _).symm.trans hw
  have hsettled : (es.foldl (step env cfg) (start env cfg)).Settled w.provision :=
    Runs.foldl_invariant (fun _ e h => h.step e) (settled_start hlocal hparse) es
  exact hsettled.world.trans hprovision.symm

section Example

def announcedSystem : SystemEnvironment Int :=
  { broadcastSystem with readFile := fun _ => announcementFile.buffer }

def receivedEvents : List (SystemEvent Int) :=
  .tick (.ok (ProcessRun.announcementChannel "239.0.0.1:4000")) stoppedClock ::
    .announcement announcementFile :: interleavedEvents

def localSeamless : SystemConfig := { localService with seamless := true }

theorem local_agrees_received :
    ([.reception 0 0 (.fluteFile Session.playlistFile)].foldl (step announcedSystem localSeamless)
        (start announcedSystem localSeamless)).world.provision =
      (receivedEvents.foldl (step announcedSystem seamlessService)
        (start announcedSystem seamlessService)).world.provision :=
  local_agrees announcedSystem localSeamless seamlessService rfl ⟨rfl, by decide⟩
    (fun h => absurd h.1 (by decide)) (by decide +kernel) (by decide +kernel)
    (List.isEmpty_iff.mp (by decide +kernel))

end Example

end System

end MbmsMiddleware
