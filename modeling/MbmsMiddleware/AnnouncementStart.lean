import MbmsMiddleware.AbsentElements
import MbmsMiddleware.GeneratedEntries
import MbmsMiddleware.Process

/-! Which service announcement the process holds: the local one, or that of the
first announcement channel, and whether anything can come of it. -/

namespace MbmsMiddleware

namespace ServiceAnnouncement

def started (dest : Str) (sa : ServiceAnnouncement) : ServiceAnnouncement :=
  if ':' ∈ dest then
    let mcastAddr := dest.takeWhile (· ≠ ':')
    let mcastPort := (dest.dropWhile (· ≠ ':')).drop 1
    { sa with
      mcastAddr := mcastAddr
      mcastPort := mcastPort
      fluteReceiver := some ⟨sa.iface, mcastAddr, Text.atoi mcastPort, sa.tsi⟩ }
  else sa

/-- A receiver was started on the address and port of the announcement. -/
def Receiving (sa : ServiceAnnouncement) : Prop :=
  sa.fluteReceiver = some ⟨sa.iface, sa.mcastAddr, Text.atoi sa.mcastPort, sa.tsi⟩

theorem receiving_started {sa : ServiceAnnouncement} (h : sa.fluteReceiver = none) (dest : Str) :
    (sa.started dest).Receiving ↔ ':' ∈ dest := by
  unfold started
  by_cases hd : ':' ∈ dest
  · rw [if_pos hd]
    exact ⟨fun _ => hd, fun _ => rfl⟩
  · rw [if_neg hd, Receiving, h]
    exact ⟨fun h' => (by cases h'), fun h' => absurd h' hd⟩

theorem tmgi_started (dest : Str) (sa : ServiceAnnouncement) :
    (sa.started dest).tmgi = sa.tmgi := by
  unfold started
  split <;> rfl

theorem startFluteReceiver_of_none {sa : ServiceAnnouncement} (h : sa.fluteReceiver = none)
    (dest : Str) : sa.startFluteReceiver dest = .ok (sa.started dest) := by
  unfold startFluteReceiver started
  by_cases hd : ':' ∈ dest
  · rw [if_pos hd, if_pos hd, h]
    rfl
  · rw [if_neg hd, if_neg hd]
    rfl

end ServiceAnnouncement

namespace Process

variable {D : Type} (cfg : ProcessConfig)

def readMch (mch : Json D) : Except Fault (List Mtch) := do
  let mtchs ← mch.field "mtchs".toList >>= Json.asArray
  mtchs.mapM Mtch.read

/-- The channels of a reply, in order. -/
def channels (mchs : Except Fault (Json D)) : Except Fault (List Mtch) := do
  let mchs ← mchs >>= Json.asArray
  let channels ← mchs.mapM readMch
  pure channels.flatten

def newAnnouncement (mtch : Mtch) : ServiceAnnouncement :=
  { tmgi := mtch.tmgi, tsi := cfg.serviceAnnouncementTsi, iface := cfg.iface }

/-- The announcement of a channel, once its reception was attempted. -/
def tuneIn (mtch : Mtch) : ServiceAnnouncement := (newAnnouncement cfg mtch).started mtch.dest

def announces (mtch : Mtch) : Bool := mtch.dest ≠ [] ∧ mtch.isServiceAnnouncement

def consider (m : Process D) (mtch : Mtch) : Process D :=
  if announces mtch ∧ m.serviceAnnouncement = none then
    { m with serviceAnnouncement := some (tuneIn cfg mtch) }
  else m

theorem handleMtch_ensures (mtch : Json D) (m : Process D) :
    (handleMtch cfg mtch m).Ensures
      (fun _ m' => ∃ c, Mtch.read mtch = .ok c ∧ m' = m.consider cfg c)
      (fun e _ => Mtch.read mtch = .error e) := by
  apply EStateM.ensures_bind
  apply EStateM.ensures_ofExcept
  cases hread : Mtch.read mtch with
  | error e => rfl
  | ok c =>
    apply EStateM.ensures_get
    by_cases h : c.dest ≠ [] ∧ c.isServiceAnnouncement = true ∧ m.serviceAnnouncement.isNone = true
    · rw [if_pos h]
      apply EStateM.ensures_modify
      apply EStateM.ensures_bind
      apply EStateM.ensures_ofExcept
      rw [ServiceAnnouncement.startFluteReceiver_of_none rfl]
      refine ⟨c, rfl, ?_⟩
      have hannounces : announces c = true ∧ m.serviceAnnouncement = none := by
        simpa [announces, and_assoc] using h
      rw [consider, if_pos hannounces]
      rfl
    · rw [if_neg h]
      refine ⟨c, rfl, ?_⟩
      have hannounces : ¬ (announces c = true ∧ m.serviceAnnouncement = none) := by
        simpa [announces, and_assoc] using h
      rw [consider, if_neg hannounces]

theorem handleMch_ensures (mch : Json D) (m : Process D) :
    (handleMch cfg mch m).Ensures
      (fun _ m' => ∃ l, readMch mch = .ok l ∧ m' = l.foldl (consider cfg) m)
      (fun e _ => readMch mch = .error e) := by
  unfold readMch
  apply EStateM.ensures_bind
  apply EStateM.ensures_ofExcept
  cases mch.field "mtchs".toList >>= Json.asArray with
  | error e => rfl
  | ok mtchs => exact EStateM.ensures_forM_mapM (handleMtch_ensures cfg) m

theorem foldl_consider (l : List Mtch) (m : Process D) :
    l.foldl (consider cfg) m =
      { m with serviceAnnouncement :=
          m.serviceAnnouncement.or ((l.find? announces).map (tuneIn cfg)) } := by
  induction l generalizing m with
  | nil => simp
  | cons c l ih =>
    rw [List.foldl_cons, ih, List.find?_cons, consider]
    cases hm : m.serviceAnnouncement with
    | some sa => simp [hm]
    | none =>
      cases hc : announces c with
      | false => simp [hm]
      | true => simp

/-- The process after a tick that came to its end and found `found`. -/
def ticked (clock : Clock) (m : Process D) (found : Option Mtch) : Process D :=
  let m := { m with serviceAnnouncement := m.serviceAnnouncement.or (found.map (tuneIn cfg)) }
  { checkFileExpiryAndCacheSize cfg clock m with timer := m.timer + 1, armed := true }

/-- A tick comes to its end when all channels of the reply can be read. -/
theorem tickHandler_does (mchs : Except Fault (Json D)) (clock : Clock) (m : Process D) :
    (tickHandler cfg mchs clock m).Ensures
      (fun _ m' => ∃ l, channels mchs = .ok l ∧ m' = ticked cfg clock m (l.find? announces))
      (fun e _ => channels mchs = .error e) := by
  unfold channels
  apply EStateM.ensures_modify
  apply EStateM.ensures_bind
  apply EStateM.ensures_ofExcept
  cases mchs >>= Json.asArray with
  | error e => rfl
  | ok mchs =>
    apply EStateM.ensures_bind
    apply (EStateM.ensures_forM_mapM (handleMch_ensures cfg) _).mono
    · rintro _ m' ⟨ls, hls, rfl⟩
      refine ⟨ls.flatten, ?_, ?_⟩
      · show (mchs.mapM readMch >>= fun ls => pure ls.flatten) = _
        rw [hls]
        rfl
      · rw [← List.foldl_flatten, foldl_consider]
        rfl
    · intro e _ he
      show (mchs.mapM readMch >>= fun ls => pure ls.flatten) = _
      rw [he]
      rfl

theorem tickHandler_ensures (mchs : Except Fault (Json D)) (clock : Clock) (m : Process D) :
    (tickHandler cfg mchs clock m).Ensures
      (fun _ m' => ∃ l, channels mchs = .ok l ∧ m'.serviceAnnouncement =
        m.serviceAnnouncement.or
          ((l.find? announces).map (tuneIn cfg)))
      (fun e _ => channels mchs = .error e) := by
  apply (tickHandler_does cfg mchs clock m).mono
  · rintro _ m' ⟨l, hl, rfl⟩
    exact ⟨l, hl, rfl⟩
  · exact fun _ _ he => he

/-- A reply and the time during the housekeeping pass. -/
abbrev Tick (D : Type) := Except Fault (Json D) × Clock

end Process

/-- The process from its start on. An exception that leaves the tick handler ends
it. `localParsed` is what `_handle_local_service_announcement` returned. -/
structure ProcessRun (D : Type) where
  process : Process D
  running : Bool
  localParsed : Bool

namespace ProcessRun

open Process

variable {D : Type} (cfg : ProcessConfig)

def tick (r : ProcessRun D) (t : Tick D) : ProcessRun D :=
  if r.running then
    let result := tickHandler cfg t.1 t.2 r.process
    { r with process := result.state, running := result.fault?.isNone }
  else r

/-- A local announcement was parsed, or a receiver was started on the address and
port of an announcement channel. -/
def Working (r : ProcessRun D) : Prop :=
  r.localParsed = true ∨ ∃ sa, r.process.serviceAnnouncement = some sa ∧ sa.Receiving

/-- The next reply whose first announcement channel has an address and a port
makes the process receive the announcement there. -/
def Ready (r : ProcessRun D) : Prop :=
  ∀ (t : Tick D) (l : List Mtch) (c : Mtch), channels t.1 = .ok l → l.find? announces = some c →
    ':' ∈ c.dest → (r.tick cfg t).Working ∧ ∀ sa,
      (r.tick cfg t).process.serviceAnnouncement = some sa → sa.tmgi = c.tmgi

/-- A local announcement that was parsed is there. -/
def Announced (r : ProcessRun D) : Prop :=
  r.running = true → r.localParsed = true → r.process.serviceAnnouncement ≠ none

/-- Whatever announcement there is works, and where none works a later channel
can be used. -/
def Sound (r : ProcessRun D) : Prop :=
  r.running = true → (r.process.serviceAnnouncement ≠ none → r.Working) ∧
    (¬ r.Working → r.Ready cfg)

/-- The first announcement channel that the process turns to has an address and
a port. -/
def ValidChannel (r : ProcessRun D) (t : Tick D) : Prop :=
  r.running = true → r.process.serviceAnnouncement = none →
    ∀ l c, channels t.1 = .ok l → l.find? announces = some c → ':' ∈ c.dest

theorem tick_of_error {r : ProcessRun D} {t : Tick D} {e : Fault} (h : channels t.1 = .error e) :
    (r.tick cfg t).running = false := by
  unfold tick
  by_cases hr : r.running
  · rw [if_pos hr]
    have ht := tickHandler_ensures cfg t.1 t.2 r.process
    cases hresult : tickHandler cfg t.1 t.2 r.process with
    | error e' m => rfl
    | ok u m =>
      rw [hresult] at ht
      obtain ⟨l, hl, _⟩ := ht
      rw [h] at hl
      cases hl
  · rw [if_neg hr]
    simpa using hr

theorem tick_of_channels {r : ProcessRun D} {t : Tick D} {l : List Mtch} (hr : r.running = true)
    (h : channels t.1 = .ok l) :
    (r.tick cfg t).running = true ∧ (r.tick cfg t).localParsed = r.localParsed ∧
      (r.tick cfg t).process.serviceAnnouncement = r.process.serviceAnnouncement.or
        ((l.find? announces).map (tuneIn cfg)) := by
  unfold tick
  rw [if_pos hr]
  have ht := tickHandler_ensures cfg t.1 t.2 r.process
  cases hresult : tickHandler cfg t.1 t.2 r.process with
  | error e m =>
    rw [hresult] at ht
    rw [show channels t.1 = .error e from ht] at h
    cases h
  | ok u m =>
    rw [hresult] at ht
    obtain ⟨l', hl', hsa⟩ := ht
    rw [h] at hl'
    cases hl'
    exact ⟨rfl, rfl, hsa⟩

theorem ready_of_none {r : ProcessRun D} (hr : r.running = true)
    (hnone : r.process.serviceAnnouncement = none) : r.Ready cfg := by
  intro t l c hl hc hdest
  obtain ⟨_, _, hsa⟩ := tick_of_channels cfg hr hl
  rw [hnone, hc] at hsa
  constructor
  · exact .inr ⟨_, hsa, (ServiceAnnouncement.receiving_started rfl c.dest).mpr hdest⟩
  · intro sa h
    rw [hsa] at h
    cases h
    exact ServiceAnnouncement.tmgi_started c.dest _

theorem sound_iff {r : ProcessRun D} :
    r.Sound cfg ↔ (r.running = true → r.process.serviceAnnouncement ≠ none → r.Working) := by
  constructor
  · exact fun h hr => (h hr).1
  · intro h hr
    refine ⟨h hr, fun hworking => ready_of_none cfg hr ?_⟩
    by_contra hne
    exact hworking (h hr hne)

theorem sound_tick_iff {r : ProcessRun D} (hs : r.Sound cfg)
    (hparsed : r.Announced) (t : Tick D) : (r.tick cfg t).Sound cfg ↔ r.ValidChannel t := by
  rw [sound_iff] at hs ⊢
  unfold ValidChannel
  by_cases hr : r.running = true
  · cases hl : channels t.1 with
    | error e =>
      have hdead := tick_of_error cfg (r := r) hl
      constructor
      · intro _ _ _ l c h
        cases h
      · intro _ hr'
        rw [hdead] at hr'
        cases hr'
    | ok l =>
      obtain ⟨hr', hlocal, hsa⟩ := tick_of_channels cfg hr hl
      cases hcur : r.process.serviceAnnouncement with
      | some sa =>
        rw [hcur] at hsa
        have hworking : r.Working := hs hr (by rw [hcur]; simp)
        have hworking' : (r.tick cfg t).Working := by
          rcases hworking with h | ⟨sa', h, hrec⟩
          · exact .inl (hlocal.trans h)
          · rw [hcur] at h
            cases h
            exact .inr ⟨sa, hsa, hrec⟩
        exact ⟨fun _ _ h => (by cases h), fun _ _ _ => hworking'⟩
      | none =>
        unfold Announced at hparsed
        rw [hcur] at hsa hparsed
        have hnot : ¬ (r.tick cfg t).localParsed = true := by
          rw [hlocal]
          exact fun h => hparsed hr h rfl
        constructor
        · intro h _ _ l' c hl' hc
          cases hl'
          rw [hc] at hsa
          rcases h hr' (by rw [hsa]; simp) with h | ⟨sa, h, hrec⟩
          · exact absurd h hnot
          · rw [hsa] at h
            cases h
            exact (ServiceAnnouncement.receiving_started rfl c.dest).mp hrec
        · intro h _ hne
          cases hc : l.find? announces with
          | none =>
            rw [hc] at hsa
            exact absurd hsa hne
          | some c =>
            rw [hc] at hsa
            have hdest := h hr rfl l c rfl hc
            exact .inr ⟨_, hsa, (ServiceAnnouncement.receiving_started rfl c.dest).mpr hdest⟩
  · have htick : r.tick cfg t = r := if_neg hr
    rw [htick]
    exact ⟨fun _ h => absurd h hr, fun _ h => absurd h hr⟩

theorem announced_tick {r : ProcessRun D} (h : r.Announced) (t : Tick D) :
    (r.tick cfg t).Announced := by
  by_cases hr : r.running = true
  · cases hl : channels t.1 with
    | error e =>
      intro hr'
      rw [tick_of_error cfg hl] at hr'
      cases hr'
    | ok l =>
      obtain ⟨_, hlocal, hsa⟩ := tick_of_channels cfg hr hl
      intro _ hparsed hnone
      rw [hlocal] at hparsed
      rw [hsa, Option.or_eq_none_iff] at hnone
      exact h hr hparsed hnone.1
  · have htick : r.tick cfg t = r := if_neg hr
    rw [htick]
    exact h

variable [DoubleText D] (env : ProcessEnvironment D)

/-- The process at its start; a crash in the constructor ends it at once. -/
def begin : ProcessRun D :=
  let result := start env cfg { world := .initial env.toEnvironment }
  { process := result.state
    running := result.fault?.isNone
    localParsed := match result with
      | .ok used _ => used
      | .error _ _ => false }

def usesLocalService : Prop := cfg.localServiceEnabled = true ∧ cfg.localBootstrapFile ≠ []

/-- What is wrong with the local service announcement. -/
def localFaults : List Fault :=
  ServiceAnnouncement.announcementFaults D cfg.toConfig
    ((World.initial env.toEnvironment : World D).addServiceAnnouncementItems env.toEnvironment
      (env.readFile cfg.localBootstrapFile)).items env.toEnvironment

/-- No exception ends the reading of the local announcement. -/
def LocalAnnouncementReadable : Prop :=
  usesLocalService cfg → ∀ e, (localFaults cfg env).head? = some e → e.isException = false

def localAnnouncement : ServiceAnnouncement :=
  { tmgi := cfg.localTmgi, tsi := 0, iface := cfg.iface }

theorem begin_of_not_local (h : ¬ usesLocalService cfg) :
    (begin cfg env).process.serviceAnnouncement = none ∧ (begin cfg env).localParsed = false := by
  have hstart : handleLocalServiceAnnouncement env cfg { world := .initial env.toEnvironment } =
      .ok false { world := .initial env.toEnvironment } := if_neg h
  simp only [begin, start, bind, EStateM.bind, hstart]
  exact ⟨rfl, rfl⟩

theorem begin_of_local (h : usesLocalService cfg) :
    (∃ sa, (begin cfg env).process.serviceAnnouncement = some sa ∧ ¬ sa.Receiving) ∧
      ((begin cfg env).localParsed = true ↔ (localFaults cfg env).head? = none) ∧
      ((begin cfg env).running = true ↔
        ∀ e, (localFaults cfg env).head? = some e → e.isException = true) := by
  have hfault := World.parseBootstrap_fault env.toEnvironment cfg.toConfig
    (env.readFile cfg.localBootstrapFile) (World.initial env.toEnvironment)
  have hreceiving : ¬ (localAnnouncement cfg).Receiving := fun h => (by cases h)
  unfold localFaults
  rw [← hfault]
  cases hparse : World.parseBootstrap env.toEnvironment cfg.toConfig
      (env.readFile cfg.localBootstrapFile) (World.initial env.toEnvironment) with
  | ok u w =>
    have hlocal : handleLocalServiceAnnouncement env cfg { world := .initial env.toEnvironment } =
        .ok true { world := w, serviceAnnouncement := some (localAnnouncement cfg) } := by
      apply (if_pos h).trans
      dsimp only
      rw [hparse]
      rfl
    simp only [begin, start, bind, EStateM.bind, hlocal]
    refine ⟨⟨_, rfl, hreceiving⟩, ⟨fun _ => rfl, fun _ => rfl⟩, ⟨fun _ e he => ?_, fun _ => rfl⟩⟩
    cases he
  | error e w =>
    by_cases he : e.isException = true
    · have hlocal : handleLocalServiceAnnouncement env cfg { world := .initial env.toEnvironment } =
          .ok false { world := w, serviceAnnouncement := some (localAnnouncement cfg) } := by
        apply (if_pos h).trans
        dsimp only
        rw [hparse]
        exact if_pos he
      simp only [begin, start, bind, EStateM.bind, hlocal]
      refine ⟨⟨_, rfl, hreceiving⟩, ⟨fun h => ?_, fun h => ?_⟩, ⟨fun _ e' h => ?_, fun _ => rfl⟩⟩
      · cases h
      · cases h
      · cases h
        exact he
    · have hlocal : handleLocalServiceAnnouncement env cfg { world := .initial env.toEnvironment } =
          .error e { world := w, serviceAnnouncement := some (localAnnouncement cfg) } := by
        apply (if_pos h).trans
        dsimp only
        rw [hparse]
        exact if_neg he
      simp only [begin, start, bind, EStateM.bind, hlocal]
      refine ⟨⟨_, rfl, hreceiving⟩, ⟨fun h => ?_, fun h => ?_⟩, ⟨fun h => ?_, fun h => ?_⟩⟩
      · cases h
      · cases h
      · cases h
      · exact absurd (h e rfl) he

theorem sound_begin_iff : (begin cfg env).Sound cfg ↔ LocalAnnouncementReadable cfg env := by
  rw [sound_iff]
  by_cases h : usesLocalService cfg
  · obtain ⟨⟨sa, hsa, hreceiving⟩, hparsed, hrunning⟩ := begin_of_local cfg env h
    have hworking : (begin cfg env).Working ↔ (localFaults cfg env).head? = none := by
      rw [← hparsed]
      constructor
      · rintro (hp | ⟨sa', hsa', hreceiving'⟩)
        · exact hp
        · rw [hsa] at hsa'
          cases hsa'
          exact absurd hreceiving' hreceiving
      · exact .inl
    rw [hworking, hrunning]
    unfold LocalAnnouncementReadable
    cases hhead : (localFaults cfg env).head? with
    | none => exact ⟨fun _ _ e he => (by cases he), fun _ _ _ => rfl⟩
    | some e =>
      constructor
      · intro hs _ e' he'
        cases he'
        by_contra hexc
        have hexc' : ∀ e', some e = some e' → e'.isException = true := by
          intro e' he'
          cases he'
          simpa using hexc
        cases hs hexc' (by rw [hsa]; simp)
      · intro hr hexc _
        exact absurd (hexc e rfl) (by simp [hr h e rfl])
  · obtain ⟨hsa, _⟩ := begin_of_not_local cfg env h
    exact ⟨fun _ h' => absurd h' h, fun _ _ hne => absurd hsa hne⟩

/-- In every run, the announcement that is held works, and leaves the process
ready for a later one where none works, exactly when the local announcement can
be read and every channel turned to has an address and a port. -/
theorem set_announcement_works (ticks : List (Tick D)) :
    (∀ pre, pre <+: ticks → (pre.foldl (tick cfg) (begin cfg env)).Sound cfg) ↔
      LocalAnnouncementReadable cfg env ∧
        Runs.StepsMeet (tick cfg) ValidChannel (begin cfg env) ticks := by
  have hparsed : (begin cfg env).Announced := by
    intro _ hparsed hnone
    by_cases h : usesLocalService cfg
    · obtain ⟨⟨sa, hsa, _⟩, _⟩ := begin_of_local cfg env h
      rw [hsa] at hnone
      cases hnone
    · rw [(begin_of_not_local cfg env h).2] at hparsed
      cases hparsed
  have hruns : (begin cfg env).Sound cfg →
      ((∀ pre, pre <+: ticks → (pre.foldl (tick cfg) (begin cfg env)).Sound cfg) ↔
        Runs.StepsMeet (tick cfg) ValidChannel (begin cfg env) ticks) := fun hs =>
    Runs.prefixes_iff_stepsMeet (I := Announced) (G := Sound cfg) (A := fun _ => True)
      (fun r t _ hr _ _ => announced_tick cfg hr t)
      (fun r t _ hr hs => sound_tick_iff cfg hs hr t) hparsed hs (fun _ _ => trivial)
  rw [← sound_begin_iff]
  constructor
  · intro h
    have hs : (begin cfg env).Sound cfg := h [] (List.nil_prefix)
    exact ⟨hs, (hruns hs).mp h⟩
  · rintro ⟨hs, h⟩
    exact (hruns hs).mpr h

section Example

/-- A reply with one announcement channel. -/
def announcementChannel (dest : String) : Json Int :=
  .array [.object [("mtchs".toList, .array [.object
    [("tmgi".toList, .string "000001".toList), ("dest".toList, .string dest.toList)]])]]

def defaultProcessConfig : ProcessConfig where
  cacheManagement := .ofSettings none none true

def processEnvironment : ProcessEnvironment Int where
  toEnvironment := ServiceAnnouncement.bareEnvironment
  decompress s := .ok s
  behind _ := ['\x00']
  readFile _ := []

/-- A channel without a port is held on to. -/
theorem channel_without_port_held :
    ¬ ∀ pre, pre <+: [((.ok (announcementChannel "239.0.0.1"), stoppedClock) : Tick Int)] →
      (pre.foldl (tick defaultProcessConfig)
        (begin defaultProcessConfig processEnvironment)).Sound defaultProcessConfig := by
  intro h
  have hchannels : channels (.ok (announcementChannel "239.0.0.1")) =
      .ok [⟨"000001".toList, "239.0.0.1".toList, true⟩] := rfl
  have hstart := begin_of_not_local defaultProcessConfig processEnvironment
    (by simp [usesLocalService, defaultProcessConfig])
  obtain ⟨hr, hlocal, hsa⟩ := tick_of_channels defaultProcessConfig
    (r := begin defaultProcessConfig processEnvironment)
    (t := (.ok (announcementChannel "239.0.0.1"), stoppedClock)) rfl hchannels
  rw [hstart.1] at hsa
  have hne : (none.or (Option.map (tuneIn defaultProcessConfig) (List.find? announces
      [⟨"000001".toList, "239.0.0.1".toList, true⟩]))) ≠ none := fun h => (by cases h)
  rw [← hsa] at hne
  rcases (sound_iff _).mp (h _ (List.prefix_refl _)) hr hne with hparsed | ⟨sa, hsa', hreceiving⟩
  · cases (hlocal.trans hstart.2).symm.trans hparsed
  · cases hsa.symm.trans hsa'
    cases hreceiving

end Example

end ProcessRun

end MbmsMiddleware
