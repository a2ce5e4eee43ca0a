import MbmsMiddleware.AnnouncementStart
import MbmsMiddleware.FileRequests
import MbmsMiddleware.ObjectLifetimes
import MbmsMiddleware.Projections
import MbmsMiddleware.RestReplies
import MbmsMiddleware.SegmentOwners
import MbmsMiddleware.VariantHistories

/-! The middleware as a whole. The handlers of an announcement and the requests
go on call by call, and in between come files, playlists, downloads, ticks and
further requests. -/

namespace MbmsMiddleware

structure SystemEnvironment (D : Type) extends ProcessEnvironment D, RestEnvironment D

structure SystemConfig extends ProcessConfig, RestConfig

/-- `handlers` holds what is left of the handlers of the announcement, the one
under way first. The streams from `firstStream` on and the services from
`firstService` on are those of the description under way. The middleware runs
until the process ends, or until something undefined would happen: from there on
nothing is known of it. -/
structure System (D : Type) where
  state : RestState D
  handlers : List (Handler D Unit) := []
  requests : List (Request D) := []
  firstStream : Nat := 0
  firstService : Nat := 0
  running : Bool := true

inductive HttpMethod where
  | get
  | put

/-- A file of the announcement, the next call of its handlers, a reception, the
end of a download, a tick, a request and the next call of a request, with what
the clock and the CDN answer. -/
inductive SystemEvent (D : Type) where
  | announcement (file : FluteFile)
  | handler
  | reception (address : Nat) (indeterminate : Int) (r : Reception)
  | download (segment now : Nat) (file : Str)
  | tick (mchs : Except Fault (Json D)) (clock : Clock)
  | request (method : HttpMethod) (message : HttpRequest)
  | call (idx now : Nat) (answer : CdnResponse)

/-- A file of the announcement, or the next call of its handlers. -/
def SystemEvent.ofAnnouncement {D : Type} : SystemEvent D → Bool
  | .announcement _ | .handler => true
  | _ => false

namespace System

variable {D : Type}

def world (s : System D) : World D := s.state.process.world

def session (s : System D) : Session D where
  world := s.world
  handlers := s.handlers
  running := s.running

def withSession (s : System D) (t : Session D) : System D :=
  { s with state := s.state.withWorld t.world, handlers := t.handlers, running := t.running }

def withProcess (s : System D) (m : Process D) : System D :=
  { s with state := { s.state with process := m } }

def withAnnouncement (s : System D) (sa : ServiceAnnouncement) : System D :=
  s.withProcess { s.state.process with serviceAnnouncement := some sa }

variable [DoubleText D] (env : SystemEnvironment D) (cfg : SystemConfig)

/-- The announcement's receiver hands over a file. -/
def announce (s : System D) (file : FluteFile) : System D :=
  match s.state.process.serviceAnnouncement with
  | some sa =>
    if sa.fluteReceiver.isSome ∧ s.handlers.isEmpty then
      match sa.textToParse env.toReceptionEnvironment file with
      | (sa, .ok (some str)) =>
        let s := s.withAnnouncement sa
        s.withSession (s.session.begin env.toEnvironment cfg.toConfig str)
      | (sa, .ok none) => s.withAnnouncement sa
      | (sa, .error _) => { s.withAnnouncement sa with running := false }
    else s
  | none => s

def tick (s : System D) (mchs : Except Fault (Json D)) (clock : Clock) : System D :=
  match Process.tickHandler cfg.toProcessConfig mchs clock s.state.process with
  | .ok _ m => s.withProcess m
  | .error _ m => { s.withProcess m with running := false }

omit [DoubleText D] in
def handler (message : HttpRequest) : HttpMethod → RestProgram D Unit
  | .get => RestHandler.get env.toRestEnvironment cfg.toRestConfig message
  | .put => RestHandler.put env.toRestEnvironment cfg.toRestConfig message

omit [DoubleText D] in
def request (s : System D) (method : HttpMethod) (message : HttpRequest) : System D :=
  { s with requests := s.requests ++ [{ program := handler env cfg message method }] }

def answering (now : Nat) (answer : CdnResponse) : RestEnvironment D :=
  { env.toRestEnvironment with now := now, cdnResponse := fun _ _ => answer }

def call (s : System D) (idx now : Nat) (answer : CdnResponse) : System D :=
  match s.requests[idx]? with
  | some q =>
    let (q, state) := q.advance (answering env now answer) s.state
    { s with state := state, requests := s.requests.set idx q }
  | none => s

omit [DoubleText D] in
/-- A description begins by looking its service up. -/
def startsDescription (s : System D) : Bool :=
  match s.handlers with
  | .call (.getService _) _ :: _ => true
  | _ => false

/-- No description is under way. -/
def betweenDescriptions (s : System D) : System D :=
  { s with firstStream := s.world.nextStream, firstService := s.world.nextService }

def proceed (s : System D) : System D :=
  let t := s.withSession (s.session.proceed env.toEnvironment)
  if s.startsDescription ∨ t.handlers.length < s.handlers.length then t.betweenDescriptions else t

/-- A step is defined if no seamless stream is let go, a download that ends does
so for a segment that is still there, and so is the next call of a request. -/
def Defined (s : System D) : SystemEvent D → Prop
  | .handler =>
    (s.proceed env).running = true → (s.proceed env).world.KeepsStreams (s.proceed env).firstStream
  | .download segment _ _ => segment ∈ s.state.downloads → s.world.HasSegment segment
  | .call idx now answer => ∀ q ∈ s.requests[idx]?, q.Defined (answering env now answer)
      (s.world.Lives s.firstStream s.firstService) s.state
  | .announcement _ | .reception .. | .tick .. | .request .. => True

instance (s : System D) : (e : SystemEvent D) → Decidable (s.Defined env e)
  | .handler => inferInstanceAs (Decidable (_ → _))
  | .download .. => inferInstanceAs (Decidable (_ → _))
  | .call .. => inferInstanceAs (Decidable (∀ q ∈ _, _))
  | .announcement _ | .reception .. | .tick .. | .request .. => .isTrue trivial

def step (s : System D) (e : SystemEvent D) : System D :=
  if s.running ∧ s.Defined env e then
    match e with
    | .announcement file => s.announce env cfg file
    | .handler => s.proceed env
    | .reception address indeterminate r => s.withSession (s.session.receive address indeterminate r)
    | .download segment now file => { s with state := s.state.cdnCompletion segment now file }
    | .tick mchs clock => s.tick cfg mchs clock
    | .request method message => s.request env cfg method message
    | .call idx now answer => s.call env idx now answer
  else { s with running := false }

theorem step_of_undefined {s : System D} {e : SystemEvent D}
    (h : ¬ (s.running = true ∧ s.Defined env e)) : s.step env cfg e = { s with running := false } :=
  if_neg h

/-- Only defined steps go on. -/
theorem goes_of_running {s : System D} {e : SystemEvent D} (h : (s.step env cfg e).running = true) :
    s.running = true ∧ s.Defined env e := by
  by_contra hr
  rw [step_of_undefined env cfg hr] at h
  cases h

theorem step_of_not_running {s : System D} (h : ¬ s.running = true) (e : SystemEvent D) :
    s.step env cfg e = s := by
  rw [step_of_undefined env cfg fun hr => h hr.1]
  cases s
  simpa using h

theorem proceed_frame (s : System D) : ∃ firstStream firstService, s.proceed env =
    { s.withSession (s.session.proceed env.toEnvironment) with
      firstStream := firstStream
      firstService := firstService } := by
  unfold proceed
  dsimp only
  split_ifs <;> exact ⟨_, _, rfl⟩

/-- The process after the local announcement, if it has one. -/
def start : System D :=
  let result := Process.start env.toProcessEnvironment cfg.toProcessConfig
    { world := .initial env.toEnvironment }
  let w := result.state.world
  { state := { process := result.state }
    firstStream := w.nextStream
    firstService := w.nextService
    running := result.fault?.isNone && decide (w.KeepsStreams w.nextStream) }

theorem announce_frame (s : System D) (file : FluteFile) :
    ∃ process handlers running, s.announce env cfg file =
      { s with
        state := { s.state with process := process }
        handlers := handlers
        running := running } := by
  unfold announce
  split
  · split_ifs
    · split <;> exact ⟨_, _, _, rfl⟩
    · exact ⟨_, _, _, rfl⟩
  · exact ⟨_, _, _, rfl⟩

omit [DoubleText D] in
theorem tick_frame (s : System D) (mchs : Except Fault (Json D)) (clock : Clock) :
    ∃ process running, s.tick cfg mchs clock =
      { s with state := { s.state with process := process }, running := running } := by
  unfold tick
  split <;> exact ⟨_, _, rfl⟩

omit [DoubleText D] in
/-- The call of a request changes requests, downloads and replies. -/
theorem call_frame (s : System D) (idx now : Nat) (answer : CdnResponse) :
    ∃ downloads replies requests, s.call env idx now answer =
      { s with
        state := { process := s.state.process, downloads := downloads, replies := replies }
        requests := requests } := by
  unfold call
  cases s.requests[idx]? with
  | none => exact ⟨_, _, _, rfl⟩
  | some q =>
    have hprocess := Request.advance_process (answering env now answer) q s.state
    exact ⟨_, _, _, by rw [← hprocess]⟩

section Example

/-- A local announcement of a service that is delivered over broadcast. -/
def broadcastSystem : SystemEnvironment Int where
  toEnvironment := Session.broadcastEnvironment
  decompress s := .ok s
  behind _ := ['\x00']
  readFile _ := []
  decode := RestHandler.plainRest.decode
  splitPath := RestHandler.plainRest.splitPath
  cdnResponse := RestHandler.plainRest.cdnResponse
  now := RestHandler.plainRest.now
  bufferFirst := RestHandler.plainRest.bufferFirst

def localService : SystemConfig where
  cacheManagement := .ofSettings none none true
  localServiceEnabled := true
  localBootstrapFile := "sa.multipart".toList

end Example

end System

end MbmsMiddleware
