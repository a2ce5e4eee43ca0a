import MbmsMiddleware.AbsentElements
import MbmsMiddleware.Registry
import MbmsMiddleware.WindowHistory

/-! The middleware as it runs: the handlers of an announcement go on call by
call, and in between the streams receive files and playlists. -/

namespace MbmsMiddleware

/-- What reaches a stream from outside. -/
inductive Reception where
  | fluteFile (file : FluteFile)
  | cdnPlaylist (content : Str)

namespace World

variable {D : Type}

def storeStream (address : Nat) (st : SeamlessContentStream D × Memory D) (w : World D) : World D :=
  { w.setStream address (.seamless st.1) with memory := st.2 }

def storeResult (address : Nat) (isPlaylist : Bool) (w : World D) :
    Except Fault (SeamlessContentStream D × Memory D) → World D × Bool
  | .ok st => (w.storeStream address st, isPlaylist)
  | .error _ => (w, false)

variable [DoubleText D]

/-- The flag tells whether it was a media playlist of the stream. A playlist
that does not parse leaves everything as it was, for the process ends with it. -/
def receive (address : Nat) (indeterminate : Int) (r : Reception) (w : World D) : World D × Bool :=
  match w.stream address, r with
  | .basic cs, .fluteFile file =>
    ({ w with memory := { w.memory with cache := cs.fluteFileReceived w.memory.cache file } },
      file.contentLocation = cs.playlistPath)
  | .basic _, .cdnPlaylist _ => (w, false)
  | .seamless s, .fluteFile file =>
    w.storeResult address (file.contentLocation = s.playlistPath)
      (SeamlessContentStream.fluteFileReceived indeterminate file (s, w.memory))
  | .seamless s, .cdnPlaylist content =>
    if s.cdnClient.isSome then
      w.storeResult address true
        (SeamlessContentStream.handlePlaylist indeterminate content .cdn (s, w.memory))
    else (w, false)

/-- What a reception throws, and nothing catches. -/
def receiveFault? (address : Nat) (indeterminate : Int) (r : Reception) (w : World D) : Option Fault :=
  match w.stream address, r with
  | .basic _, _ => none
  | .seamless s, .fluteFile file =>
    (SeamlessContentStream.fluteFileReceived indeterminate file (s, w.memory)).fault?
  | .seamless s, .cdnPlaylist content =>
    if s.cdnClient.isSome then
      (SeamlessContentStream.handlePlaylist indeterminate content .cdn (s, w.memory)).fault?
    else none

end World

/-- `handlers` holds what is left of the handlers of the announcement, the one
under way first, and `played` records the streams that have received a media
playlist. -/
structure Session (D : Type) where
  world : World D
  handlers : List (Handler D Unit) := []
  running : Bool := true
  played : List Nat := []

inductive SessionEvent where
  | announcement (str : Str)
  | call
  | reception (address : Nat) (indeterminate : Int) (r : Reception)

namespace Session

variable {D : Type} [DoubleText D] (env : Environment D) (cfg : Config)

/-- An announcement up to its user service descriptions. -/
def readAnnouncement (str : Str) : Action D (List Item) := do
  modify fun w => w.addServiceAnnouncementItems env str
  let envelopes := (← get).items.filter (·.contentType = ContentTypeConstants.mbmsEnvelope)
  envelopes.forM (World.handleMbmsEnvelope env)
  pure ((← get).items.filter (·.contentType = ContentTypeConstants.mbmsUserServiceDescription))

def handlerOf (w : World D) (item : Item) : Handler D Unit :=
  ServiceAnnouncement.handleUserServiceDescriptionBundle cfg w.items env.rest (env.xml item.content)

def begin (s : Session D) (str : Str) : Session D :=
  match readAnnouncement env str s.world with
  | .ok bundles w => { s with world := w, handlers := bundles.map (handlerOf env cfg w) }
  | .error _ w => { s with world := w, handlers := [], running := false }

/-- A handler ends with a `std::exception`, or the process with anything else. -/
def raise (s : Session D) (e : Fault) (w : World D) (rest : List (Handler D Unit)) : Session D :=
  if e.isStdException then { s with world := w, handlers := rest }
  else { s with world := w, handlers := [], running := false }

def proceed (s : Session D) : Session D :=
  match s.handlers with
  | [] => s
  | .pure () :: rest => { s with handlers := rest }
  | .throw e :: rest => s.raise e s.world rest
  | .call op next :: rest =>
    match World.perform env op s.world with
    | .ok r w => { s with world := w, handlers := next r :: rest }
    | .error e w => s.raise e w rest

def receive (s : Session D) (address : Nat) (indeterminate : Int) (r : Reception) : Session D :=
  if address < s.world.nextStream then
    let (w, isPlaylist) := s.world.receive address indeterminate r
    { s with
      world := w
      played := if isPlaylist then address :: s.played else s.played
      running := s.running && (s.world.receiveFault? address indeterminate r).isNone }
  else s

def step (s : Session D) (e : SessionEvent) : Session D :=
  if s.running then
    match e with
    | .announcement str => if s.handlers.isEmpty then s.begin env cfg str else s
    | .call => s.proceed env
    | .reception address indeterminate r => s.receive address indeterminate r
  else s

def initial : Session D where
  world := .initial env

omit [DoubleText D] in
theorem readAnnouncement_registry (str : Str) (w : World D) :
    (readAnnouncement env str w).Ensures (fun _ w' => w'.registry = w.registry)
      (fun _ w' => w'.registry = w.registry) := by
  have hregistry : ∀ w' : World D, (w.addServiceAnnouncementItems env str).Revalidated w' →
      w'.registry = w.registry := by
    intro w' h
    rw [h.frame]
    rfl
  refine EStateM.ensures_modify (EStateM.ensures_get (EStateM.ensures_bind ?_))
  refine (World.handleMbmsEnvelopes_ensures env _ _).mono ?_ ?_
  · exact fun _ w' h => EStateM.ensures_get (hregistry w' h.2)
  · exact fun _ w' h => hregistry w' h.2

/-- The session once a handler has come to its end. -/
def after (s : Session D) (rest : List (Handler D Unit)) :
    EStateM.Result Fault (World D) Unit → Session D
  | .ok _ w => { s with world := w, handlers := rest }
  | .error _ w => { s with world := w, handlers := [], running := false }

theorem foldl_call_handler (p : Handler D Unit) {rest : List (Handler D Unit)} {s : Session D}
    (hrun : s.running = true) (hs : s.handlers = p :: rest) :
    ∃ n, (List.replicate n SessionEvent.call).foldl (step env cfg) s =
      s.after rest (World.catchStdException (p.run (World.perform env)) s.world) := by
  have hstep : step env cfg s .call = s.proceed env := by simp [step, hrun]
  induction p generalizing s with
  | pure u =>
    refine ⟨1, ?_⟩
    rw [List.replicate_one, List.foldl_cons, List.foldl_nil, hstep, proceed, hs]
    rfl
  | throw e =>
    refine ⟨1, ?_⟩
    rw [List.replicate_one, List.foldl_cons, List.foldl_nil, hstep]
    simp only [proceed, hs, raise, World.catchStdException, Program.run]
    split <;> rfl
  | call op next ih =>
    cases hop : World.perform env op s.world with
    | ok r w =>
      have hnext : s.proceed env = { s with world := w, handlers := next r :: rest } := by
        simp only [proceed, hs, hop]
      obtain ⟨n, hn⟩ := ih r (s := { s with world := w, handlers := next r :: rest }) hrun rfl
        (by simp [step, hrun])
      refine ⟨n + 1, ?_⟩
      rw [List.replicate_succ, List.foldl_cons, hstep, hnext, hn]
      simp only [World.catchStdException, Program.run, hop]
      rfl
    | error e w =>
      refine ⟨1, ?_⟩
      rw [List.replicate_one, List.foldl_cons, List.foldl_nil, hstep]
      simp only [proceed, hs, hop, raise, World.catchStdException, Program.run]
      split <;> rfl

theorem foldl_call_handlers {w : World D} (l : List Item) {s : Session D}
    (hrun : s.running = true) (hitems : s.world.items = w.items)
    (hs : s.handlers = l.map (handlerOf env cfg w)) :
    ∃ n, (List.replicate n SessionEvent.call).foldl (step env cfg) s =
      s.after [] (l.forM (World.handleUserServiceDescriptionBundle env cfg) s.world) := by
  induction l generalizing s with
  | nil =>
    obtain ⟨world, handlers, running, played⟩ := s
    cases hs
    exact ⟨0, rfl⟩
  | cons item l ih =>
    obtain ⟨n, hn⟩ := foldl_call_handler env cfg _ hrun hs
    have hhandle : World.catchStdException ((handlerOf env cfg w item).run (World.perform env))
        s.world = World.handleUserServiceDescriptionBundle env cfg item s.world := by
      simp only [World.handleUserServiceDescriptionBundle, World.catchStdException, handlerOf, hitems]
    have hbundle := World.handleUserServiceDescriptionBundle_ensures env cfg item s.world
    rw [hhandle] at hn
    change ∃ n, _ = s.after [] (EStateM.bind _ _ s.world)
    rw [EStateM.bind]
    cases hr : World.handleUserServiceDescriptionBundle env cfg item s.world with
    | error e w' =>
      rw [hr] at hn
      exact ⟨n, hn⟩
    | ok u w' =>
      rw [hr] at hn hbundle
      obtain ⟨m, hm⟩ := ih (s := s.after (l.map (handlerOf env cfg w)) (.ok u w')) hrun
        (hbundle.2.trans hitems) rfl
      refine ⟨n + m, ?_⟩
      rw [← List.replicate_append_replicate, List.foldl_append, hn, hm]
      rfl

/-- Left to itself, a session handles an announcement as `parseBootstrap` does. -/
theorem foldl_announcement (s : Session D) (hrun : s.running = true) (hs : s.handlers = [])
    (str : Str) :
    ∃ n, let s' := (.announcement str :: List.replicate n .call).foldl (step env cfg) s
      s'.handlers = [] ∧ s'.world = (World.parseBootstrap env cfg str s.world).state ∧
        (s'.running = true ↔ (World.parseBootstrap env cfg str s.world).fault? = none) := by
  have hparse : World.parseBootstrap env cfg str =
      readAnnouncement env str >>= fun bundles =>
        bundles.forM (World.handleUserServiceDescriptionBundle env cfg) := by
    simp only [World.parseBootstrap, readAnnouncement, bind_assoc, pure_bind]
  have hbegin : step env cfg s (.announcement str) = s.begin env cfg str := by
    simp [step, hrun, hs]
  rw [hparse]
  change ∃ n, _ ∧ _ = (EStateM.bind _ _ s.world).state ∧ (_ ↔ (EStateM.bind _ _ s.world).fault? = none)
  simp only [List.foldl_cons, hbegin, begin, EStateM.bind]
  cases hr : readAnnouncement env str s.world with
  | error e w => exact ⟨0, rfl, rfl, by simp [EStateM.Result.fault?]⟩
  | ok bundles w =>
    obtain ⟨n, hn⟩ := foldl_call_handlers env cfg (w := w) bundles
      (s := { s with world := w, handlers := bundles.map (handlerOf env cfg w) }) hrun rfl rfl
    refine ⟨n, ?_⟩
    dsimp only at hn ⊢
    rw [hn]
    cases bundles.forM (World.handleUserServiceDescriptionBundle env cfg) w with
    | ok u w' => exact ⟨rfl, rfl, by simp [after, hrun, EStateM.Result.fault?]⟩
    | error e w' => exact ⟨rfl, rfl, by simp [after, EStateM.Result.fault?]⟩

end Session

end MbmsMiddleware
