import MbmsMiddleware.SystemSides

/-! The middleware as a refinement of its sessions. Of a run of the whole
middleware, the announcements that are taken up, the calls of their handlers and
the receptions make a session, and the middleware is where this session is, but
for its item map and for what comes from the CDN. -/

namespace MbmsMiddleware

namespace System

variable {D : Type}

/-- The middleware is where the session is. It runs as long as the session does,
unless one of the `ended` steps has ended it, which are none of the session. -/
structure Follows (s : System D) (t : Session D) (ended : List (SystemEvent D)) : Prop where
  world : s.world.broadcastSide = t.world.broadcastSide
  handlers : s.handlers = t.handlers
  running : s.running = true ↔ t.running = true ∧ ended = []

variable [DoubleText D] (env : SystemEnvironment D) (cfg : SystemConfig)

/-- What a step is in a session. -/
def sessionEvents (s : System D) (e : SystemEvent D) : List SessionEvent :=
  if s.running ∧ s.Defined env e then
    match e with
    | .announcement file => (s.announced env file).toList.map .announcement
    | .handler => [.call]
    | .reception address indeterminate r => [.reception address indeterminate r]
    | .download .. | .tick .. | .request .. | .call .. => []
  else []

/-- A step that ends the middleware and is none of the session: it is undefined,
or a file of the announcement or a tick makes the process end. -/
def endings (s : System D) (e : SystemEvent D) : List (SystemEvent D) :=
  if s.running && !(s.step env cfg e).running && (s.sessionEvents env e).isEmpty then [e] else []

variable {env cfg} {s : System D} {t : Session D} {ended : List (SystemEvent D)}

omit [DoubleText D] in
theorem Follows.seen (h : Follows s t ended) (hr : s.running = true) :
    s.session.seen World.broadcastSide = t.seen World.broadcastSide :=
  Prod.ext h.world (Prod.ext h.handlers (hr.trans (h.running.mp hr).1.symm))

/-- A step that the session takes as well. -/
theorem Follows.along (h : Follows s t ended) (hr : s.running = true) {e : SystemEvent D}
    {t' : Session D} (hevents : s.sessionEvents env e ≠ [])
    (hseen : (s.step env cfg e).session.seen World.broadcastSide = t'.seen World.broadcastSide) :
    Follows (s.step env cfg e) t' (ended ++ s.endings env cfg e) := by
  obtain ⟨hworld, hrest⟩ := Prod.mk.inj hseen
  obtain ⟨hhandlers, hrunning⟩ := Prod.mk.inj hrest
  have hnone : s.endings env cfg e = [] := by simp [endings, hevents]
  refine ⟨hworld, hhandlers, ?_⟩
  rw [hnone, (h.running.mp hr).2, show (s.step env cfg e).running = t'.running from hrunning]
  simp

/-- A step that is none of the session. -/
theorem Follows.aside (h : Follows s t ended) {e : SystemEvent D}
    (hevents : s.sessionEvents env e = [])
    (hworld : (s.step env cfg e).world.broadcastSide = s.world.broadcastSide)
    (hhandlers : (s.step env cfg e).handlers = s.handlers) :
    Follows (s.step env cfg e) t (ended ++ s.endings env cfg e) := by
  refine ⟨hworld.trans h.world, hhandlers.trans h.handlers, ?_⟩
  by_cases hr : s.running = true
  · obtain ⟨ht, rfl⟩ := h.running.mp hr
    cases hr' : (s.step env cfg e).running <;> simp [endings, hr, hr', hevents, ht]
  · rw [step_of_not_running env cfg hr, h.running]
    simp [endings, hr]

variable (cfg) in
omit [DoubleText D] in
theorem tick_aside (s : System D) (mchs : Except Fault (Json D)) (clock : Clock) :
    (s.tick cfg mchs clock).world.broadcastSide = s.world.broadcastSide ∧
      (s.tick cfg mchs clock).handlers = s.handlers := by
  constructor
  · rw [tick_world]
    split <;> rfl
  · unfold tick
    split <;> rfl

variable (env cfg) in
/-- A file of the announcement makes the session begin an announcement, or leaves
the objects and handlers as they are. -/
theorem announced_cases (s : System D) (file : FluteFile) :
    (∃ str, s.announced env file = some str ∧ s.handlers.isEmpty = true ∧
      (s.announce env cfg file).session.seen World.broadcastSide =
        (s.session.begin env.toEnvironment cfg.toConfig str).seen World.broadcastSide) ∨
    s.announced env file = none ∧ (s.announce env cfg file).world = s.world ∧
      (s.announce env cfg file).handlers = s.handlers := by
  unfold announced announce
  cases s.state.process.serviceAnnouncement with
  | none => exact .inr ⟨rfl, rfl, rfl⟩
  | some sa =>
    dsimp only
    split_ifs with hidle
    · rcases sa.textToParse env.toReceptionEnvironment file with ⟨sa', e | _ | str⟩
      · exact .inr ⟨rfl, rfl, rfl⟩
      · exact .inr ⟨rfl, rfl, rfl⟩
      · exact .inl ⟨str, rfl, hidle.2, rfl⟩
    · exact .inr ⟨rfl, rfl, rfl⟩

theorem Follows.step (h : Follows s t ended) (e : SystemEvent D) :
    Follows (s.step env cfg e)
      ((s.sessionEvents env e).foldl (Session.step env.toEnvironment cfg.toConfig) t)
      (ended ++ s.endings env cfg e) := by
  by_cases hr : s.running = true ∧ s.Defined env e
  · have ht := (h.running.mp hr.1).1
    have hseen := h.seen hr.1
    cases e with
    | announcement file =>
      have hstep : s.step env cfg (.announcement file) = s.announce env cfg file := if_pos hr
      have hevents : s.sessionEvents env (.announcement file) =
          (s.announced env file).toList.map .announcement := if_pos hr
      rcases announced_cases env cfg s file with
        ⟨str, hstr, hidle, hannounce⟩ | ⟨hnone, hworld, hhandlers⟩
      · rw [hstr] at hevents
        rw [hevents]
        refine h.along hr.1 (by simp [hevents]) ?_
        have hbegin : t.step env.toEnvironment cfg.toConfig (.announcement str) =
            t.begin env.toEnvironment cfg.toConfig str := by
          have hempty : t.handlers.isEmpty = true := h.handlers ▸ hidle
          simp [Session.step, ht, List.isEmpty_iff.mp hempty]
        rw [Option.toList_some, List.map_singleton, List.foldl_cons, List.foldl_nil, hbegin, hstep,
          hannounce]
        exact Session.seen_begin env.toEnvironment cfg.toConfig World.showsItems_broadcastSide hseen str
      · rw [hnone] at hevents
        rw [hevents]
        exact h.aside hevents (by rw [hstep, hworld]) (by rw [hstep, hhandlers])
    | handler =>
      have hstep : s.step env cfg .handler = s.proceed env := if_pos hr
      have hevents : s.sessionEvents env .handler = [.call] := if_pos hr
      have hcall : t.step env.toEnvironment cfg.toConfig .call = t.proceed env.toEnvironment :=
        if_pos ht
      obtain ⟨firstStream, firstService, hproceed⟩ := proceed_frame env s
      rw [hevents, List.foldl_cons, List.foldl_nil, hcall]
      refine h.along hr.1 (by simp [hevents]) ?_
      rw [hstep, hproceed]
      exact Session.seen_proceed env.toEnvironment
        (World.broadcastSide_perform env.toEnvironment) hseen
    | reception address indeterminate r =>
      have hstep : s.step env cfg (.reception address indeterminate r) =
          s.withSession (s.session.receive address indeterminate r) := if_pos hr
      have hevents : s.sessionEvents env (.reception address indeterminate r) =
          [.reception address indeterminate r] := if_pos hr
      have hreceive : t.step env.toEnvironment cfg.toConfig (.reception address indeterminate r) =
        t.receive address indeterminate r := if_pos ht
      rw [hevents, List.foldl_cons, List.foldl_nil, hreceive]
      refine h.along hr.1 (by simp [hevents]) ?_
      rw [hstep]
      exact Session.broadcastSide_receive hseen address indeterminate r
    | download segment now file =>
      have hstep : s.step env cfg (.download segment now file) =
          { s with state := s.state.cdnCompletion segment now file } := if_pos hr
      have hevents : s.sessionEvents env (.download segment now file) = [] := if_pos hr
      have hside := broadcastSide_download s segment now file
      rw [hevents]
      refine h.aside hevents ?_ (by rw [hstep])
      rw [hstep]
      exact (Prod.mk.inj (broadcastSide_iff.mp hside).1).1
    | tick mchs clock =>
      have hstep : s.step env cfg (.tick mchs clock) = s.tick cfg mchs clock := if_pos hr
      have hevents : s.sessionEvents env (.tick mchs clock) = [] := if_pos hr
      obtain ⟨hworld, hhandlers⟩ := tick_aside cfg s mchs clock
      rw [hevents]
      exact h.aside hevents (by rw [hstep, hworld]) (by rw [hstep, hhandlers])
    | request method message =>
      have hstep : s.step env cfg (.request method message) = s.request env cfg method message :=
        if_pos hr
      have hevents : s.sessionEvents env (.request method message) = [] := if_pos hr
      rw [hevents]
      exact h.aside hevents (by rw [hstep]; rfl) (by rw [hstep]; rfl)
    | call idx now answer =>
      have hstep : s.step env cfg (.call idx now answer) = s.call env idx now answer := if_pos hr
      have hevents : s.sessionEvents env (.call idx now answer) = [] := if_pos hr
      obtain ⟨downloads, replies, requests, hcall⟩ := call_frame env s idx now answer
      rw [hevents]
      exact h.aside hevents (by rw [hstep, hcall]; rfl) (by rw [hstep, hcall])
  · have hevents : s.sessionEvents env e = [] := if_neg hr
    rw [hevents]
    refine h.aside hevents ?_ ?_
    · rw [step_of_undefined env cfg hr]
      rfl
    · rw [step_of_undefined env cfg hr]

variable (env cfg)

/-- The middleware follows the session that its run makes. -/
theorem follows_session (s : System D) (es : List (SystemEvent D)) :
    Follows (es.foldl (step env cfg) s)
      ((Runs.trace (step env cfg) (sessionEvents env) s es).foldl
        (Session.step env.toEnvironment cfg.toConfig) s.session)
      (Runs.trace (step env cfg) (endings env cfg) s es) := by
  suffices hrun : ∀ (s : System D) (t : Session D) (ended : List (SystemEvent D)),
      Follows s t ended → Follows (es.foldl (System.step env cfg) s)
        ((Runs.trace (System.step env cfg) (sessionEvents env) s es).foldl
          (Session.step env.toEnvironment cfg.toConfig) t)
        (ended ++ Runs.trace (System.step env cfg) (endings env cfg) s es) from
    hrun s s.session [] ⟨rfl, rfl, (and_iff_left rfl).symm⟩
  induction es with
  | nil =>
    intro s t ended h
    rw [Runs.trace, Runs.trace, List.append_nil]
    exact h
  | cons e es ih =>
    intro s t ended h
    rw [Runs.trace, Runs.trace, List.foldl_append, ← List.append_assoc]
    exact ih _ _ _ (h.step e)

end System

end MbmsMiddleware
