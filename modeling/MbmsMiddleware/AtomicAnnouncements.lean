import MbmsMiddleware.Provision
import MbmsMiddleware.SystemSides

/-! Announcements that are handled call by call, while everything else goes on,
provide what they provide when each is handled at once, one after the other. -/

theorem EStateM.forM_concat {ε σ α : Type} {f : α → EStateM ε σ PUnit} {l : List α} {s s' : σ}
    (h : l.forM f s = .ok () s') (a : α) : (l ++ [a]).forM f s = f a s' := by
  rw [List.forM_eq_forM] at h ⊢
  rw [List.forM_append]
  change EStateM.bind (forM l f) (fun _ => f a >>= fun _ => pure ⟨⟩) s = f a s'
  unfold EStateM.bind
  rw [h]
  exact congrFun (bind_pure (f a)) s'

namespace MbmsMiddleware

namespace Session

variable {D : Type} [DoubleText D] (env : Environment D) (cfg : Config)

theorem step_call_of_idle {s : Session D} (h : s.handlers = []) : s.step env cfg .call = s := by
  unfold step proceed
  rw [h]
  split_ifs <;> rfl

theorem calls_of_idle {s : Session D} (h : s.handlers = []) (n : Nat) :
    (List.replicate n SessionEvent.call).foldl (step env cfg) s = s := by
  induction n with
  | zero => rfl
  | succ n ih => rw [List.replicate_succ, List.foldl_cons, step_call_of_idle env cfg h, ih]

/-- However many calls are made, the handlers come to one end. -/
theorem calls_eq_of_idle {s : Session D} {n k : Nat}
    (hn : ((List.replicate n SessionEvent.call).foldl (step env cfg) s).handlers = [])
    (hk : ((List.replicate k SessionEvent.call).foldl (step env cfg) s).handlers = []) :
    (List.replicate n SessionEvent.call).foldl (step env cfg) s =
      (List.replicate k SessionEvent.call).foldl (step env cfg) s := by
  have hle : ∀ {n k : Nat}, n ≤ k →
      ((List.replicate n SessionEvent.call).foldl (step env cfg) s).handlers = [] →
      (List.replicate n SessionEvent.call).foldl (step env cfg) s =
        (List.replicate k SessionEvent.call).foldl (step env cfg) s := by
    intro n k hnk hn
    obtain ⟨d, rfl⟩ := Nat.exists_eq_add_of_le hnk
    rw [← List.replicate_append_replicate, List.foldl_append, calls_of_idle env cfg hn]
  rcases Nat.le_total n k with h | h
  · exact hle h hn
  · exact (hle h hk).symm

/-- A session that has made `n` calls of the handlers of an announcement. -/
def announcing (w : World D) (str : Str) (n : Nat) : Session D :=
  (.announcement str :: List.replicate n .call).foldl (step env cfg) { world := w }

theorem announcing_zero (w : World D) (str : Str) :
    announcing env cfg w str 0 = ({ world := w } : Session D).begin env cfg str := rfl

theorem announcing_succ (w : World D) (str : Str) (n : Nat) :
    announcing env cfg w str (n + 1) = (announcing env cfg w str n).step env cfg .call := by
  unfold announcing
  rw [List.replicate_succ', ← List.cons_append, List.foldl_append]
  rfl

/-- When its handlers are done, the announcement has been handled as
`parseBootstrap` does. -/
theorem announcing_done {w : World D} {str : Str} {n : Nat}
    (hidle : (announcing env cfg w str n).handlers = [])
    (hrun : (announcing env cfg w str n).running = true) :
    World.parseBootstrap env cfg str w = .ok () (announcing env cfg w str n).world := by
  obtain ⟨k, hk⟩ := foldl_announcement env cfg { world := w } rfl rfl str
  obtain ⟨hnil, hstate, hfault⟩ := hk
  unfold announcing at hidle hrun ⊢
  rw [List.foldl_cons] at hidle hrun hnil hstate hfault ⊢
  rw [calls_eq_of_idle env cfg hnil hidle] at hstate hfault
  have hnone := hfault.mp hrun
  rw [hstate]
  cases hparse : World.parseBootstrap env cfg str w with
  | ok u w' => rfl
  | error e w' =>
    change (World.parseBootstrap env cfg str w).fault? = none at hnone
    rw [hparse] at hnone
    cases hnone

end Session

namespace System

variable {D : Type} [DoubleText D] (env : SystemEnvironment D) (cfg : SystemConfig)

/-- What has no part in the announcements: they provide the same, and the calls of
their handlers go on as they would, if the process does. -/
structure Aside (s s' : System D) : Prop where
  world : s'.world.provision = s.world.provision
  handlers : s'.handlers = s.handlers
  running : s'.running = true → s.running = true

omit [DoubleText D] in
theorem Aside.refl (s : System D) : s.Aside s := ⟨rfl, rfl, id⟩

omit [DoubleText D] in
theorem Aside.seen {s s' : System D} (h : s.Aside s') (hr : s'.running = true) :
    s'.session.seen World.provision = s.session.seen World.provision :=
  Prod.ext h.world (Prod.ext h.handlers (hr.trans (h.running hr).symm))

theorem aside_step (s : System D) {e : SystemEvent D} (he : e.ofAnnouncement = false) :
    s.Aside (s.step env cfg e) := by
  obtain ⟨hhandlers, -⟩ := handlers_aside env cfg s he
  by_cases hr : s.running = true ∧ s.Defined env e
  · refine ⟨?_, hhandlers, fun _ => hr.1⟩
    unfold step
    rw [if_pos hr]
    cases e with
    | announcement file => cases he
    | handler => cases he
    | reception address indeterminate r =>
      dsimp only
      unfold Session.receive
      split_ifs
      · exact World.provision_receive address indeterminate r s.world
      · rfl
    | download segment now file =>
      dsimp only
      unfold RestState.cdnCompletion
      split_ifs <;> rfl
    | tick mchs clock =>
      dsimp only
      rw [tick_world]
      split <;> rfl
    | request method message => rfl
    | call idx now answer =>
      obtain ⟨downloads, replies, requests, hcall⟩ := call_frame env s idx now answer
      dsimp only
      rw [hcall]
      rfl
  · rw [step_of_undefined env cfg hr]
    exact ⟨rfl, rfl, fun hr' => by cases hr'⟩

/-- A file of the announcement makes its text be parsed, or has no part in what is
provided. -/
theorem announce_cases (s : System D) (file : FluteFile) :
    (∃ str, s.announced env file = some str ∧ s.handlers = [] ∧
      (s.announce env cfg file).session.seen World.provision =
        (s.session.begin env.toEnvironment cfg.toConfig str).seen World.provision) ∨
    s.announced env file = none ∧ s.Aside (s.announce env cfg file) := by
  unfold announced announce
  cases s.state.process.serviceAnnouncement with
  | none => exact .inr ⟨rfl, .refl s⟩
  | some sa =>
    dsimp only
    split_ifs with hidle
    · rcases sa.textToParse env.toReceptionEnvironment file with ⟨sa', e | _ | str⟩
      · exact .inr ⟨rfl, rfl, rfl, fun hr => by cases hr⟩
      · exact .inr ⟨rfl, rfl, rfl, id⟩
      · exact .inl ⟨str, rfl, List.isEmpty_iff.mp hidle.2, rfl⟩
    · exact .inr ⟨rfl, .refl s⟩

/-- The texts that a step makes the process parse. -/
def announcedTexts (s : System D) (e : SystemEvent D) : List Str :=
  if s.running then
    match e with
    | .announcement file => (s.announced env file).toList
    | _ => []
  else []

/-- How far the announcements have come: there was none yet, or all but the last
are handled, and of the last some calls have been made. -/
def Provided (w₀ : World D) (texts : List Str) (s : System D) : Prop :=
  s.running = true →
    (texts = [] ∧ s.handlers = [] ∧ s.world.provision = w₀.provision) ∨
    ∃ texts' str w n, texts = texts' ++ [str] ∧
      texts'.forM (World.parseBootstrap env.toEnvironment cfg.toConfig) w₀ = .ok () w ∧
      s.session.seen World.provision =
        (Session.announcing env.toEnvironment cfg.toConfig w str n).seen World.provision

variable {env cfg} {w₀ : World D} {texts : List Str} {s : System D}

/-- When no handler is under way, all announcements are handled. -/
theorem Provided.idle (h : Provided env cfg w₀ texts s) (hr : s.running = true)
    (hidle : s.handlers = []) :
    ∃ w, texts.forM (World.parseBootstrap env.toEnvironment cfg.toConfig) w₀ = .ok () w ∧
      s.world.provision = w.provision := by
  rcases h hr with ⟨rfl, -, hworld⟩ | ⟨texts', str, w, n, rfl, htexts, hseen⟩
  · exact ⟨w₀, rfl, hworld⟩
  · obtain ⟨hworld, hrest⟩ := Prod.mk.inj hseen
    obtain ⟨hhandlers, hrunning⟩ := Prod.mk.inj hrest
    have hdone := Session.announcing_done env.toEnvironment cfg.toConfig
      (hhandlers.symm.trans hidle) (hrunning.symm.trans hr)
    exact ⟨_, (EStateM.forM_concat htexts str).trans hdone, hworld⟩

theorem Provided.aside {s' : System D} (h : Provided env cfg w₀ texts s) (haside : s.Aside s') :
    Provided env cfg w₀ texts s' := by
  intro hr'
  rcases h (haside.running hr') with ⟨htexts, hidle, hworld⟩ | ⟨texts', str, w, n, htexts, hw, hs⟩
  · exact .inl ⟨htexts, haside.handlers.trans hidle, haside.world.trans hworld⟩
  · exact .inr ⟨texts', str, w, n, htexts, hw, (haside.seen hr').trans hs⟩

theorem Provided.handler (h : Provided env cfg w₀ texts s) (hr : s.running = true) :
    Provided env cfg w₀ texts (s.proceed env) := by
  obtain ⟨firstStream, firstService, hproceed⟩ := proceed_frame env s
  rw [hproceed]
  intro hr'
  rcases h hr with ⟨htexts, hidle, hprovision⟩ | ⟨texts', str, w, n, htexts, hw, hseen⟩
  · have hsame : s.session.proceed env.toEnvironment = s.session := by
      unfold Session.proceed
      rw [show s.session.handlers = [] from hidle]
    rw [hsame]
    exact .inl ⟨htexts, hidle, hprovision⟩
  · refine .inr ⟨texts', str, w, n + 1, htexts, hw, ?_⟩
    have hrunning := (Prod.mk.inj (Prod.mk.inj hseen).2).2
    have hcall : (Session.announcing env.toEnvironment cfg.toConfig w str n).step env.toEnvironment
        cfg.toConfig .call =
          (Session.announcing env.toEnvironment cfg.toConfig w str n).proceed env.toEnvironment :=
      if_pos (hrunning.symm.trans hr)
    rw [Session.announcing_succ, hcall]
    exact Session.seen_proceed env.toEnvironment (World.provision_perform env.toEnvironment) hseen

theorem Provided.announce (h : Provided env cfg w₀ texts s) (hr : s.running = true)
    (file : FluteFile) :
    Provided env cfg w₀ (texts ++ (s.announced env file).toList) (s.announce env cfg file) := by
  rcases announce_cases env cfg s file with ⟨str, hstr, hidle, hbegin⟩ | ⟨hnone, haside⟩
  · obtain ⟨w, hw, hprovision⟩ := h.idle hr hidle
    rw [hstr]
    intro _
    refine .inr ⟨texts, str, w, 0, rfl, hw, hbegin.trans ?_⟩
    rw [Session.announcing_zero]
    have hseen : s.session.seen World.provision =
        ({ world := w } : Session D).seen World.provision :=
      Prod.ext hprovision (Prod.ext hidle hr)
    exact Session.seen_begin env.toEnvironment cfg.toConfig World.showsItems_provision hseen str
  · rw [hnone, Option.toList_none, List.append_nil]
    exact h.aside haside

theorem Provided.step (h : Provided env cfg w₀ texts s) (e : SystemEvent D) :
    Provided env cfg w₀ (texts ++ s.announcedTexts env e) (s.step env cfg e) := by
  by_cases hr : s.running = true ∧ s.Defined env e
  · cases he : e.ofAnnouncement with
    | false =>
      have htexts : s.announcedTexts env e = [] := by
        unfold announcedTexts
        cases e with
        | announcement file => cases he
        | _ => exact ite_self _
      rw [htexts, List.append_nil]
      exact h.aside (aside_step env cfg s he)
    | true =>
      unfold System.step announcedTexts
      rw [if_pos hr, if_pos hr.1]
      cases e with
      | announcement file => exact h.announce hr.1 file
      | handler =>
        rw [List.append_nil]
        exact h.handler hr.1
      | reception | download | tick | request | call => cases he
  · exact fun hr' => absurd (goes_of_running env cfg hr') hr

variable (env cfg)

theorem provided_run {s : System D} (hs : s.handlers = []) (es : List (SystemEvent D)) :
    Provided env cfg s.world (Runs.trace (step env cfg) (announcedTexts env) s es)
      (es.foldl (step env cfg) s) := by
  have hrun : Provided env cfg s.world
      ([] ++ Runs.trace (step env cfg) (announcedTexts env) s es) (es.foldl (step env cfg) s) :=
    Runs.trace_invariant (I := fun _ => True) (fun _ _ _ => trivial)
      (fun _ _ e _ h => h.step e) trivial (fun _ => .inl ⟨rfl, hs, rfl⟩) es
  rwa [List.nil_append] at hrun

/-- Whatever happens while announcements are handled call by call, they provide
what they provide when each is handled at once, one after the other. -/
theorem announcements_serial {s : System D} {es : List (SystemEvent D)} (hs : s.handlers = []) :
    let s' := es.foldl (step env cfg) s
    s'.running = true → s'.handlers = [] →
      ∃ w, (Runs.trace (step env cfg) (announcedTexts env) s es).forM
          (World.parseBootstrap env.toEnvironment cfg.toConfig) s.world = .ok () w ∧
        s'.world.provision = w.provision :=
  fun hrun hidle => (provided_run env cfg hs es).idle hrun hidle

section Example

theorem announcements_serial_interleaved :
    let s' := (.announcement announcementFile :: interleavedEvents).foldl
      (step broadcastSystem seamlessService) receivingSystem
    ∃ w, (Runs.trace (step broadcastSystem seamlessService) (announcedTexts broadcastSystem)
          receivingSystem (.announcement announcementFile :: interleavedEvents)).forM
        (World.parseBootstrap broadcastSystem.toEnvironment seamlessService.toConfig)
        receivingSystem.world = .ok () w ∧ s'.world.provision = w.provision :=
  announcements_serial broadcastSystem seamlessService rfl (by decide +kernel)
    (List.isEmpty_iff.mp (by decide +kernel))

end Example

end System

end MbmsMiddleware
