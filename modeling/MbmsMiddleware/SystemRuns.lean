import MbmsMiddleware.System

/-! What a step of the whole middleware changes in its objects: at most one of
the changes that are permitted there, whoever takes the step. -/

namespace MbmsMiddleware

open ServiceAnnouncement

theorem Segment.dataSource_of_buffer {D : Type} {x : Segment D} (h : x.buffer = (none, true)) :
    x.dataSource = .unavailable := by
  unfold Segment.buffer at h
  unfold Segment.dataSource
  cases hflute : x.completeFluteFile with
  | some f =>
    rw [hflute] at h
    cases h
  | none =>
    rw [hflute] at h
    cases hcdn : x.cdnFile with
    | some file =>
      rw [hcdn] at h
      cases h
    | none => rfl

namespace World

/-- A segment is listed, and its data are neither received nor downloaded. -/
def Missing {D : Type} (w : World D) (x : Nat) : Prop :=
  (∃ l l' r, w.memory.cache.find? l = some (.segment l' r x)) ∧
    (w.memory.segment x).dataSource = .unavailable

theorem Separate.allocated_of_listed {D : Type} {w : World D} (h : w.Separate) {x : Nat}
    (hx : ∃ l l' r, w.memory.cache.find? l = some (.segment l' r x)) : x < w.memory.nextSegment := by
  obtain ⟨l, l', r, hl⟩ := hx
  obtain ⟨-, -, a, k, hheld⟩ := h.listed l l' r x hl
  exact h.allocated a k x hheld

variable {D : Type} {env : Environment D} {cfg : Config} {w : World D}

theorem AnnouncedPattern.of_map {items items' : List Item} {url : Str}
    (h : AnnouncedPattern env items url)
    (hitems : ∀ item ∈ items, ∃ item' ∈ items', withoutValidity item' = withoutValidity item) :
    AnnouncedPattern env items' url := by
  obtain ⟨item, hitem, htype, hpattern⟩ := h
  obtain ⟨item', hitem', hsame⟩ := hitems item hitem
  have htype' : (withoutValidity item').contentType = (withoutValidity item).contentType := by
    rw [hsame]
  have hcontent : (withoutValidity item').content = (withoutValidity item).content := by
    rw [hsame]
  change item'.content = item.content at hcontent
  exact ⟨item', hitem', htype'.trans htype, hcontent ▸ hpattern⟩

theorem announcedPattern_of_revalidated {w' : World D} {str : Str}
    (h : (w.addServiceAnnouncementItems env str).Revalidated w') {url : Str}
    (hurl : AnnouncedPattern env w.items url) : AnnouncedPattern env w'.items url := by
  refine hurl.of_map fun item hitem => ?_
  have hadded : withoutValidity item ∈
      (w.addServiceAnnouncementItems env str).items.map withoutValidity :=
    List.mem_map_of_mem (List.mem_append_left _ hitem)
  rw [← h.items] at hadded
  obtain ⟨item', hitem', hsame⟩ := List.mem_map.mp hadded
  exact ⟨item', hitem', hsame⟩

theorem catchStdException_keeps {x : Action D Unit} {I : World D → Prop}
    (h : (x w).Ensures (fun _ => I) (fun _ => I)) :
    (catchStdException x w).Ensures (fun _ => I) (fun _ => I) := by
  unfold catchStdException
  cases hx : x w with
  | ok u w' =>
    rw [hx] at h
    exact h
  | error e w' =>
    rw [hx] at h
    dsimp only
    split <;> exact h

theorem nextSegment_effect {brought : List (Str × Str)} {w' : World D}
    (h : Effect env cfg brought w w') :
    w.memory.nextSegment ≤ w'.memory.nextSegment := by
  cases h with
  | insert a s hs x =>
    change _ ≤ (SeamlessContentStream.insertSegment (s, w.memory) x).2.nextSegment
    exact (SeamlessContentStream.foldl_insertSegment [x] (s, w.memory)).next_le
  | drop a s hs =>
    change _ ≤ (SeamlessContentStream.dropOldest (s, w.memory)).2.nextSegment
    unfold SeamlessContentStream.dropOldest
    dsimp only
    split <;> exact le_rfl
  | _ => exact le_rfl

variable [DoubleText D]

theorem receive_items (address : Nat) (indeterminate : Int) (r : Reception) (w : World D) :
    (w.receive address indeterminate r).1.items = w.items := by
  have hstore : ∀ (isPlaylist : Bool) (x : Except Fault (SeamlessContentStream D × Memory D)),
      (w.storeResult address isPlaylist x).1.items = w.items := by
    intro isPlaylist x
    cases x <;> rfl
  unfold receive
  split
  · rfl
  · rfl
  · exact hstore _ _
  · split
    · exact hstore _ _
    · rfl

theorem nextSegment_change {c : WorldChange D} (h : w.Permitted env cfg c) :
    w.memory.nextSegment ≤ (w.change env c).memory.nextSegment :=
  Effects.invariant (I := fun w' => w.memory.nextSegment ≤ w'.memory.nextSegment)
    (fun _ _ he hle => hle.trans (nextSegment_effect he)) (effects_change h) le_rfl

end World

namespace Session

variable {D : Type} (env : Environment D)

theorem readAnnouncement_revalidates (str : Str) (w : World D) :
    (readAnnouncement env str w).Ensures
      (fun bundles w' => (w.addServiceAnnouncementItems env str).Revalidated w' ∧
        ∀ item ∈ bundles, item ∈ w'.items ∧
          item.contentType = ContentTypeConstants.mbmsUserServiceDescription)
      (fun _ w' => (w.addServiceAnnouncementItems env str).Revalidated w') := by
  refine EStateM.ensures_modify (EStateM.ensures_get (EStateM.ensures_bind ?_))
  refine (World.handleMbmsEnvelopes_ensures env _ _).mono ?_ ?_
  · intro _ w' h
    refine EStateM.ensures_get ⟨h.2, fun item hitem => ?_⟩
    simpa using List.mem_filter.mp hitem
  · exact fun _ w' h => h.2

theorem readAnnouncement_revalidated (str : Str) (w : World D) :
    (w.addServiceAnnouncementItems env str).Revalidated
      (readAnnouncement env str w).state := by
  have hread := readAnnouncement_revalidates env str w
  cases hrun : readAnnouncement env str w with
  | ok bundles w =>
    rw [hrun] at hread
    exact hread.1
  | error e w =>
    rw [hrun] at hread
    exact hread

variable [DoubleText D] (cfg : Config)

theorem begin_world (s : Session D) (str : Str) :
    (s.begin env cfg str).world = (readAnnouncement env str s.world).state := by
  unfold begin
  cases readAnnouncement env str s.world <;> rfl

omit [DoubleText D] in
theorem raise_world (s : Session D) (e : Fault) (w : World D) (rest : List (Handler D Unit)) :
    (s.raise e w rest).world = w := by
  unfold raise
  split <;> rfl

omit [DoubleText D] in
def nextCall (s : Session D) : List (WorldChange D) :=
  match s.handlers with
  | .call op _ :: _ => [.call op]
  | _ => []

theorem proceed_world (s : Session D) :
    (s.proceed env).world = s.nextCall.foldl (World.change env) s.world := by
  unfold proceed nextCall
  cases s.handlers with
  | nil => rfl
  | cons p rest =>
    cases p with
    | pure u => rfl
    | throw e => exact raise_world s e s.world rest
    | call op next =>
      change Session.world _ = (World.perform env op s.world).state
      dsimp only
      cases World.perform env op s.world with
      | ok r w => rfl
      | error e w => exact raise_world s e w rest

theorem receive_world (s : Session D) (address : Nat) (indeterminate : Int) (r : Reception) :
    (s.receive address indeterminate r).world =
      if address < s.world.nextStream then (s.world.receive address indeterminate r).1
      else s.world := by
  unfold receive
  split_ifs <;> rfl

theorem announces_begin {s : Session D} {str : Str} {p : Handler D Unit}
    (hp : p ∈ (s.begin env cfg str).handlers) :
    Announces cfg (World.AnnouncedPattern env (s.begin env cfg str).world.items) p := by
  have hread := readAnnouncement_revalidates env str s.world
  unfold begin at hp ⊢
  cases hrun : readAnnouncement env str s.world with
  | error e w =>
    rw [hrun] at hp
    cases hp
  | ok bundles w =>
    rw [hrun] at hp hread
    obtain ⟨item, hitem, rfl⟩ := List.mem_map.mp hp
    obtain ⟨hmem, htype⟩ := hread.2 item hitem
    exact (handleUserServiceDescriptionBundle_announces w.items env.rest (env.xml item.content)).mono
      fun op hop =>
        ServiceAnnouncement.Announced.mono (fun url hurl => ⟨item, hmem, htype, hurl⟩) hop

theorem announces_proceed {s : Session D} {pattern : Str → Prop}
    (h : ∀ p ∈ s.handlers, Announces cfg pattern p) {p : Handler D Unit}
    (hp : p ∈ (s.proceed env).handlers) : Announces cfg pattern p := by
  have hraise : ∀ (e : Fault) (w : World D) (rest : List (Handler D Unit)),
      (∀ q ∈ rest, q ∈ s.handlers) → p ∈ (s.raise e w rest).handlers → p ∈ s.handlers := by
    intro e w rest hrest hp
    unfold raise at hp
    split at hp
    · exact hrest p hp
    · cases hp
  unfold proceed at hp
  cases hs : s.handlers with
  | nil =>
    rw [hs] at hp
    exact h p hp
  | cons q rest =>
    have hrest : ∀ q ∈ rest, q ∈ s.handlers := by
      intro q hq
      rw [hs]
      exact List.mem_cons_of_mem _ hq
    rw [hs] at hp
    cases q with
    | pure u => exact h p (hrest p hp)
    | throw e => exact h p (hraise e s.world rest hrest hp)
    | call op next =>
      have hnext : Announces cfg pattern (.call op next) := h _ (by rw [hs]; exact List.mem_cons_self)
      dsimp only at hp
      cases hop : World.perform env op s.world with
      | ok r w =>
        rw [hop] at hp
        rcases List.mem_cons.mp hp with rfl | hp
        · exact hnext.2 r
        · exact h p (hrest p hp)
      | error e w =>
        rw [hop] at hp
        exact h p (hraise e w rest hrest hp)

end Session

namespace System

variable {D : Type} [DoubleText D] (env : SystemEnvironment D) (cfg : SystemConfig)

/-- The text that a file of the announcement makes the process parse. -/
def announced (s : System D) (file : FluteFile) : Option Str :=
  match s.state.process.serviceAnnouncement with
  | some sa =>
    if sa.fluteReceiver.isSome ∧ s.handlers.isEmpty then
      match (sa.textToParse env.toReceptionEnvironment file).2 with
      | .ok str => str
      | .error _ => none
    else none
  | none => none

/-- What a step changes in the objects. -/
def changes (s : System D) (e : SystemEvent D) : List (WorldChange D) :=
  if s.running ∧ s.Defined env e then
    match e with
    | .announcement file =>
      (s.announced env file).toList.map fun str =>
        .items (Session.readAnnouncement env.toEnvironment str s.world).state.items
    | .handler => s.session.nextCall
    | .reception address indeterminate r =>
      if address < s.world.nextStream then [.reception address indeterminate r] else []
    | .download segment now file =>
      if segment ∈ s.state.downloads then [.download segment now file] else []
    | .tick mchs clock =>
      match Process.tickHandler cfg.toProcessConfig mchs clock s.state.process with
      | .ok _ _ => [.cacheCheck cfg.cacheManagement clock]
      | .error _ _ => []
    | .request .. | .call .. => []
  else []

omit [DoubleText D] in
theorem tickHandler_world (mchs : Except Fault (Json D)) (clock : Clock) (m : Process D) :
    (Process.tickHandler cfg.toProcessConfig mchs clock m).Ensures
      (fun _ m' => m'.world = m.world.cacheCheck cfg.cacheManagement clock)
      (fun _ m' => m'.world = m.world) := by
  have hmtch : ∀ (mtch : Json D) (m' : Process D), m'.world = m.world →
      (Process.handleMtch cfg.toProcessConfig mtch m').Ensures
        (fun _ m' => m'.world = m.world) (fun _ m' => m'.world = m.world) := by
    intro mtch m' hm'
    refine EStateM.ensures_bind (EStateM.ensures_ofExcept ?_)
    cases Mtch.read mtch with
    | error e => exact hm'
    | ok mtch =>
      refine EStateM.ensures_get ?_
      split
      · refine EStateM.ensures_modify (EStateM.ensures_bind (EStateM.ensures_ofExcept ?_))
        cases ServiceAnnouncement.startFluteReceiver mtch.dest _ with
        | error e => exact hm'
        | ok sa => exact hm'
      · exact hm'
  refine EStateM.ensures_modify (EStateM.ensures_bind (EStateM.ensures_ofExcept ?_))
  cases mchs >>= Json.asArray with
  | error e => rfl
  | ok mchs =>
    have hmch : ∀ (mch : Json D) (m' : Process D), m'.world = m.world →
        (Process.handleMch cfg.toProcessConfig mch m').Ensures
          (fun _ m' => m'.world = m.world) (fun _ m' => m'.world = m.world) := by
      intro mch m' hm'
      refine EStateM.ensures_bind (EStateM.ensures_ofExcept ?_)
      cases mch.field "mtchs".toList >>= Json.asArray with
      | error e => exact hm'
      | ok mtchs => exact EStateM.ensures_forM_of_keeps hmtch hm'
    have hloop := EStateM.ensures_forM_of_keeps (l := mchs) (s := { m with armed := false }) hmch rfl
    refine EStateM.ensures_bind (hloop.mono ?_ fun _ _ h => h)
    intro _ m' hm'
    change m'.world.cacheCheck cfg.cacheManagement clock = _
    rw [hm']

omit [DoubleText D] in
theorem tick_world (s : System D) (mchs : Except Fault (Json D)) (clock : Clock) :
    (s.tick cfg mchs clock).world =
      match Process.tickHandler cfg.toProcessConfig mchs clock s.state.process with
      | .ok _ _ => s.world.cacheCheck cfg.cacheManagement clock
      | .error _ _ => s.world := by
  have h := tickHandler_world cfg mchs clock s.state.process
  unfold tick
  cases hr : Process.tickHandler cfg.toProcessConfig mchs clock s.state.process <;>
    rw [hr] at h <;> exact h

theorem announce_world (s : System D) (file : FluteFile) :
    (s.announce env cfg file).world = ((s.announced env file).elim s.world fun str =>
      (Session.readAnnouncement env.toEnvironment str s.world).state) := by
  unfold announce announced
  cases s.state.process.serviceAnnouncement with
  | none => rfl
  | some sa =>
    dsimp only
    split_ifs
    · rcases sa.textToParse env.toReceptionEnvironment file with ⟨sa, e | _ | str⟩
      · rfl
      · rfl
      · exact Session.begin_world env.toEnvironment cfg.toConfig _ str
    · rfl

/-- A step does to the objects what `changes` says. -/
theorem step_world (s : System D) (e : SystemEvent D) :
    (s.step env cfg e).world =
      (s.changes env cfg e).foldl (World.change env.toEnvironment) s.world := by
  unfold step changes
  by_cases hr : s.running = true ∧ s.Defined env e
  · rw [if_pos hr, if_pos hr]
    cases e with
    | announcement file =>
      dsimp only
      rw [announce_world]
      cases s.announced env file with
      | none => rfl
      | some str =>
        exact (Session.readAnnouncement_revalidated env.toEnvironment str s.world).frame
    | handler =>
      obtain ⟨firstStream, firstService, hproceed⟩ := proceed_frame env s
      dsimp only
      rw [hproceed]
      exact Session.proceed_world env.toEnvironment s.session
    | reception address indeterminate r =>
      dsimp only
      refine (Session.receive_world s.session address indeterminate r).trans ?_
      change (if address < s.world.nextStream then _ else _) = _
      split_ifs <;> rfl
    | download segment now file =>
      dsimp only
      change (s.state.cdnCompletion segment now file).process.world = _
      unfold RestState.cdnCompletion
      split_ifs <;> rfl
    | tick mchs clock =>
      dsimp only
      rw [tick_world]
      cases Process.tickHandler cfg.toProcessConfig mchs clock s.state.process <;> rfl
    | request method message => rfl
    | call idx now answer =>
      obtain ⟨downloads, replies, requests, hcall⟩ := call_frame env s idx now answer
      dsimp only
      rw [hcall]
      rfl
  · rw [if_neg hr, if_neg hr]
    rfl

/-- What holds of the middleware between two steps. -/
structure Sound (s : System D) : Prop where
  world : World.Reachable env.toEnvironment cfg.toConfig s.world
  handlers : ∀ p ∈ s.handlers, Announces cfg.toConfig
    (World.AnnouncedPattern env.toEnvironment s.world.items) p
  downloads : ∀ x ∈ s.state.downloads, x < s.world.memory.nextSegment

variable {env cfg} {s : System D}

variable (env cfg) in
theorem changes_cases (s : System D) (e : SystemEvent D) :
    s.changes env cfg e = [] ∨ ∃ c, s.changes env cfg e = [c] := by
  have hcall : s.session.nextCall = [] ∨ ∃ c, s.session.nextCall = [c] := by
    unfold Session.nextCall
    split
    · exact .inr ⟨_, rfl⟩
    · exact .inl rfl
  unfold changes
  split_ifs
  · cases e with
    | announcement file =>
      cases h : s.announced env file with
      | none => exact .inl (by simp only [h]; rfl)
      | some str => exact .inr ⟨_, by simp only [h]; rfl⟩
    | handler => exact hcall
    | reception address indeterminate r =>
      dsimp only
      split_ifs
      · exact .inr ⟨_, rfl⟩
      · exact .inl rfl
    | download segment now file =>
      dsimp only
      split_ifs
      · exact .inr ⟨_, rfl⟩
      · exact .inl rfl
    | tick mchs clock =>
      dsimp only
      split
      · exact .inr ⟨_, rfl⟩
      · exact .inl rfl
    | request | call => exact .inl rfl
  · exact .inl rfl

theorem Sound.permitted (h : s.Sound env cfg) (e : SystemEvent D) :
    ∀ c ∈ s.changes env cfg e, s.world.Permitted env.toEnvironment cfg.toConfig c := by
  unfold changes
  intro c hc
  split_ifs at hc
  · cases e with
    | announcement file =>
      obtain ⟨str, -, rfl⟩ := List.mem_map.mp hc
      exact fun url hurl =>
        World.announcedPattern_of_revalidated (Session.readAnnouncement_revalidated env.toEnvironment str s.world) hurl
    | handler =>
      change c ∈ s.session.nextCall at hc
      unfold Session.nextCall at hc
      split at hc
      · rename_i op next rest hhandlers
        obtain rfl := List.mem_singleton.mp hc
        have hmem : .call op next ∈ s.session.handlers := by
          rw [hhandlers]
          exact List.mem_cons_self
        exact (h.handlers (.call op next) hmem).1
      · cases hc
    | reception address indeterminate r =>
      dsimp only at hc
      split_ifs at hc with haddress
      · obtain rfl := List.mem_singleton.mp hc
        exact haddress
      · cases hc
    | download segment now file =>
      dsimp only at hc
      split_ifs at hc with hsegment
      · obtain rfl := List.mem_singleton.mp hc
        exact h.downloads segment hsegment
      · cases hc
    | tick mchs clock =>
      dsimp only at hc
      split at hc
      · obtain rfl := List.mem_singleton.mp hc
        trivial
      · cases hc
    | request | call => cases hc
  · cases hc

theorem Sound.stepsMeet (h : s.Sound env cfg) (e : SystemEvent D) :
    Runs.StepsMeet (World.change env.toEnvironment)
      (World.Permitted env.toEnvironment cfg.toConfig) s.world (s.changes env cfg e) := by
  have hpermitted := h.permitted e
  rcases s.changes_cases env cfg e with hnone | ⟨c, hc⟩
  · rw [hnone]
    trivial
  · rw [hc] at hpermitted ⊢
    exact ⟨hpermitted c (by simp), trivial⟩

theorem Sound.step_reachable (h : s.Sound env cfg) (e : SystemEvent D) :
    World.Reachable env.toEnvironment cfg.toConfig (s.step env cfg e).world ∧
      s.world.memory.nextSegment ≤ (s.step env cfg e).world.memory.nextSegment := by
  rw [step_world]
  exact (h.stepsMeet e).invariant
    (I := fun w => World.Reachable env.toEnvironment cfg.toConfig w ∧
      s.world.memory.nextSegment ≤ w.memory.nextSegment)
    (fun w c hw hc => ⟨hw.1.change hc, hw.2.trans (World.nextSegment_change hc)⟩)
    ⟨h.world, le_rfl⟩

omit [DoubleText D] in
/-- Only a call of `buffer()` begins a download. -/
theorem advance_downloads (env : RestEnvironment D) (q : Request D) (s : RestState D) :
    (q.advance env s).2.downloads = s.downloads ∨
      ∃ x, s.process.world.Missing x ∧ (q.advance env s).2.downloads = s.downloads ++ [x] := by
  have hread : ∀ (l : Str) (item : CacheItem), s.item? l = some item →
      (RestState.readBuffer env item s).state.downloads = s.downloads ∨
        ∃ x, s.process.world.Missing x ∧
          (RestState.readBuffer env item s).state.downloads = s.downloads ++ [x] := by
    intro l item hitem
    cases item with
    | file | playlist | manifest => exact .inl rfl
    | segment l' r x =>
      simp only [RestState.readBuffer]
      split
      · rename_i client hbuffer hclient
        split
        · exact .inr ⟨x, ⟨⟨l, l', r, hitem⟩, Segment.dataSource_of_buffer hbuffer⟩, rfl⟩
        · exact .inl rfl
        · exact .inl rfl
      · exact .inl rfl
  have hperform : ∀ op : RestCall D,
      (RestState.perform env op s).state.downloads = s.downloads ∨
        ∃ x, s.process.world.Missing x ∧
          (RestState.perform env op s).state.downloads = s.downloads ++ [x] := by
    intro op
    cases op with
    | buffer location =>
      simp only [RestState.perform, RestState.access]
      split
      · rename_i item hitem
        exact hread location item hitem
      · exact .inl rfl
    | itemSourceAsString | contentLength | receivedAt =>
      simp only [RestState.perform, RestState.access]
      split <;> exact .inl rfl
    | _ => exact .inl rfl
  unfold Request.advance
  split
  · rename_i op next _
    have hop := hperform op
    cases hrun : RestState.perform env op s with
    | ok r s' =>
      rw [hrun] at hop
      exact hop
    | error e s' =>
      rw [hrun] at hop
      exact hop
  · exact .inl rfl

variable (env cfg) in
/-- The downloads under way after a step: as they were, one less, or a new one. -/
theorem downloads_step (s : System D) (e : SystemEvent D) :
    (s.step env cfg e).state.downloads = s.state.downloads ∨
    (∃ x, (s.step env cfg e).state.downloads = s.state.downloads.erase x) ∨
    ∃ x, s.world.Missing x ∧ (s.step env cfg e).state.downloads = s.state.downloads ++ [x] := by
  by_cases hr : s.running = true ∧ s.Defined env e
  · unfold step
    rw [if_pos hr]
    cases e with
    | announcement file =>
      obtain ⟨process, handlers, running, hannounce⟩ := announce_frame env cfg s file
      dsimp only
      rw [hannounce]
      exact .inl rfl
    | handler =>
      obtain ⟨firstStream, firstService, hproceed⟩ := proceed_frame env s
      dsimp only
      rw [hproceed]
      exact .inl rfl
    | reception | request => exact .inl rfl
    | download segment now file =>
      dsimp only
      unfold RestState.cdnCompletion
      split_ifs
      · exact .inr (.inl ⟨segment, rfl⟩)
      · exact .inl rfl
    | tick mchs clock =>
      obtain ⟨process, running, htick⟩ := tick_frame cfg s mchs clock
      dsimp only
      rw [htick]
      exact .inl rfl
    | call idx now answer =>
      dsimp only
      unfold call
      cases s.requests[idx]? with
      | none => exact .inl rfl
      | some q =>
        rcases advance_downloads (answering env now answer) q s.state with hsame | hnew
        · exact .inl hsame
        · exact .inr (.inr hnew)
  · rw [step_of_undefined env cfg hr]
    exact .inl rfl

variable (env cfg) in
theorem handlers_aside (s : System D) {e : SystemEvent D} (he : e.ofAnnouncement = false) :
    (s.step env cfg e).handlers = s.handlers ∧ (s.step env cfg e).world.items = s.world.items := by
  by_cases hr : s.running = true ∧ s.Defined env e
  · unfold step
    rw [if_pos hr]
    cases e with
    | announcement file => cases he
    | handler => cases he
    | reception address indeterminate r =>
      dsimp only
      unfold Session.receive
      split_ifs
      · exact ⟨rfl, World.receive_items address indeterminate r s.world⟩
      · exact ⟨rfl, rfl⟩
    | download segment now file =>
      dsimp only
      unfold RestState.cdnCompletion
      split_ifs <;> exact ⟨rfl, rfl⟩
    | tick mchs clock =>
      constructor
      · obtain ⟨process, running, htick⟩ := tick_frame cfg s mchs clock
        dsimp only
        rw [htick]
      · dsimp only
        rw [tick_world]
        split <;> rfl
    | request method message => exact ⟨rfl, rfl⟩
    | call idx now answer =>
      obtain ⟨downloads, replies, requests, hcall⟩ := call_frame env s idx now answer
      dsimp only
      rw [hcall]
      exact ⟨rfl, rfl⟩
  · rw [step_of_undefined env cfg hr]
    exact ⟨rfl, rfl⟩

theorem Sound.announces_announce (h : s.Sound env cfg) {file : FluteFile} {p : Handler D Unit}
    (hp : p ∈ (s.announce env cfg file).handlers) :
    Announces cfg.toConfig
      (World.AnnouncedPattern env.toEnvironment (s.announce env cfg file).world.items) p := by
  unfold announce at hp ⊢
  cases hsa : s.state.process.serviceAnnouncement with
  | none =>
    rw [hsa] at hp
    exact h.handlers p hp
  | some sa =>
    rw [hsa] at hp
    dsimp only at hp ⊢
    split_ifs at hp ⊢
    · rcases hparse : sa.textToParse env.toReceptionEnvironment file with ⟨sa', e | _ | str⟩
      · rw [hparse] at hp
        exact h.handlers p hp
      · rw [hparse] at hp
        exact h.handlers p hp
      · rw [hparse] at hp
        exact Session.announces_begin env.toEnvironment cfg.toConfig hp
    · exact h.handlers p hp

theorem Sound.announces_step (h : s.Sound env cfg) {e : SystemEvent D} {p : Handler D Unit}
    (hp : p ∈ (s.step env cfg e).handlers) :
    Announces cfg.toConfig
      (World.AnnouncedPattern env.toEnvironment (s.step env cfg e).world.items) p := by
  cases he : e.ofAnnouncement with
  | false =>
    obtain ⟨hhandlers, hitems⟩ := handlers_aside env cfg s he
    rw [hhandlers] at hp
    rw [hitems]
    exact h.handlers p hp
  | true =>
    by_cases hr : s.running = true ∧ s.Defined env e
    · unfold System.step at hp ⊢
      rw [if_pos hr] at hp ⊢
      cases e with
      | announcement file => exact h.announces_announce hp
      | handler =>
        obtain ⟨firstStream, firstService, hproceed⟩ := proceed_frame env s
        dsimp only at hp ⊢
        rw [hproceed] at hp ⊢
        have hitems : (s.session.proceed env.toEnvironment).world.items = s.world.items := by
          rw [Session.proceed_world]
          unfold Session.nextCall
          split
          · exact World.perform_items env.toEnvironment _ s.world
          · rfl
        change Announces cfg.toConfig (World.AnnouncedPattern env.toEnvironment
          (s.session.proceed env.toEnvironment).world.items) p
        rw [hitems]
        exact Session.announces_proceed env.toEnvironment cfg.toConfig h.handlers hp
      | reception | download | tick | request | call => cases he
    · rw [step_of_undefined env cfg hr] at hp ⊢
      exact h.handlers p hp

theorem Sound.step (h : s.Sound env cfg) (e : SystemEvent D) : (s.step env cfg e).Sound env cfg := by
  obtain ⟨hworld, hnext⟩ := h.step_reachable e
  refine ⟨hworld, fun p hp => h.announces_step hp, fun x hx => ?_⟩
  rcases downloads_step env cfg s e with hsame | ⟨y, hend⟩ | ⟨y, hy, hnew⟩
  · rw [hsame] at hx
    exact (h.downloads x hx).trans_le hnext
  · rw [hend] at hx
    exact (h.downloads x (List.mem_of_mem_erase hx)).trans_le hnext
  · rw [hnew] at hx
    rcases List.mem_append.mp hx with hx | hx
    · exact (h.downloads x hx).trans_le hnext
    · obtain rfl := List.mem_singleton.mp hx
      exact (h.world.separate.allocated_of_listed hy.1).trans_le hnext

/-- What reading an announcement does to the objects keeps what its single
changes keep. -/
theorem keeps_parseBootstrap {env : Environment D} {cfg : Config} {I : World D → Prop}
    (hitems : ∀ w items, I w → w.Permitted env cfg (.items items) → I { w with items := items })
    (hcall : ∀ w op, I w → w.Permitted env cfg (.call op) → I (World.perform env op w).state)
    {w : World D} (h : I w) (str : Str) :
    (World.parseBootstrap env cfg str w).Ensures (fun _ => I) (fun _ => I) := by
  have hparse : World.parseBootstrap env cfg str =
      Session.readAnnouncement env str >>= fun bundles =>
        bundles.forM (World.handleUserServiceDescriptionBundle env cfg) := by
    simp only [World.parseBootstrap, Session.readAnnouncement, bind_assoc, pure_bind]
  have hread : ∀ w' : World D, (w.addServiceAnnouncementItems env str).Revalidated w' → I w' := by
    intro w' hw'
    rw [hw'.frame]
    exact hitems w w'.items h fun url hurl => World.announcedPattern_of_revalidated hw' hurl
  rw [hparse]
  refine EStateM.ensures_bind ((Session.readAnnouncement_revalidates env str w).mono ?_ ?_)
  · rintro bundles w' ⟨hw', hbundles⟩
    refine (EStateM.ensures_forM_of_mem
      (I := fun v : World D => I v ∧ v.items = w'.items) ?_
      ⟨hread w' hw', rfl⟩).mono (fun _ _ hv => hv.1) fun _ _ hv => hv.1
    rintro item hitem v ⟨hv, hvitems⟩
    obtain ⟨hmem, htype⟩ := hbundles item hitem
    have honly : Announces cfg (World.AnnouncedPattern env w'.items)
        (handleUserServiceDescriptionBundle (D := D) cfg v.items env.rest (env.xml item.content)) :=
      (handleUserServiceDescriptionBundle_announces v.items env.rest (env.xml item.content)).mono
        fun op hop =>
          ServiceAnnouncement.Announced.mono (fun url hurl => ⟨item, hmem, htype, hurl⟩) hop
    have hstep : ∀ (op : MiddlewareCall D) (v : World D),
        ServiceAnnouncement.Announced cfg (World.AnnouncedPattern env w'.items) op →
        I v ∧ v.items = w'.items →
        I (World.perform env op v).state ∧ (World.perform env op v).state.items = w'.items := by
      rintro op v hop ⟨hv, hvitems⟩
      rw [← hvitems] at hop
      exact ⟨hcall v op hv hop, (World.perform_items env op v).trans hvitems⟩
    exact World.catchStdException_keeps
      (honly.ensures (I := fun v : World D => I v ∧ v.items = w'.items) hstep ⟨hv, hvitems⟩)
  · exact fun _ w' hw' => hread w' hw'

/-- So does starting, with or without a local announcement. -/
theorem start_invariant {I : World D → Prop} (h0 : I (.initial env.toEnvironment))
    (hitems : ∀ w items, I w → w.Permitted env.toEnvironment cfg.toConfig (.items items) →
      I { w with items := items })
    (hcall : ∀ w op, I w → w.Permitted env.toEnvironment cfg.toConfig (.call op) →
      I (World.perform env.toEnvironment op w).state) :
    I (start env cfg).world := by
  have hparse := keeps_parseBootstrap hitems hcall h0 (env.readFile cfg.localBootstrapFile)
  have hlocal : (Process.handleLocalServiceAnnouncement env.toProcessEnvironment
      cfg.toProcessConfig { world := .initial env.toEnvironment }).Ensures
        (fun _ m => I m.world) (fun _ m => I m.world) := by
    unfold Process.handleLocalServiceAnnouncement
    dsimp only
    split_ifs
    · cases hr : World.parseBootstrap env.toEnvironment cfg.toConfig
          (env.readFile cfg.localBootstrapFile) (.initial env.toEnvironment) with
      | ok u w =>
        rw [hr] at hparse
        exact hparse
      | error e w =>
        rw [hr] at hparse
        dsimp only
        split_ifs <;> exact hparse
    · exact h0
  have hstart : (Process.start env.toProcessEnvironment cfg.toProcessConfig
      { world := .initial env.toEnvironment }).Ensures
        (fun _ m => I m.world) (fun _ m => I m.world) :=
    EStateM.ensures_bind (hlocal.mono (fun _ _ hm => hm) fun _ _ hm => hm)
  change I (Process.start env.toProcessEnvironment cfg.toProcessConfig
    { world := .initial env.toEnvironment }).state.world
  cases hr : Process.start env.toProcessEnvironment cfg.toProcessConfig
      { world := .initial env.toEnvironment } <;> rw [hr] at hstart <;> exact hstart

theorem sound_start : (start env cfg : System D).Sound env cfg := by
  refine ⟨?_, fun p hp => ?_, fun x hx => ?_⟩
  · exact start_invariant .initial (fun w items hw hc => hw.change (c := .items items) hc)
      fun w op hw hc => hw.change (c := .call op) hc
  · cases hp
  · cases hx

/-- Every run of the middleware keeps it sound. -/
theorem sound_run (es : List (SystemEvent D)) :
    (es.foldl (step env cfg) (start env cfg)).Sound env cfg :=
  Runs.foldl_invariant (I := Sound env cfg) (fun _ e h => h.step e) sound_start es

end System

end MbmsMiddleware
