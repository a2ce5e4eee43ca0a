import MbmsMiddleware.RestHandler

/-! How often a request is answered: once in most cases, and what the others are. -/

namespace MbmsMiddleware

namespace RestHandler

open RestState

variable {D : Type} (env : RestEnvironment D)

theorem run_access {α : Type} {location : Str} {item : CacheItem} {s : RestState D}
    (h : s.item? location = some item) (f : CacheItem → EStateM Fault (RestState D) α) :
    access location f s = f item s := by
  unfold access
  rw [h]

theorem run_fileValue {location : Str} {item : CacheItem} {s : RestState D}
    (h : s.item? location = some item) (listed : CacheItem) :
    ∃ v, (fileValue location listed).run (perform env) s = .ok v s := by
  have hsource : (itemSourceAsString location).run (perform env) s =
      .ok (itemSource s.process.world item).asString s :=
    (Program.run_perform _ _ _).trans (run_access h _)
  have hlength : (contentLength location).run (perform env) s =
      .ok ((itemView s.process.world.objects).contentLength item) s :=
    (Program.run_perform _ _ _).trans (run_access h _)
  have hreceived : (receivedAt location).run (perform env) s =
      .ok (((itemView s.process.world.objects).receivedAt item).getD env.now) s :=
    (Program.run_perform _ _ _).trans (run_access h _)
  unfold fileValue
  rw [Program.run_bind_of_ok _ hsource, Program.run_bind_of_ok _ hlength,
    Program.run_bind_of_ok _ hreceived]
  have hage : ∃ age, (fileAge location).run (perform env) s = .ok age s := by
    unfold fileAge
    rw [Program.run_bind_of_ok _ hreceived]
    split
    · exact ⟨_, rfl⟩
    · have htime : time.run (perform env) s = .ok env.now s := rfl
      rw [Program.run_bind_of_ok _ htime, Program.run_bind_of_ok _ hreceived]
      exact ⟨_, rfl⟩
  obtain ⟨age, hage⟩ := hage
  rw [Program.run_bind_of_ok _ hage]
  exact ⟨_, rfl⟩

theorem run_fileValues {l : List (Str × CacheItem)} {s : RestState D}
    (h : ∀ e ∈ l, (s.item? e.1).isSome) : ∃ vs, (fileValues l).run (perform env) s = .ok vs s := by
  suffices hfiles : ∀ files : List (Json D), ∃ vs, (l.foldlM (fun files (item : Str × CacheItem) => do
      let value ← fileValue item.1 item.2
      pure (files ++ [value])) files).run (perform env) s = .ok vs s from hfiles []
  induction l with
  | nil => exact fun files => ⟨files, rfl⟩
  | cons e l ih =>
    intro files
    obtain ⟨item, hitem⟩ := Option.isSome_iff_exists.mp (h e (by simp))
    obtain ⟨v, hv⟩ := run_fileValue env hitem e.2
    rw [List.foldlM_cons, bind_assoc, Program.run_bind_of_ok _ hv]
    exact ih (fun e he => h e (by simp [he])) _

/-- A run that ends with one reply. -/
def Answers (p : RestProgram D Unit) (s : RestState D) (r : Reply D) : Prop :=
  ∃ s', p.run (perform env) s = .ok () s' ∧ s'.replies = s.replies ++ [r]

theorem answers_reply (r : Reply D) (s : RestState D) : Answers env (reply r) s r :=
  ⟨_, rfl, rfl⟩

theorem answers_bind_iff {α : Type} {p : RestProgram D α} {f : α → RestProgram D Unit} {a : α}
    {s s' : RestState D} {r : Reply D} (hp : p.run (perform env) s = .ok a s')
    (hs : s'.replies = s.replies) : Answers env (p >>= f) s r ↔ Answers env (f a) s' r := by
  unfold Answers
  rw [Program.run_bind_of_ok _ hp, hs]

theorem not_answers_bind {α : Type} {p : RestProgram D α} {f : α → RestProgram D Unit} {e : Fault}
    {s s' : RestState D} {r : Reply D} (hp : p.run (perform env) s = .error e s') :
    ¬ Answers env (p >>= f) s r := by
  rintro ⟨s'', hrun, _⟩
  rw [Program.run_bind] at hrun
  simp only [bind, EStateM.bind, hp] at hrun
  cases hrun

theorem Answers.of_run {α : Type} {p : RestProgram D α} {f : α → RestProgram D Unit} {a : α}
    {s s' : RestState D} {r : Reply D} (hp : p.run (perform env) s = .ok a s')
    (hs : s'.replies = s.replies) (h : Answers env (f a) s' r) : Answers env (p >>= f) s r :=
  (answers_bind_iff env hp hs).mpr h

theorem answers_files (s : RestState D) : ∃ r, Answers env getFiles s r := by
  have hmap : itemMap.run (perform env) s =
      .ok (s.process.world.memory.cache.entries.map fun e => (e.1, e.2)) s := rfl
  have hlisted : ∀ e ∈ s.process.world.memory.cache.entries.map fun e => (e.1, e.2),
      (s.item? e.1).isSome := by
    intro e he
    obtain ⟨entry, hentry, rfl⟩ := List.mem_map.mp he
    rw [RestState.item?, OrdMap.find?_eq_some.mpr hentry]
    rfl
  obtain ⟨vs, hvs⟩ := run_fileValues env hlisted
  refine ⟨.json (.array vs), ?_⟩
  apply Answers.of_run env hmap rfl
  exact Answers.of_run env hvs rfl (answers_reply env _ s)

theorem answers_services (s : RestState D) :
    ∃ r, Answers env (getServices env.indeterminate) s r :=
  ⟨_, Answers.of_run env rfl rfl (answers_reply env _ s)⟩

theorem answers_serviceAnnouncement (s : RestState D) :
    ∃ r, Answers env (getServiceAnnouncement env.indeterminate) s r := by
  have hcall : serviceAnnouncement.run (perform env) s =
      .ok (s.process.serviceAnnouncement.map fun sa => (sa, s.process.world.items)) s := rfl
  cases hsa : s.process.serviceAnnouncement with
  | none =>
    rw [hsa] at hcall
    exact ⟨_, Answers.of_run env hcall rfl (answers_reply env _ s)⟩
  | some sa =>
    rw [hsa] at hcall
    exact ⟨_, Answers.of_run env hcall rfl (answers_reply env _ s)⟩

/-- The item is a segment without data, and asking the CDN for them throws. -/
def FetchThrows (s : RestState D) (location : Str) (e : Fault) : Prop :=
  ∃ item, s.item? location = some item ∧ ∃ s', readBuffer env item s = .error e s'

theorem readBuffer_ok {item : CacheItem} {s s' : RestState D} {b : Option Str}
    (h : readBuffer env item s = .ok b s') :
    s'.process = s.process ∧ s'.replies = s.replies ∧ (b.isSome → s' = s) := by
  cases item with
  | file => cases h; exact ⟨rfl, rfl, fun _ => rfl⟩
  | playlist => cases h; exact ⟨rfl, rfl, fun _ => rfl⟩
  | manifest => cases h; exact ⟨rfl, rfl, fun _ => rfl⟩
  | segment l r address =>
    simp only [readBuffer] at h
    split at h
    · split at h
      · cases h
        exact ⟨rfl, rfl, fun h => (by cases h)⟩
      · cases h
        exact ⟨rfl, rfl, fun _ => rfl⟩
      · cases h
    · cases h
      exact ⟨rfl, rfl, fun _ => rfl⟩

theorem answers_sendFile (bufferFirst : Bool) {location : Str} {item : CacheItem}
    {s : RestState D} (hitem : s.item? location = some item) {b : Str}
    (hb : readBuffer env item s = .ok (some b) s) :
    ∃ r, Answers env (sendFile bufferFirst location) s r := by
  have hsource : (itemSourceAsString location).run (perform env) s =
      .ok (itemSource s.process.world item).asString s :=
    (Program.run_perform _ _ _).trans (run_access hitem _)
  have hlength : (contentLength location).run (perform env) s =
      .ok ((itemView s.process.world.objects).contentLength item) s :=
    (Program.run_perform _ _ _).trans (run_access hitem _)
  have hbuffer : (buffer location).run (perform env) s = .ok (some b) s :=
    (Program.run_perform _ _ _).trans ((run_access hitem _).trans hb)
  refine ⟨.file (itemSource s.process.world item).asString (some b)
    ((itemView s.process.world.objects).contentLength item), ?_⟩
  apply Answers.of_run env hsource rfl
  cases bufferFirst
  · apply Answers.of_run env hlength rfl
    exact Answers.of_run env hbuffer rfl (answers_reply env _ s)
  · apply Answers.of_run env hbuffer rfl
    exact Answers.of_run env hlength rfl (answers_reply env _ s)

theorem answers_getFile_iff (bufferFirst : Bool) (location : Str) (s : RestState D) :
    (∃ r, Answers env (getFile bufferFirst location) s r) ↔
      ∀ e, ¬ FetchThrows env s location e := by
  have hfind : (find location).run (perform env) s = .ok (s.item? location).isSome s := rfl
  cases hitem : s.item? location with
  | none =>
    rw [hitem] at hfind
    constructor
    · rintro _ e ⟨item, h, _⟩
      rw [hitem] at h
      cases h
    · exact fun _ => ⟨_, Answers.of_run env hfind rfl (answers_reply env _ s)⟩
  | some item =>
    rw [hitem] at hfind
    have hbuffer : (buffer location).run (perform env) s = readBuffer env item s :=
      (Program.run_perform _ _ _).trans (run_access hitem _)
    cases hread : readBuffer env item s with
    | error e s' =>
      rw [hread] at hbuffer
      constructor
      · rintro ⟨r, hr⟩
        exact absurd ((answers_bind_iff env hfind rfl).mp hr) (not_answers_bind env hbuffer)
      · exact fun h => absurd ⟨item, hitem, s', hread⟩ (h e)
    | ok b s' =>
      rw [hread] at hbuffer
      obtain ⟨_, hreplies, hsame⟩ := readBuffer_ok env hread
      constructor
      · rintro _ e ⟨item', h, s'', h'⟩
        rw [hitem] at h
        cases h
        rw [hread] at h'
        cases h'
      · intro _
        cases b with
        | none =>
          refine ⟨.notFound, Answers.of_run env hfind rfl ?_⟩
          exact Answers.of_run env hbuffer hreplies (answers_reply env _ s')
        | some b =>
          cases hsame rfl
          obtain ⟨r, hr⟩ := answers_sendFile env bufferFirst hitem hread
          refine ⟨r, Answers.of_run env hfind rfl ?_⟩
          exact Answers.of_run env hbuffer rfl hr

variable (cfg : RestConfig) (message : HttpRequest)

/-- The run of a handler stays within the parts of the path and ends with one
reply, which is `Unauthorized` where the token is wrong. -/
def Handled (p : RestProgram D Unit) (s : RestState D) : Prop :=
  (p.run (perform env) s).fault? ≠ some .outOfBounds ∧
    ∃ r, Answers env p s r ∧ (authorized cfg message = false → r = .unauthorized)

/-- The path can be decoded; where the token is right it is not the API path
alone, and asking the CDN for a file does not throw. -/
def GetAnswerable (s : RestState D) : Prop :=
  ∃ path, env.decode message.path = some path ∧ (authorized cfg message = true →
    env.splitPath path ≠ [cfg.apiPath] ∧
    ∀ first ∈ (env.splitPath path).head?, first ≠ cfg.apiPath →
      ∀ e, ¬ FetchThrows env s (message.uri.drop 1) e)

/-- The token is wrong, or the path can be decoded and is empty. -/
def PutAnswerable : Prop :=
  authorized cfg message = true →
    ∃ path, env.decode message.path = some path ∧ env.splitPath path = []

theorem Answers.fault {p : RestProgram D Unit} {s : RestState D} {r : Reply D}
    (h : Answers env p s r) : (p.run (perform env) s).fault? ≠ some .outOfBounds := by
  obtain ⟨s', hrun, _⟩ := h
  rw [hrun]
  exact fun h => (by cases h)

theorem handled_of_authorized (h : authorized cfg message = true) (p : RestProgram D Unit)
    (s : RestState D) : Handled env cfg message p s ↔ ∃ r, Answers env p s r := by
  constructor
  · rintro ⟨_, r, hr, _⟩
    exact ⟨r, hr⟩
  · rintro ⟨r, hr⟩
    exact ⟨hr.fault, r, hr, fun h' => absurd (h.symm.trans h') (by decide)⟩

theorem run_paths (s : RestState D) :
    (Program.ofExcept (paths env message)).run (perform env) s =
      match env.decode message.path with
      | some path => .ok (env.splitPath path) s
      | none => .error .uriException s := by
  unfold paths
  cases env.decode message.path <;> rfl

theorem answers_get_of_authorized (h : authorized cfg message = true) (path : Str)
    (hpath : env.decode message.path = some path) (s : RestState D) :
    (∃ r, Answers env (get env cfg message) s r) ↔
      env.splitPath path ≠ [cfg.apiPath] ∧
      ∀ first ∈ (env.splitPath path).head?, first ≠ cfg.apiPath →
        ∀ e, ¬ FetchThrows env s (message.uri.drop 1) e := by
  have hrun := run_paths env message s
  rw [hpath] at hrun
  have hget : ∀ r, Answers env (get env cfg message) s r ↔ _ := fun r =>
    answers_bind_iff env hrun rfl
  simp only [hget, if_pos h]
  cases env.splitPath path with
  | nil => exact ⟨fun _ => ⟨by simp, by simp⟩, fun _ => ⟨_, answers_reply env _ s⟩⟩
  | cons first rest =>
    dsimp only [List.head?_cons]
    by_cases hfirst : first = cfg.apiPath
    · rw [if_pos hfirst]
      have hhead : ∀ f ∈ some first, f ≠ cfg.apiPath →
          ∀ e, ¬ FetchThrows env s (message.uri.drop 1) e := by
        intro f hf hne
        cases hf
        exact absurd hfirst hne
      cases rest with
      | nil =>
        subst hfirst
        constructor
        · rintro ⟨r, s', hthrow, _⟩
          cases hthrow
        · exact fun hne => absurd rfl hne.1
      | cons resource rest =>
        refine ⟨fun _ => ⟨by simp, hhead⟩, fun _ => ?_⟩
        dsimp only
        split
        · exact answers_serviceAnnouncement env s
        · split
          · exact answers_files env s
          · split
            · exact answers_services env s
            · exact ⟨_, answers_reply env _ s⟩
    · rw [if_neg hfirst, answers_getFile_iff]
      constructor
      · refine fun hthrows => ⟨?_, fun _ _ _ => hthrows⟩
        intro heq
        exact hfirst (List.cons.inj heq).1
      · exact fun hthrows => hthrows.2 first rfl hfirst

theorem handled_get_iff (s : RestState D) :
    Handled env cfg message (get env cfg message) s ↔ GetAnswerable env cfg message s := by
  have hrun := run_paths env message s
  unfold GetAnswerable
  cases hpath : env.decode message.path with
  | none =>
    rw [hpath] at hrun
    constructor
    · rintro ⟨_, r, hr, _⟩
      exact absurd hr (not_answers_bind env hrun)
    · rintro ⟨path, h, _⟩
      cases h
  | some path =>
    cases h : authorized cfg message with
    | false =>
      rw [hpath] at hrun
      have hreply : Answers env (get env cfg message) s .unauthorized := by
        apply Answers.of_run env hrun rfl
        rw [h]
        exact answers_reply env _ s
      exact ⟨fun _ => ⟨path, rfl, fun h' => (by cases h')⟩,
        fun _ => ⟨hreply.fault, _, hreply, fun _ => rfl⟩⟩
    | true =>
      rw [handled_of_authorized env cfg message h, answers_get_of_authorized env cfg message h path hpath]
      constructor
      · exact fun hget => ⟨path, rfl, fun _ => hget⟩
      · rintro ⟨path', h', hget⟩
        cases h'
        exact hget rfl

theorem handled_put_iff (s : RestState D) :
    Handled env cfg message (put env cfg message) s ↔ PutAnswerable env cfg message := by
  unfold PutAnswerable
  cases h : authorized cfg message with
  | false =>
    have hreply : Answers env (put env cfg message) s .unauthorized := by
      unfold put
      rw [h]
      exact answers_reply env _ s
    exact ⟨fun _ h' => (by cases h'), fun _ => ⟨hreply.fault, _, hreply, fun _ => rfl⟩⟩
  | true =>
    rw [handled_of_authorized env cfg message h]
    have hput : (put env cfg message : RestProgram D Unit) =
        (Program.ofExcept (paths env message) >>= fun paths =>
          if paths = [] then reply .notFound else pure ()) := by
      unfold put
      rw [h]
      refine congrArg (Program.ofExcept (paths env message) >>= ·) (funext fun paths => ?_)
      cases paths <;> rfl
    rw [hput]
    have hrun := run_paths env message s
    cases hpath : env.decode message.path with
    | none =>
      rw [hpath] at hrun
      constructor
      · rintro ⟨r, hr⟩
        exact absurd hr (not_answers_bind env hrun)
      · intro hp
        obtain ⟨path, h', _⟩ := hp rfl
        cases h'
    | some path =>
      rw [hpath] at hrun
      rw [exists_congr fun r => answers_bind_iff env hrun rfl]
      constructor
      · rintro ⟨r, s', hr, hreplies⟩ _
        refine ⟨path, rfl, ?_⟩
        cases hsplit : env.splitPath path with
        | nil => rfl
        | cons first rest =>
          rw [hsplit] at hr
          cases hr
          simp at hreplies
      · intro hp
        obtain ⟨path', h', hsplit⟩ := hp rfl
        cases h'
        rw [hsplit]
        exact ⟨_, answers_reply env _ s⟩

/-- A GET and a PUT are handled as they should be exactly where they are
answerable. -/
theorem request_answered_once (s : RestState D) :
    (Handled env cfg message (get env cfg message) s ↔ GetAnswerable env cfg message s) ∧
      (Handled env cfg message (put env cfg message) s ↔ PutAnswerable env cfg message) :=
  ⟨handled_get_iff env cfg message s, handled_put_iff env cfg message s⟩

section Example

/-- Paths without escapes. -/
def plainRest : RestEnvironment Int where
  toEnvironment := ServiceAnnouncement.bareEnvironment
  decode := some
  splitPath path := (path.splitOn '/').filter (· ≠ [])
  cdnResponse _ _ := .ok
  now := 1000
  bufferFirst := true

def requestFor (path : String) : HttpRequest where
  path := path.toList
  uri := path.toList

def idleState : RestState Int where
  process := { world := .initial ServiceAnnouncement.bareEnvironment }

/-- A GET for the API path alone reads behind the end of the path, and a PUT
with a path is not answered. -/
theorem api_path_alone_not_handled :
    ¬ Handled plainRest {} (requestFor "/mw-api") (get plainRest {} (requestFor "/mw-api")) idleState ∧
    ¬ Handled plainRest {} (requestFor "/mw-api/files") (put plainRest {} (requestFor "/mw-api/files"))
      idleState := by
  constructor
  · rintro ⟨h, _⟩
    exact absurd rfl h
  · rintro ⟨_, r, ⟨s', hrun, hreplies⟩, _⟩
    cases hrun
    cases hreplies

end Example

end RestHandler

end MbmsMiddleware
