import MbmsMiddleware.RestHandler

/-! Requests for files, call by call: what is left of a request when it has come
so far, and what it has read of its item. -/

namespace MbmsMiddleware

/-- What an item answers at one instant. -/
@[ext] structure ItemVersion where
  origin : Str
  buffer : Option Str
  contentLength : Nat
  deriving DecidableEq

namespace RestState

variable {D : Type} (env : RestEnvironment D)

def withWorld (s : RestState D) (w : World D) : RestState D :=
  { s with process := { s.process with world := w } }

/-- A download that is under way for a segment comes to its end. The segment is
taken to be there still: the callback holds a plain pointer to it. -/
def cdnCompletion (segment now : Nat) (file : Str) (s : RestState D) : RestState D :=
  if segment ∈ s.downloads then
    let w := s.process.world
    { s.withWorld { w with memory := { w.memory with
        segment := Function.update w.memory.segment segment
          ((w.memory.segment segment).cdnFileReceived now file) } } with
      downloads := s.downloads.erase segment }
  else s

def bufferText (w : World D) : CacheItem → Option Str
  | .file _ _ file => some file.buffer
  | .segment _ _ address => (w.memory.segment address).buffer.1
  | .playlist _ _ owner | .manifest _ _ owner => some (w.objects.text owner)

def versionOf (w : World D) (item : CacheItem) : ItemVersion where
  origin := (itemSource w item).asString
  buffer := bufferText w item
  contentLength := (itemView w.objects).contentLength item

/-- The version of the item at a location, if it is listed. -/
def version (s : RestState D) (location : Str) : Option ItemVersion :=
  (s.item? location).map (versionOf s.process.world)

theorem version_congr {s s' : RestState D} (h : s'.process = s.process) (location : Str) :
    s'.version location = s.version location := by
  unfold version item?
  rw [h]

theorem readBuffer_process (item : CacheItem) (s : RestState D) :
    (readBuffer env item s).state.process = s.process := by
  unfold readBuffer
  split
  · rfl
  · rfl
  · rfl
  · dsimp only
    split
    · split <;> rfl
    · rfl

theorem perform_process (op : RestCall D) (s : RestState D) :
    (perform env op s).state.process = s.process := by
  cases op with
  | buffer location =>
    simp only [perform, access]
    split
    · exact readBuffer_process env _ s
    · rfl
  | itemSourceAsString | contentLength | receivedAt =>
    simp only [perform, access]
    split <;> rfl
  | _ => rfl

theorem readBuffer_spec (item : CacheItem) (s : RestState D) :
    (readBuffer env item s).Ensures
      (fun b s' => b = bufferText s.process.world item ∧ (b ≠ none → s' = s))
      (fun _ _ => bufferText s.process.world item = none) := by
  cases item with
  | file => exact ⟨rfl, fun _ => rfl⟩
  | playlist => exact ⟨rfl, fun _ => rfl⟩
  | manifest => exact ⟨rfl, fun _ => rfl⟩
  | segment l r address =>
    simp only [readBuffer, bufferText]
    cases hb : (s.process.world.memory.segment address).buffer with
    | mk b asks =>
      split
      · rename_i client heq _
        cases heq
        split
        · exact ⟨rfl, fun h => absurd rfl h⟩
        · exact ⟨rfl, fun _ => rfl⟩
        · rfl
      · rename_i b' asks' heq _
        cases heq
        exact ⟨rfl, fun _ => rfl⟩

section Accessors

variable {location : Str} {s : RestState D} {v : ItemVersion} (h : s.version location = some v)
include h

theorem perform_find : perform env (.find location) s = .ok true s := by
  obtain ⟨item, hitem, _⟩ := Option.map_eq_some_iff.mp h
  simp only [perform, hitem, Option.isSome_some]

theorem perform_itemSourceAsString :
    perform env (.itemSourceAsString location) s = .ok v.origin s := by
  obtain ⟨item, hitem, rfl⟩ := Option.map_eq_some_iff.mp h
  simp only [perform, access, hitem]
  rfl

theorem perform_contentLength :
    perform env (.contentLength location) s = .ok v.contentLength s := by
  obtain ⟨item, hitem, rfl⟩ := Option.map_eq_some_iff.mp h
  simp only [perform, access, hitem]
  rfl

theorem perform_buffer :
    (perform env (.buffer location) s).Ensures (fun b s' => b = v.buffer ∧ (b ≠ none → s' = s))
      (fun _ _ => v.buffer = none) := by
  obtain ⟨item, hitem, rfl⟩ := Option.map_eq_some_iff.mp h
  simp only [perform, access, hitem]
  exact readBuffer_spec env item s

theorem eq_of_itemSourceAsString {o : Str} {s' : RestState D}
    (hop : perform env (.itemSourceAsString location) s = .ok o s') : o = v.origin := by
  rw [perform_itemSourceAsString env h] at hop
  cases hop
  rfl

theorem eq_of_contentLength {n : Nat} {s' : RestState D}
    (hop : perform env (.contentLength location) s = .ok n s') : n = v.contentLength := by
  rw [perform_contentLength env h] at hop
  cases hop
  rfl

theorem eq_of_buffer {b : Option Str} {s' : RestState D}
    (hop : perform env (.buffer location) s = .ok b s') : b = v.buffer := by
  have hbuffer := perform_buffer env h
  rw [hop] at hbuffer
  exact hbuffer.1

end Accessors

end RestState

/-- A request under way: what is left of its handler, the origin, address and
length that it has read for its reply, and its replies. -/
structure Request (D : Type) where
  program : RestProgram D Unit
  origin : Option Str := none
  buffer : Option (Option Str) := none
  contentLength : Option Nat := none
  replies : List (Reply D) := []

namespace Request

open RestHandler RestState

variable {D : Type} (env : RestEnvironment D)

/-- The first call of `buffer()` is a test and leaves nothing for the reply. -/
def note (op : RestCall D) (result : op.Result) (q : Request D) : Request D :=
  match op, result with
  | .itemSourceAsString _, origin => { q with origin := some origin }
  | .buffer _, buffer => if q.origin.isSome then { q with buffer := some buffer } else q
  | .contentLength _, length => { q with contentLength := some length }
  | .reply r, _ => { q with replies := q.replies ++ [r] }
  | _, _ => q

/-- The next call of a request. -/
def advance (q : Request D) (s : RestState D) : Request D × RestState D :=
  match q.program with
  | .call op next =>
    match perform env op s with
    | .ok result s => ({ q.note op result with program := next result }, s)
    | .error e s => ({ q with program := .throw e }, s)
  | _ => (q, s)

/-- How far a request for a file has come. -/
inductive Stage (bufferFirst : Bool) (location : Str) : Request D → Prop
  | find : Stage bufferFirst location { program := getFile bufferFirst location }
  | item : Stage bufferFirst location { program := getItem bufferFirst location }
  | send : Stage bufferFirst location { program := sendFile bufferFirst location }
  | openStream (o : Str) : Stage bufferFirst location
      { program := openStream bufferFirst location o, origin := some o }
  | contentLength (o : Str) (b : Option Str) : Stage bufferFirst location
      { program := do
          let length ← RestHandler.contentLength location
          reply (.file o b length)
        origin := some o
        buffer := some b }
  | buffer (o : Str) (n : Nat) : Stage bufferFirst location
      { program := do
          let buffer ← RestHandler.buffer location
          reply (.file o buffer n)
        origin := some o
        contentLength := some n }
  | reply (o : Str) (b : Option Str) (n : Nat) : Stage bufferFirst location
      { program := RestHandler.reply (.file o b n)
        origin := some o
        buffer := some b
        contentLength := some n }
  | notFound : Stage bufferFirst location { program := RestHandler.reply .notFound }
  | replied (o : Str) (b : Option Str) (n : Nat) : Stage bufferFirst location
      { program := pure ()
        origin := some o
        buffer := some b
        contentLength := some n
        replies := [.file o b n] }
  | repliedNotFound : Stage bufferFirst location { program := pure (), replies := [.notFound] }
  | failed (e : Fault) (o : Option Str) (b : Option (Option Str)) (n : Option Nat) :
      Stage bufferFirst location ⟨.throw e, o, b, n, []⟩

theorem advance_process (q : Request D) (s : RestState D) :
    (q.advance env s).2.process = s.process := by
  unfold advance
  split
  · rename_i op next _
    have h := perform_process env op s
    cases hop : perform env op s <;> rw [hop] at h <;> exact h
  · rfl

theorem advance_bind (op : RestCall D) {f : op.Result → RestProgram D Unit} {q : Request D}
    (h : q.program = Program.perform op >>= f) (s : RestState D) :
    q.advance env s = match perform env op s with
      | .ok result s => ({ q.note op result with program := f result }, s)
      | .error e s => ({ q with program := .throw e }, s) := by
  unfold advance
  rw [h]
  rfl

theorem advance_reply {r : Reply D} {q : Request D} (h : q.program = RestHandler.reply r)
    (s : RestState D) :
    q.advance env s =
      ({ q with program := pure (), replies := q.replies ++ [r] },
        { s with replies := s.replies ++ [r] }) := by
  unfold advance
  rw [h]
  rfl

/-- What the request has read of its item is of one version. -/
def ReadsOf (q : Request D) (v : ItemVersion) : Prop :=
  (∀ o, q.origin = some o → o = v.origin) ∧ (∀ b, q.buffer = some b → b = v.buffer) ∧
    ∀ n, q.contentLength = some n → n = v.contentLength

/-- A call takes the request to its next stage, and what it reads is of the
current version of the item. -/
theorem Stage.advance {bufferFirst : Bool} {location : Str} {q : Request D}
    (h : Stage bufferFirst location q) (s : RestState D) :
    Stage bufferFirst location (q.advance env s).1 ∧
      ∀ v, s.version location = some v → q.ReadsOf v → (q.advance env s).1.ReadsOf v := by
  cases h with
  | find =>
    rw [advance_bind env (.find location) rfl]
    simp only [perform]
    cases (s.item? location).isSome with
    | true => exact ⟨.item, fun v _ hr => hr⟩
    | false => exact ⟨.notFound, fun v _ hr => hr⟩
  | item =>
    rw [advance_bind env (.buffer location) rfl]
    cases perform env (.buffer location) s with
    | error e s' => exact ⟨.failed e _ _ _, fun v _ hr => hr⟩
    | ok b s' =>
      cases b with
      | none => exact ⟨.notFound, fun v _ hr => hr⟩
      | some b => exact ⟨.send, fun v _ hr => hr⟩
  | send =>
    rw [advance_bind env (.itemSourceAsString location) rfl]
    cases hop : perform env (.itemSourceAsString location) s with
    | error e s' => exact ⟨.failed e _ _ _, fun v _ hr => hr⟩
    | ok o s' =>
      refine ⟨.openStream o, fun v hv hr => ⟨fun o' ho' => ?_, hr.2⟩⟩
      cases ho'
      exact eq_of_itemSourceAsString env hv hop
  | openStream o =>
    cases bufferFirst with
    | true =>
      rw [advance_bind env (.buffer location) rfl]
      cases hop : perform env (.buffer location) s with
      | error e s' => exact ⟨.failed e _ _ _, fun v _ hr => hr⟩
      | ok b s' =>
        refine ⟨.contentLength o b, fun v hv hr => ⟨hr.1, fun b' hb' => ?_, hr.2.2⟩⟩
        cases hb'
        exact eq_of_buffer env hv hop
    | false =>
      rw [advance_bind env (.contentLength location) rfl]
      cases hop : perform env (.contentLength location) s with
      | error e s' => exact ⟨.failed e _ _ _, fun v _ hr => hr⟩
      | ok n s' =>
        refine ⟨.buffer o n, fun v hv hr => ⟨hr.1, hr.2.1, fun n' hn' => ?_⟩⟩
        cases hn'
        exact eq_of_contentLength env hv hop
  | contentLength o b =>
    rw [advance_bind env (.contentLength location) rfl]
    cases hop : perform env (.contentLength location) s with
    | error e s' => exact ⟨.failed e _ _ _, fun v _ hr => hr⟩
    | ok n s' =>
      refine ⟨.reply o b n, fun v hv hr => ⟨hr.1, hr.2.1, fun n' hn' => ?_⟩⟩
      cases hn'
      exact eq_of_contentLength env hv hop
  | buffer o n =>
    rw [advance_bind env (.buffer location) rfl]
    cases hop : perform env (.buffer location) s with
    | error e s' => exact ⟨.failed e _ _ _, fun v _ hr => hr⟩
    | ok b s' =>
      refine ⟨.reply o b n, fun v hv hr => ⟨hr.1, fun b' hb' => ?_, hr.2.2⟩⟩
      cases hb'
      exact eq_of_buffer env hv hop
  | reply o b n =>
    rw [advance_reply env rfl]
    exact ⟨.replied o b n, fun v _ hr => hr⟩
  | notFound =>
    rw [advance_reply env rfl]
    exact ⟨.repliedNotFound, fun v _ hr => hr⟩
  | replied o b n => exact ⟨.replied o b n, fun v _ hr => hr⟩
  | repliedNotFound => exact ⟨.repliedNotFound, fun v _ hr => hr⟩
  | failed e o b n => exact ⟨.failed e o b n, fun v _ hr => hr⟩

/-- The origin is read while the item is listed, and before anything else. -/
theorem Stage.origin_advance {bufferFirst : Bool} {location : Str} {q : Request D}
    (h : Stage bufferFirst location q) {s : RestState D} (ho : q.origin = none)
    (ho' : (q.advance env s).1.origin ≠ none) :
    ∃ v, s.version location = some v ∧ q.ReadsOf v := by
  cases h with
  | find =>
    rw [advance_bind env (.find location) rfl] at ho'
    exact absurd rfl ho'
  | item =>
    rw [advance_bind env (.buffer location) rfl] at ho'
    cases hop : perform env (.buffer location) s <;> rw [hop] at ho' <;> exact absurd rfl ho'
  | send =>
    rw [advance_bind env (.itemSourceAsString location) rfl] at ho'
    cases hv : s.version location with
    | some v => exact ⟨v, rfl, fun _ h => (by cases h), fun _ h => (by cases h), fun _ h => (by cases h)⟩
    | none =>
      have hitem : s.item? location = none := Option.map_eq_none_iff.mp hv
      simp only [perform, access, hitem] at ho'
      exact absurd rfl ho'
  | notFound =>
    rw [advance_reply env rfl] at ho'
    exact absurd rfl ho'
  | repliedNotFound => exact absurd ho ho'
  | failed e o b n => exact absurd ho ho'
  | openStream o => cases ho
  | contentLength o b => cases ho
  | buffer o n => cases ho
  | reply o b n => cases ho
  | replied o b n => cases ho

/-- Nothing more is read once a reply was sent. -/
theorem Stage.advance_of_replied {bufferFirst : Bool} {location : Str} {q : Request D}
    (h : Stage bufferFirst location q) (hr : q.replies ≠ []) (s : RestState D) :
    q.advance env s = (q, s) := by
  cases h <;> first | rfl | exact absurd rfl hr

/-- A reply with a file is made of what was read. -/
theorem Stage.reads_of_mem {bufferFirst : Bool} {location : Str} {q : Request D}
    (h : Stage bufferFirst location q) {o : Str} {b : Option Str} {n : Nat}
    (hr : .file o b n ∈ q.replies) :
    q.origin = some o ∧ q.buffer = some b ∧ q.contentLength = some n := by
  cases h with
  | replied o' b' n' =>
    cases List.mem_singleton.mp hr
    exact ⟨rfl, rfl, rfl⟩
  | repliedNotFound => cases List.mem_singleton.mp hr
  | _ => cases hr

/-- A file that can be requested by its location. -/
structure ForFile (cfg : RestConfig) (message : HttpRequest) (location : Str) : Prop where
  authorized : authorized cfg message = true
  path : ∃ path first rest, env.decode message.path = some path ∧
    env.splitPath path = first :: rest ∧ first ≠ cfg.apiPath
  uri : message.uri.drop 1 = location

theorem ForFile.get {cfg : RestConfig} {message : HttpRequest} {location : Str}
    (h : ForFile env cfg message location) :
    (RestHandler.get env cfg message : RestProgram D Unit) = getFile env.bufferFirst location := by
  obtain ⟨path, first, rest, hpath, hsplit, hfirst⟩ := h.path
  have hpaths : paths env message = .ok (first :: rest) := by
    unfold paths
    rw [hpath, ← hsplit]
    rfl
  unfold RestHandler.get
  rw [hpaths]
  show (if RestHandler.authorized cfg message = true then
    (if first = cfg.apiPath then _ else getFile env.bufferFirst (message.uri.drop 1)) else _) = _
  rw [if_pos h.authorized, if_neg hfirst, h.uri]

end Request

end MbmsMiddleware
