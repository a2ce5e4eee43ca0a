import MbmsMiddleware.FileRequests
import MbmsMiddleware.ObjectLifetimes
import MbmsMiddleware.RestReplies
import MbmsMiddleware.Session

/-! A request for a file while its item changes: whether the origin, the bytes
and the length that are sent belong together. The reply refers to the bytes by a
raw pointer, and they are read when it is sent. -/

namespace MbmsMiddleware

/-- What may happen to an item between two calls of a request. -/
inductive ItemUpdate where
  | handlePlaylist (address : Nat) (indeterminate : Int) (content : Str) (source : ItemSource)
  | addAndStartContentStream (service address : Nat)
  | cdnCompletion (segment now : Nat) (file : Str)

/-- Memory that is written, or freed, when something is assigned to it. -/
inductive Storage where
  | text (owner : PlaylistOwner)
  | cdnFile (segment : Nat)
  deriving DecidableEq

namespace World

variable {D : Type}

/-- Where the bytes of an item stand, if they can be assigned. A broadcast file
stays as it is as long as its item or its segment is there. -/
def storage (w : World D) : CacheItem → Option Storage
  | .file .. => none
  | .segment _ _ address =>
    if (w.memory.segment address).completeFluteFile.isSome then none else some (.cdnFile address)
  | .playlist _ _ owner | .manifest _ _ owner => some (.text owner)

/-- The stream that loses its place when another one is added. -/
def displaced (w : World D) (service address : Nat) : Option Nat :=
  ((w.service service).contentStreams.find? (w.stream address).content.playlistPath).filter
    (· ≠ address)

variable [DoubleText D]

/-- What an update assigns. The text of a stream that loses its place goes with it. -/
def assigned (w : World D) : ItemUpdate → List Storage
  | .handlePlaylist address indeterminate content _ =>
    match w.stream address, (HlsMediaPlaylist.parse indeterminate content :
        Except Fault (HlsMediaPlaylist D)) with
    | .seamless _, .ok _ => [.text (.stream address)]
    | _, _ => []
  | .addAndStartContentStream service address =>
    let started := ((w.service service).matchStream (w.stream address).content).start
    (match started, (w.service service).deliveryProtocol with
      | .ok _, .hls | .ok _, .dash => [.text (.service service)]
      | _, _ => []) ++
    (w.displaced service address).toList.map fun a => .text (.stream a)
  | .cdnCompletion segment _ _ => [.cdnFile segment]

end World

namespace RestState

variable {D : Type}

variable [DoubleText D] (env : RestEnvironment D)

/-- A playlist that is rejected changes nothing. Where it ends the process nothing is
sent any more. -/
def handlePlaylist (address : Nat) (indeterminate : Int) (content : Str) (source : ItemSource)
    (w : World D) : World D :=
  match w.stream address with
  | .basic _ => w
  | .seamless s =>
    match SeamlessContentStream.handlePlaylist indeterminate content source (s, w.memory) with
    | .ok st => w.storeStream address st
    | .error _ => w

def update (u : ItemUpdate) (s : RestState D) : RestState D :=
  match u with
  | .handlePlaylist address indeterminate content source =>
    s.withWorld (handlePlaylist address indeterminate content source s.process.world)
  | .addAndStartContentStream service address =>
    s.withWorld (World.addAndStartContentStream env.toEnvironment service address
      s.process.world).state
  | .cdnCompletion segment now file => s.cdnCompletion segment now file

omit [DoubleText D] in
/-- An update is defined if no seamless stream loses its place, and if a download that
ends does so for a segment that is still there. -/
def Defined (s : RestState D) : ItemUpdate → Prop
  | .handlePlaylist .. => True
  | .addAndStartContentStream service address =>
    ∀ a ∈ s.process.world.displaced service address, (s.process.world.stream a).asSeamless? = none
  | .cdnCompletion segment _ _ => segment ∈ s.downloads → s.process.world.HasSegment segment

end RestState

/-- A request and the state it works on. `intact` tells whether the memory that
the reply refers to is still what it was when its address was taken, and `sent`
what has been sent, with `none` where that memory was not. -/
structure RequestRun (D : Type) where
  state : RestState D
  request : Request D
  intact : Bool := true
  sent : Option (Option ItemVersion) := none

/-- The reply is sent some time after it has been handed over. -/
inductive RequestEvent where
  | call
  | update (u : ItemUpdate)
  | send

namespace RequestRun

open RestState Request

variable {D : Type} [DoubleText D] (env : RestEnvironment D) (location : Str)

/-- The item is still listed, and nothing is assigned where its bytes stand. -/
def KeepsBytes (s : RestState D) (u : ItemUpdate) : Prop :=
  (s.update env u).item? location = s.item? location ∧
    ∀ item ∈ s.item? location, ∀ storage ∈ s.process.world.storage item,
      storage ∉ s.process.world.assigned u

instance (s : RestState D) (u : ItemUpdate) : Decidable (KeepsBytes env location s u) :=
  inferInstanceAs (Decidable (_ ∧ _))

/-- What is sent of a reply that has been handed over. -/
def reply? (r : RequestRun D) : Option (Option ItemVersion) :=
  match r.request.replies with
  | [.file origin buffer length] => some (if r.intact then some ⟨origin, buffer, length⟩ else none)
  | _ => none

def step (r : RequestRun D) : RequestEvent → RequestRun D
  | .call =>
    { r with
      state := (r.request.advance env r.state).2
      request := (r.request.advance env r.state).1 }
  | .update u =>
    { r with
      state := r.state.update env u
      intact := r.intact && (r.request.buffer.isNone || decide (KeepsBytes env location r.state u)) }
  | .send => { r with sent := r.sent.or r.reply? }

/-- The origin has been read, and the reply has not been handed over. -/
def Reading (r : RequestRun D) : Prop := r.request.origin ≠ none ∧ r.request.replies = []

/-- An update is defined, and it leaves what the request has read of its item as it
is, and, until the reply is sent, the bytes where they are. -/
def KeepsReads (r : RequestRun D) : RequestEvent → Prop
  | .call | .send => True
  | .update u =>
    (r.Reading → ∀ v, r.state.version location = some v →
      ∃ v', (r.state.update env u).version location = some v' ∧ v'.origin = v.origin ∧
        (r.request.buffer ≠ none → v'.buffer = v.buffer) ∧
        (r.request.contentLength ≠ none → v'.contentLength = v.contentLength)) ∧
    (r.request.buffer ≠ none → r.sent = none → KeepsBytes env location r.state u) ∧
    r.state.Defined u

/-- What has been read so far is of the current version of the item. -/
structure Coherent (r : RequestRun D) : Prop where
  stage : Stage env.bufferFirst location r.request
  reads : r.Reading → ∃ v, r.state.version location = some v ∧ r.request.ReadsOf v

theorem Coherent.call {r : RequestRun D} (h : Coherent env location r) :
    Coherent env location (step env location r .call) := by
  have hstage := h.stage.advance env r.state
  have hversion := version_congr (advance_process env r.request r.state) location
  refine ⟨hstage.1, fun hreading => ?_⟩
  by_cases hreplies : r.request.replies = []
  · by_cases horigin : r.request.origin = none
    · obtain ⟨v, hv, hreads⟩ := h.stage.origin_advance env horigin hreading.1
      exact ⟨v, hversion.trans hv, hstage.2 v hv hreads⟩
    · obtain ⟨v, hv, hreads⟩ := h.reads ⟨horigin, hreplies⟩
      exact ⟨v, hversion.trans hv, hstage.2 v hv hreads⟩
  · have hsame := h.stage.advance_of_replied env hreplies r.state
    have hreading' := hreading.2
    simp only [step, hsame] at hreading'
    exact absurd hreading' hreplies

theorem Coherent.send {r : RequestRun D} (h : Coherent env location r) :
    Coherent env location (step env location r .send) := ⟨h.stage, h.reads⟩

theorem Coherent.update {r : RequestRun D} (h : Coherent env location r) {u : ItemUpdate}
    (hk : KeepsReads env location r (.update u)) : Coherent env location (step env location r (.update u)) := by
  refine ⟨h.stage, fun hreading => ?_⟩
  obtain ⟨v, hv, ho, hb, hn⟩ := h.reads hreading
  obtain ⟨v', hv', ho', hb', hn'⟩ := hk.1 hreading v hv
  refine ⟨v', hv', fun o h => (ho o h).trans ho'.symm, fun b h => ?_, fun n h => ?_⟩
  · exact (hb b h).trans (hb' (by simp [show r.request.buffer = some b from h])).symm
  · exact (hn n h).trans (hn' (by simp [show r.request.contentLength = some n from h])).symm

/-- A reply with a file is sent of the version that is current. -/
theorem Coherent.reply {r : RequestRun D} (h : Coherent env location r)
    (hnone : r.request.replies = []) {o : Str} {b : Option Str} {n : Nat}
    (hr : .file o b n ∈ (step env location r .call).request.replies) :
    r.state.version location = some ⟨o, b, n⟩ := by
  have hstage := h.stage.advance env r.state
  obtain ⟨ho, hb, hn⟩ := hstage.1.reads_of_mem hr
  have hv : ∃ v, r.state.version location = some v ∧ r.request.ReadsOf v := by
    by_cases horigin : r.request.origin = none
    · exact h.stage.origin_advance env horigin (by rw [ho]; simp)
    · exact h.reads ⟨horigin, hnone⟩
  obtain ⟨v, hv, hreads⟩ := hv
  obtain ⟨ho', hb', hn'⟩ := hstage.2 v hv hreads
  rw [hv, ho' o ho, hb' b hb, hn' n hn]

variable (cfg : RestConfig) (message : HttpRequest)

def begin (s : RestState D) : RequestRun D :=
  { state := s, request := { program := RestHandler.get env cfg message } }

variable {env location cfg message}

/-- A reply that is handed over was a version of the item. -/
theorem version_of_reply (hfile : ForFile env cfg message location) (s : RestState D)
    {es : List RequestEvent}
    (hm : Runs.StepsMeet (step env location) (KeepsReads env location) (begin env cfg message s) es)
    {o : Str} {b : Option Str} {n : Nat}
    (hr : .file o b n ∈ (es.foldl (step env location) (begin env cfg message s)).request.replies) :
    ∃ pre, pre <+: es ∧
      (pre.foldl (step env location) (begin env cfg message s)).state.version location =
        some ⟨o, b, n⟩ := by
  have hcoherent : ∀ es, Runs.StepsMeet (step env location) (KeepsReads env location)
      (begin env cfg message s) es →
      Coherent env location (es.foldl (step env location) (begin env cfg message s)) := by
    intro es hm
    refine hm.invariant (I := Coherent env location) (fun r e hr hk => ?_) ⟨?_, ?_⟩
    · cases e with
      | call => exact hr.call env location
      | update u => exact hr.update env location hk
      | send => exact hr.send env location
    · rw [begin, hfile.get]
      exact .find
    · exact fun h => absurd rfl h.1
  induction es using List.reverseRecOn with
  | nil => cases hr
  | append_singleton es e ih =>
    rw [List.foldl_append] at hr
    have hc := hcoherent es hm.of_append
    by_cases hnone : (es.foldl (step env location) (begin env cfg message s)).request.replies = []
    · cases e with
      | call => exact ⟨es, List.prefix_append _ _, hc.reply env location hnone hr⟩
      | update | send =>
        have hsame : .file o b n ∈
          (es.foldl (step env location) (begin env cfg message s)).request.replies := hr
        rw [hnone] at hsame
        cases hsame
    · have hsame : .file o b n ∈
          (es.foldl (step env location) (begin env cfg message s)).request.replies := by
        cases e with
        | call =>
          have hstay := hc.stage.advance_of_replied env hnone
            (es.foldl (step env location) (begin env cfg message s)).state
          simpa only [List.foldl_cons, List.foldl_nil, step, hstay] using hr
        | update | send => exact hr
      obtain ⟨pre, hpre, hv⟩ := ih hm.of_append hsame
      exact ⟨pre, hpre.trans (List.prefix_append _ _), hv⟩

/-- As long as nothing is sent the bytes are where they were, and what is sent is a
reply that has been handed over. -/
structure Intact (r : RequestRun D) : Prop where
  unsent : r.sent = none → r.intact = true
  replied : ∀ x, r.sent = some x → ∃ o b n, x = some ⟨o, b, n⟩ ∧ .file o b n ∈ r.request.replies

omit [DoubleText D] in
theorem reply?_eq_some {r : RequestRun D} (h : r.intact = true) {x : Option ItemVersion}
    (hx : r.reply? = some x) :
    ∃ o b n, x = some ⟨o, b, n⟩ ∧ .file o b n ∈ r.request.replies := by
  unfold reply? at hx
  split at hx
  · rename_i o b n hreplies
    rw [if_pos h] at hx
    cases hx
    exact ⟨o, b, n, rfl, by rw [hreplies]; exact List.mem_singleton.mpr rfl⟩
  · cases hx

omit [DoubleText D] in
theorem mem_replies_advance {env : RestEnvironment D} {q : Request D} (s : RestState D) {x : Reply D}
    (hx : x ∈ q.replies) : x ∈ (q.advance env s).1.replies := by
  have hnote : ∀ (op : RestCall D) (result : op.Result), x ∈ (q.note op result).replies := by
    intro op result
    unfold Request.note
    split
    · exact hx
    · split_ifs <;> exact hx
    · exact hx
    · exact List.mem_append_left _ hx
    · exact hx
  unfold Request.advance
  split
  · split
    · exact hnote _ _
    · exact hx
  · exact hx

theorem Intact.step {r : RequestRun D} (h : Intact r) {e : RequestEvent}
    (hk : KeepsReads env location r e) : Intact (step env location r e) := by
  cases e with
  | call =>
    refine ⟨h.unsent, fun x hx => ?_⟩
    obtain ⟨o, b, n, rfl, hm⟩ := h.replied x hx
    exact ⟨o, b, n, rfl, mem_replies_advance r.state hm⟩
  | update u =>
    refine ⟨fun hsent => ?_, h.replied⟩
    have hkeeps : r.request.buffer.isNone = true ∨ KeepsBytes env location r.state u := by
      by_cases hb : r.request.buffer = none
      · exact .inl (by rw [hb]; rfl)
      · exact .inr (hk.2.1 hb hsent)
    simpa [RequestRun.step, h.unsent hsent] using hkeeps
  | send =>
    constructor
    · intro hsent
      exact h.unsent (Option.or_eq_none_iff.mp hsent).1
    · intro x hx
      change r.sent.or r.reply? = some x at hx
      cases hsent : r.sent with
      | some y =>
        rw [hsent, Option.some_or] at hx
        exact h.replied x (hsent.trans hx)
      | none =>
        rw [hsent, Option.none_or] at hx
        exact reply?_eq_some (h.unsent hsent) hx

variable (env location cfg message)

/-- What is sent with a file is one version of the item, with its origin, bytes
and length, as it was at an instant of the request. -/
def SendsVersion (s : RestState D) (es : List RequestEvent) : Prop :=
  ∀ x, (es.foldl (step env location) (begin env cfg message s)).sent = some x →
    ∃ v, x = some v ∧ ∃ pre, pre <+: es ∧
      (pre.foldl (step env location) (begin env cfg message s)).state.version location = some v

/-- A request for a file sends one version of it in every run whose updates leave
what has been read as it is, and the bytes where they are. -/
theorem file_reply_is_snapshot (hfile : ForFile env cfg message location) (s : RestState D)
    {es : List RequestEvent}
    (hm : Runs.StepsMeet (step env location) (KeepsReads env location) (begin env cfg message s) es) :
    SendsVersion env location cfg message s es := by
  intro x hx
  have hintact : Intact (es.foldl (step env location) (begin env cfg message s)) :=
    hm.invariant (I := Intact) (fun _ _ h hk => h.step hk)
      ⟨fun _ => rfl, fun _ h => by cases h⟩
  obtain ⟨o, b, n, rfl, hr⟩ := hintact.replied x hx
  exact ⟨_, rfl, version_of_reply hfile s hm hr⟩

section Example

variable {env location}

theorem keepsReads_unread {r : RequestRun D} {u : ItemUpdate} (ho : r.request.origin = none)
    (hb : r.request.buffer = none) (hu : r.state.Defined u) : KeepsReads env location r (.update u) :=
  ⟨fun hr => absurd ho hr.1, fun hn => absurd hb hn, hu⟩

theorem keepsReads_same {r : RequestRun D} {u : ItemUpdate}
    (hv : (r.state.update env u).version location = r.state.version location)
    (hb : KeepsBytes env location r.state u) (hu : r.state.Defined u) :
    KeepsReads env location r (.update u) :=
  ⟨fun _ v h => ⟨v, hv.trans h, rfl, fun _ => rfl, fun _ => rfl⟩, fun _ _ => hb, hu⟩

open RestHandler (plainRest requestFor)

def playlistLocation : Str := "a.m3u8".toList

/-- Two seamless streams, of which the first has a playlist that is listed and has
not been rendered yet. -/
def playlistState : RestState Int where
  process := { world := { World.initial ServiceAnnouncement.bareEnvironment with
    stream := fun _ => .seamless { deliveryProtocol := .hls, base := [], playlistPath := playlistLocation }
    nextStream := 2
    memory :=
      { segment := fun _ => { contentLocation := [], seq := 0, extinf := 0 }
        nextSegment := 0
        cache := Cache.addItem .empty (.playlist playlistLocation 0 (.stream 0)) } } }

theorem forFile_playlist : ForFile plainRest {} (requestFor "/a.m3u8") playlistLocation where
  authorized := rfl
  path := ⟨"/a.m3u8".toList, playlistLocation, [], rfl, by decide, by decide⟩
  uri := rfl

def emptyPlaylist (address : Nat) : RequestEvent :=
  .update (.handlePlaylist address 0 "#EXTM3U".toList .cdn)

/-- The playlist is rewritten before it is read, and that of the other stream all
along. -/
def undisturbedRequest : List RequestEvent :=
  [emptyPlaylist 0, .call, .call, emptyPlaylist 0, .call, emptyPlaylist 1, .call, emptyPlaylist 1, .call,
    .call, emptyPlaylist 1, .send]

theorem file_reply_is_snapshot_undisturbed :
    SendsVersion plainRest playlistLocation {} (requestFor "/a.m3u8") playlistState
      undisturbedRequest := by
  have hsteps : Runs.StepsMeet (step plainRest playlistLocation) (KeepsReads plainRest playlistLocation)
      (begin plainRest {} (requestFor "/a.m3u8") playlistState) undisturbedRequest :=
    ⟨keepsReads_unread rfl rfl trivial, trivial, trivial, keepsReads_unread rfl rfl trivial, trivial,
      keepsReads_same (by decide +kernel) (by decide +kernel) trivial, trivial,
      keepsReads_same (by decide +kernel) (by decide +kernel) trivial, trivial, trivial,
      keepsReads_same (by decide +kernel) (by decide +kernel) trivial, trivial, trivial⟩
  exact file_reply_is_snapshot plainRest playlistLocation {} (requestFor "/a.m3u8")
    forFile_playlist playlistState hsteps

def lengthFirst : RestEnvironment Int := { plainRest with bufferFirst := false }

/-- The playlist is rewritten between the reading of its length and that of its
address, or, with the text that it has, before the reply is sent. -/
theorem reply_of_two_versions :
    ¬ SendsVersion lengthFirst playlistLocation {} (requestFor "/a.m3u8") playlistState
      [.call, .call, .call, .call, emptyPlaylist 0, .call, .call, .send] ∧
    ¬ SendsVersion plainRest playlistLocation {} (requestFor "/a.m3u8") playlistState
      [emptyPlaylist 0, .call, .call, .call, .call, .call, .call, emptyPlaylist 0, .send] := by
  constructor
  · intro h
    obtain ⟨v, hv, pre, hpre, hversion⟩ := h _ rfl
    cases hv
    rw [← List.mem_inits] at hpre
    revert pre
    decide +kernel
  · intro h
    obtain ⟨v, hv, -⟩ := h none (by decide +kernel)
    cases hv

end Example

end RequestRun

end MbmsMiddleware
