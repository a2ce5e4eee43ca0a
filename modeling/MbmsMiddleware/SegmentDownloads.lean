import MbmsMiddleware.FileRequests
import MbmsMiddleware.RestReplies

/-! Requests for a segment that only the CDN has, interleaved with each other and
with the downloads they set off. -/

namespace MbmsMiddleware

namespace Request

open RestHandler RestState

variable {D : Type} (env : RestEnvironment D)

/-- How far a request has come whose item has had the same version all along. -/
inductive Serving (bufferFirst : Bool) (location : Str) (v : ItemVersion) : Request D → Prop
  | find : Serving bufferFirst location v { program := getFile bufferFirst location }
  | item : Serving bufferFirst location v { program := getItem bufferFirst location }
  | send : Serving bufferFirst location v { program := sendFile bufferFirst location }
  | openStream : Serving bufferFirst location v
      { program := openStream bufferFirst location v.origin, origin := some v.origin }
  | contentLength : Serving bufferFirst location v
      { program := do
          let length ← RestHandler.contentLength location
          reply (.file v.origin v.buffer length)
        origin := some v.origin
        buffer := some v.buffer }
  | buffer : Serving bufferFirst location v
      { program := do
          let buffer ← RestHandler.buffer location
          reply (.file v.origin buffer v.contentLength)
        origin := some v.origin
        contentLength := some v.contentLength }
  | reply : Serving bufferFirst location v
      { program := RestHandler.reply (.file v.origin v.buffer v.contentLength)
        origin := some v.origin
        buffer := some v.buffer
        contentLength := some v.contentLength }
  | replied : Serving bufferFirst location v
      { program := pure ()
        origin := some v.origin
        buffer := some v.buffer
        contentLength := some v.contentLength
        replies := [.file v.origin v.buffer v.contentLength] }

theorem perform_buffer_of_some {location : Str} {s : RestState D} {v : ItemVersion}
    (hv : s.version location = some v) (hb : v.buffer ≠ none) :
    perform env (.buffer location) s = .ok v.buffer s := by
  have h := perform_buffer env hv
  cases hop : perform env (.buffer location) s with
  | error e s' =>
    rw [hop] at h
    exact absurd h hb
  | ok b s' =>
    rw [hop] at h
    obtain ⟨rfl, hsame⟩ := h
    rw [hsame hb]

/-- A request whose item has data goes on without asking the CDN. -/
theorem Serving.advance {bufferFirst : Bool} {location : Str} {v : ItemVersion} {q : Request D}
    (h : Serving bufferFirst location v q) {s : RestState D} (hv : s.version location = some v)
    (hb : v.buffer ≠ none) :
    Serving bufferFirst location v (q.advance env s).1 ∧ (q.advance env s).2.downloads = s.downloads := by
  have hbuffer := perform_buffer_of_some env hv hb
  cases h with
  | find =>
    rw [advance_bind env (.find location) rfl, perform_find env hv]
    exact ⟨.item, rfl⟩
  | item =>
    rw [advance_bind env (.buffer location) rfl, hbuffer]
    cases hbv : v.buffer with
    | none => exact absurd hbv hb
    | some b => exact ⟨.send, rfl⟩
  | send =>
    rw [advance_bind env (.itemSourceAsString location) rfl, perform_itemSourceAsString env hv]
    exact ⟨.openStream, rfl⟩
  | openStream =>
    cases bufferFirst with
    | true =>
      rw [advance_bind env (.buffer location) rfl, hbuffer]
      exact ⟨.contentLength, rfl⟩
    | false =>
      rw [advance_bind env (.contentLength location) rfl, perform_contentLength env hv]
      exact ⟨.buffer, rfl⟩
  | contentLength =>
    rw [advance_bind env (.contentLength location) rfl, perform_contentLength env hv]
    exact ⟨.reply, rfl⟩
  | buffer =>
    rw [advance_bind env (.buffer location) rfl, hbuffer]
    exact ⟨.reply, rfl⟩
  | reply =>
    rw [advance_reply env rfl]
    exact ⟨.replied, rfl⟩
  | replied => exact ⟨.replied, rfl⟩

end Request

/-- Requests under way beside each other. -/
structure RestServer (D : Type) where
  state : RestState D
  requests : List (Request D) := []

/-- A request, the next call of a request, and the end of a download. -/
inductive ServerEvent where
  | get (message : HttpRequest)
  | call (idx : Nat)
  | completion (segment now : Nat)

/-- Answered with status 200 and these bytes. -/
def Reply.Delivers {D : Type} (bytes : Str) : Reply D → Prop
  | .file _ (some buffer) length => buffer.take length = bytes
  | _ => False

namespace RestServer

open RestState Request

variable {D : Type} (env : RestEnvironment D) (cfg : RestConfig) (bytes : Str) (location : Str)
  (address : Nat)

/-- The CDN answers with `bytes`. -/
def step (sv : RestServer D) : ServerEvent → RestServer D
  | .get message =>
    { sv with requests := sv.requests ++ [{ program := RestHandler.get env cfg message }] }
  | .call idx =>
    match sv.requests[idx]? with
    | some q => ⟨(q.advance env sv.state).2, sv.requests.set idx (q.advance env sv.state).1⟩
    | none => sv
  | .completion segment now => { sv with state := sv.state.cdnCompletion segment now bytes }

/-- A listed segment that can be had from the CDN only. -/
structure OnCdn (s : RestState D) : Prop where
  listed : ∃ receivedAt, s.item? location = some (.segment location receivedAt address)
  fluteFile : (s.process.world.memory.segment address).fluteFile = none
  cdnClient : ∃ client, (s.process.world.memory.segment address).cdnClient = some client ∧
    env.cdnResponse client (s.process.world.memory.segment address).contentLocation = .ok
  cdnFile : ∀ file, (s.process.world.memory.segment address).cdnFile = some file → file = bytes

def HasData (s : RestState D) : Prop :=
  (s.process.world.memory.segment address).cdnFile = some bytes ∧ bytes.length < 2 ^ 32

/-- Requests end with the bytes, at most one download is under way, and none that
could replace data. -/
structure Served (sv : RestServer D) : Prop where
  replies : ∀ q ∈ sv.requests, ∀ r ∈ q.replies, r.Delivers bytes
  ended : ∀ q ∈ sv.requests, (∀ op next, q.program ≠ .call op next) → q.replies.length = 1
  downloads : sv.state.downloads.count address ≤ 1
  kept : (sv.state.process.world.memory.segment address).cdnFile ≠ none →
    address ∉ sv.state.downloads

/-- A GET finds the segment with its data. -/
def GetsData (sv : RestServer D) : ServerEvent → Prop
  | .get _ => HasData bytes address sv.state
  | _ => True

/-- What holds while every GET has found the data. -/
structure Supplied (sv : RestServer D) : Prop where
  onCdn : OnCdn env bytes location address sv.state
  idle : address ∉ sv.state.downloads
  data : sv.requests ≠ [] → HasData bytes address sv.state
  serving : ∀ q ∈ sv.requests,
    Serving env.bufferFirst location ⟨"CDN".toList, some bytes, bytes.length⟩ q

theorem OnCdn.version {s : RestState D} (h : OnCdn env bytes location address s)
    (hdata : HasData bytes address s) :
    s.version location = some ⟨"CDN".toList, some bytes, bytes.length⟩ := by
  obtain ⟨receivedAt, hitem⟩ := h.listed
  obtain ⟨hfile, hlength⟩ := hdata
  have hflute : (s.process.world.memory.segment address).completeFluteFile = none := by
    rw [Segment.completeFluteFile, h.fluteFile]
    rfl
  have hmod : bytes.length % 2 ^ 32 = bytes.length := Nat.mod_eq_of_lt hlength
  have hobjects : s.process.world.objects.segment address =
      s.process.world.memory.segment address := rfl
  simp only [RestState.version, hitem, Option.map_some, versionOf, itemSource, bufferText, itemView,
    hobjects, Segment.dataSource, Segment.buffer, Segment.contentLength, hflute, hfile, hmod,
    ItemSource.asString]

theorem OnCdn.congr {s s' : RestState D} (h : OnCdn env bytes location address s)
    (hs : s'.process = s.process) : OnCdn env bytes location address s' := by
  obtain ⟨hl, hf, hc, hd⟩ := h
  constructor <;> simpa only [item?, hs]

theorem Supplied.served {sv : RestServer D} (h : Supplied env bytes location address sv) :
    Served bytes address sv where
  replies q hq r hr := by
    have hserving := h.serving q hq
    generalize hv : (⟨"CDN".toList, some bytes, bytes.length⟩ : ItemVersion) = v at hserving
    cases hserving with
    | replied =>
      subst hv
      cases List.mem_singleton.mp hr
      exact List.take_length
    | _ => cases hr
  ended q hq hend := by
    cases h.serving q hq with
    | replied => rfl
    | openStream => cases hb : env.bufferFirst <;> rw [hb] at hend <;> exact absurd rfl (hend _ _)
    | _ => exact absurd rfl (hend _ _)
  downloads := by
    rw [List.count_eq_zero_of_not_mem h.idle]
    omega
  kept _ := h.idle

/-- A download that is not for the segment leaves it alone. -/
theorem cdnCompletion_of_idle {s : RestState D} (h : address ∉ s.downloads) (segment now : Nat)
    (file : Str) :
    (s.cdnCompletion segment now file).process.world.memory.segment address =
        s.process.world.memory.segment address ∧
      address ∉ (s.cdnCompletion segment now file).downloads ∧
      (s.cdnCompletion segment now file).item? location = s.item? location := by
  unfold cdnCompletion
  by_cases hs : segment ∈ s.downloads
  · rw [if_pos hs]
    have hne : address ≠ segment := fun heq => h (heq ▸ hs)
    exact ⟨Function.update_of_ne hne _ _, fun hm => h (List.mem_of_mem_erase hm), rfl⟩
  · rw [if_neg hs]
    exact ⟨rfl, h, rfl⟩

theorem Supplied.step {sv : RestServer D} (h : Supplied env bytes location address sv)
    {e : ServerEvent} (he : ∀ message, e = .get message → ForFile env cfg message location)
    (hok : GetsData bytes address sv e) :
    Supplied env bytes location address (step env cfg bytes sv e) := by
  cases e with
  | get message =>
    refine ⟨h.onCdn, h.idle, fun _ => hok, fun q hq => ?_⟩
    rcases List.mem_append.mp hq with hq | hq
    · exact h.serving q hq
    · rw [List.mem_singleton.mp hq, (he message rfl).get]
      exact .find
  | call idx =>
    cases hq : sv.requests[idx]? with
    | none =>
      have hstep : RestServer.step env cfg bytes sv (.call idx) = sv := by
        simp only [RestServer.step, hq]
      rw [hstep]
      exact h
    | some q =>
      have hstep : RestServer.step env cfg bytes sv (.call idx) =
          ⟨(q.advance env sv.state).2, sv.requests.set idx (q.advance env sv.state).1⟩ := by
        simp only [RestServer.step, hq]
      rw [hstep]
      have hmem : q ∈ sv.requests := List.mem_of_getElem? hq
      have hdata := h.data (List.ne_nil_of_mem hmem)
      have hprocess := advance_process env q sv.state
      obtain ⟨hserving, hdownloads⟩ := (h.serving q hmem).advance env
        (h.onCdn.version env bytes location address hdata) (by simp)
      refine ⟨h.onCdn.congr env bytes location address hprocess, ?_, fun _ => ?_, fun q' hq' => ?_⟩
      · rw [hdownloads]
        exact h.idle
      · unfold HasData
        rw [hprocess]
        exact hdata
      · rcases List.mem_or_eq_of_mem_set hq' with hq' | rfl
        · exact h.serving q' hq'
        · exact hserving
  | completion segment now =>
    obtain ⟨hsegment, hidle, hitem⟩ :=
      cdnCompletion_of_idle location address h.idle segment now bytes
    have hstep : RestServer.step env cfg bytes sv (.completion segment now) =
        { sv with state := sv.state.cdnCompletion segment now bytes } := rfl
    rw [hstep]
    obtain ⟨hl, hf, hc, hd⟩ := h.onCdn
    refine ⟨⟨?_, ?_, ?_, ?_⟩, hidle, fun hne => ?_, h.serving⟩
    · rwa [hitem]
    · rwa [hsegment]
    · rwa [hsegment]
    · rwa [hsegment]
    · unfold HasData
      rw [hsegment]
      exact h.data hne

/-- In a run in which every GET finds the segment with its data, every GET is
answered with them and nothing is downloaded. -/
theorem segment_delivered (s : RestState D) (hs : OnCdn env bytes location address s)
    (hidle : address ∉ s.downloads) {es : List ServerEvent}
    (hes : ∀ message, .get message ∈ es → ForFile env cfg message location)
    (hm : Runs.StepsMeet (step env cfg bytes) (GetsData bytes address) ⟨s, []⟩ es) {pre : List ServerEvent}
    (hpre : pre <+: es) : Served bytes address (pre.foldl (step env cfg bytes) ⟨s, []⟩) := by
  obtain ⟨post, rfl⟩ := hpre
  have hinitial : Supplied env bytes location address (⟨s, []⟩ : RestServer D) :=
    ⟨hs, hidle, fun h => absurd rfl h, fun _ h => (by cases h)⟩
  have hsupplied : Supplied env bytes location address (pre.foldl (step env cfg bytes) ⟨s, []⟩) :=
    hm.of_append.invariant_of_mem
      (fun sv e he h hok => h.step env cfg bytes location address
        (fun message heq => hes message (by simp [← heq, he])) hok) hinitial
  exact hsupplied.served

section Example

open RestHandler (plainRest requestFor)

def segmentLocation : Str := "a.ts".toList

/-- A segment with a CDN client, with or without the data. -/
def segmentState (cdnFile : Option Str) : RestState Int where
  process := { world := { World.initial ServiceAnnouncement.bareEnvironment with
    memory :=
      { segment := fun _ =>
          { contentLocation := segmentLocation, seq := 0, extinf := 0, cdnClient := some [], cdnFile := cdnFile }
        nextSegment := 1
        cache := Cache.addItem .empty (.segment segmentLocation 0 0) } } }

theorem onCdn_segmentState (cdnFile : Option Str) (h : ∀ file, cdnFile = some file → file = "x".toList) :
    OnCdn plainRest "x".toList segmentLocation 0 (segmentState cdnFile) where
  listed := ⟨0, rfl⟩
  fluteFile := rfl
  cdnClient := ⟨[], rfl, rfl⟩
  cdnFile := h

theorem forFile_segment : ForFile plainRest {} (requestFor "/a.ts") segmentLocation where
  authorized := rfl
  path := ⟨"/a.ts".toList, segmentLocation, [], rfl, by decide, by decide⟩
  uri := rfl

/-- Three GETs whose calls alternate, the last one while the others are being answered. -/
def alternatingGets : List ServerEvent :=
  [.get (requestFor "/a.ts"), .call 0, .get (requestFor "/a.ts"), .call 1, .call 0, .call 1, .call 0,
   .completion 0 1000, .get (requestFor "/a.ts"), .call 2, .call 1, .call 0, .call 2, .call 1, .call 0,
   .call 2, .call 1, .call 2, .call 0, .call 1, .call 2, .call 2]

theorem segment_delivered_alternating :
    let sv := alternatingGets.foldl (step plainRest {} "x".toList) ⟨segmentState (some "x".toList), []⟩
    Served "x".toList 0 sv ∧ sv.requests.map (·.replies.length) = [1, 1, 1] := by
  have hfor : ∀ message, .get message ∈ alternatingGets →
      ForFile plainRest {} message segmentLocation := by
    intro message h
    simp only [alternatingGets, List.mem_cons, ServerEvent.get.injEq, reduceCtorEq, List.not_mem_nil,
      or_false, false_or, or_self] at h
    exact h ▸ forFile_segment
  have hmeets : Runs.StepsMeet (step plainRest {} "x".toList) (GetsData "x".toList 0)
      ⟨segmentState (some "x".toList), []⟩ alternatingGets := by
    simp only [alternatingGets, Runs.StepsMeet, GetsData, true_and, and_true]
    exact ⟨⟨rfl, by decide⟩, ⟨by decide +kernel, by decide⟩, ⟨by decide +kernel, by decide⟩⟩
  exact ⟨segment_delivered plainRest {} "x".toList segmentLocation 0 (segmentState (some "x".toList))
    (onCdn_segmentState _ fun _ h => (Option.some.inj h).symm) (by decide) hfor hmeets
    (List.prefix_refl _), by decide +kernel⟩

/-- The first GET sets off the download and is answered with 404, and a second
one before its end sets off another. -/
theorem first_get_not_found :
    ¬ Served "x".toList 0 ([.get (requestFor "/a.ts"), .call 0, .call 0, .call 0].foldl
      (step plainRest {} "x".toList) ⟨segmentState none, []⟩) ∧
    ¬ Served "x".toList 0 ([.get (requestFor "/a.ts"), .get (requestFor "/a.ts"), .call 0, .call 1,
      .call 0, .call 1].foldl (step plainRest {} "x".toList) ⟨segmentState none, []⟩) := by
  constructor
  · intro h
    exact h.replies _ (List.mem_singleton.mpr rfl) _ (List.mem_singleton.mpr rfl)
  · intro h
    exact absurd h.downloads (by decide)

end Example

end RestServer

end MbmsMiddleware
