import MbmsMiddleware.Provenance
import MbmsMiddleware.SystemRequests

/-! Requests in runs of the middleware. The bytes that a request takes for its
answer were held for its location at one instant of the run, whatever else goes on. -/

namespace MbmsMiddleware

variable {D : Type}

namespace RestHandler

def NoFile (op : RestCall D) : Prop := ∀ o b n, op ≠ .reply (.file o b n)

theorem noFile_reply {r : Reply D} (h : ∀ o b n, r ≠ .file o b n) :
    Program.Only NoFile (reply r : RestProgram D Unit) :=
  Program.only_perform fun o b n hr => h o b n (RestCall.reply.inj hr)

theorem noFile_fileValue (location : Str) (item : CacheItem) :
    Program.Only NoFile (fileValue location item : RestProgram D (Json D)) := by
  have hread : ∀ op : RestCall D, (∀ r, op ≠ .reply r) →
      Program.Only NoFile (Program.perform op : RestProgram D op.Result) :=
    fun op hop => Program.only_perform fun o b n => hop _
  refine Program.only_bind (hread _ (by simp)) fun _ => ?_
  refine Program.only_bind (hread _ (by simp)) fun _ => ?_
  refine Program.only_bind (hread _ (by simp)) fun _ => Program.only_bind ?_ fun _ => trivial
  refine Program.only_bind (hread _ (by simp)) fun r => ?_
  split_ifs
  · trivial
  · exact Program.only_bind (hread _ (by simp)) fun _ =>
      Program.only_bind (hread _ (by simp)) fun _ => trivial

theorem get_cases (env : RestEnvironment D) (cfg : RestConfig) (message : HttpRequest) :
    get env cfg message = getFile env.bufferFirst (message.uri.drop 1) ∨
      Program.Only NoFile (get env cfg message) := by
  have hother : ∀ r : Reply D, (∀ o b n, r ≠ .file o b n) →
      Program.Only NoFile (reply r : RestProgram D Unit) := fun r => noFile_reply
  have hresource : ∀ resource : Str, Program.Only NoFile
      (if resource = "service_announcement".toList then getServiceAnnouncement env.indeterminate
        else if resource = "files".toList then getFiles
        else if resource = "services".toList then getServices env.indeterminate
        else reply .notFound : RestProgram D Unit) := by
    intro resource
    split_ifs
    · refine Program.only_bind (Program.only_perform (by simp [NoFile])) fun sa => ?_
      cases sa with
      | none => exact hother _ (by simp)
      | some sa => exact hother _ (by simp)
    · refine Program.only_bind (Program.only_perform (by simp [NoFile])) fun items => ?_
      refine Program.only_bind (Program.only_foldlM (fun files item _ => ?_) _) fun files =>
        hother _ (by simp)
      exact Program.only_bind (noFile_fileValue _ _) fun _ => trivial
    · exact Program.only_bind (Program.only_perform (by simp [NoFile])) fun services =>
        hother _ (by simp)
    · exact hother _ (by simp)
  have hbind : ∀ (paths : List Str) (f : List Str → RestProgram D Unit),
      Program.ofExcept (.ok paths) >>= f = f paths := fun _ _ => rfl
  unfold get
  cases hpaths : paths env message with
  | error e => exact .inr trivial
  | ok paths =>
    rw [hbind]
    split_ifs
    · cases paths with
      | nil => exact .inr (hother _ (by simp))
      | cons path rest =>
        dsimp only
        split_ifs
        · cases rest with
          | nil => exact .inr trivial
          | cons resource _ => exact .inr (hresource resource)
        · exact .inl rfl
    · exact .inr (hother _ (by simp))

theorem noFile_put (env : RestEnvironment D) (cfg : RestConfig) (message : HttpRequest) :
    Program.Only NoFile (put env cfg message) := by
  unfold put
  split_ifs
  · refine Program.only_bind (Program.only_ofExcept _) fun paths => ?_
    cases paths with
    | nil => exact noFile_reply (by simp)
    | cons => trivial
  · exact noFile_reply (by simp)

end RestHandler

namespace Request

open RestHandler RestState

def Fileless (q : Request D) : Prop :=
  Program.Only NoFile q.program ∧ ∀ o b n, .file o b n ∉ q.replies

variable (env : RestEnvironment D)

theorem Fileless.advance {q : Request D} (h : q.Fileless) (s : RestState D) :
    (q.advance env s).1.Fileless := by
  obtain ⟨honly, hreplies⟩ := h
  unfold Request.advance
  split
  · rename_i op next hprogram
    rw [hprogram] at honly
    cases hop : perform env op s with
    | error e s' => exact ⟨trivial, hreplies⟩
    | ok result s' =>
      refine ⟨honly.2 result, fun o b n hmem => ?_⟩
      cases op with
      | reply r =>
        rcases List.mem_append.mp hmem with hmem | hmem
        · exact hreplies o b n hmem
        · exact honly.1 o b n (by rw [← List.mem_singleton.mp hmem])
      | buffer l =>
        refine hreplies o b n ?_
        change .file o b n ∈ (if q.origin.isSome then { q with buffer := some result } else q).replies at hmem
        split_ifs at hmem <;> exact hmem
      | _ => exact hreplies o b n hmem
  · exact ⟨honly, hreplies⟩

/-- The address of the bytes is read while they are held. -/
theorem Stage.buffer_advance {bufferFirst : Bool} {location : Str} {q : Request D}
    (h : Stage bufferFirst location q) (s : RestState D) {b : Str}
    (hb : (q.advance env s).1.buffer = some (some b)) :
    q.buffer = some (some b) ∨ ∃ v, s.version location = some v ∧ v.buffer = some b := by
  have hread : ∀ {b' : Option Str} {s' : RestState D}, perform env (.buffer location) s = .ok b' s' →
      b' = some b → ∃ v, s.version location = some v ∧ v.buffer = some b := by
    intro b' s' hop hb'
    cases hv : s.version location with
    | some v => exact ⟨v, rfl, (eq_of_buffer env hv hop).symm.trans hb'⟩
    | none =>
      have hitem : s.item? location = none := Option.map_eq_none_iff.mp hv
      simp only [perform, access, hitem] at hop
      cases hop
  cases h with
  | find =>
    rw [advance_bind env (.find location) rfl] at hb
    exact .inl hb
  | item =>
    rw [advance_bind env (.buffer location) rfl] at hb
    cases hop : perform env (.buffer location) s <;> rw [hop] at hb <;> cases hb
  | send =>
    rw [advance_bind env (.itemSourceAsString location) rfl] at hb
    cases hop : perform env (.itemSourceAsString location) s <;> rw [hop] at hb <;> cases hb
  | openStream o =>
    cases bufferFirst with
    | true =>
      rw [advance_bind env (.buffer location) rfl] at hb
      cases hop : perform env (.buffer location) s with
      | error e s' =>
        rw [hop] at hb
        cases hb
      | ok b' s' =>
        rw [hop] at hb
        exact .inr (hread hop (Option.some.inj hb))
    | false =>
      rw [advance_bind env (.contentLength location) rfl] at hb
      cases hop : perform env (.contentLength location) s <;> rw [hop] at hb <;> cases hb
  | contentLength o b' =>
    rw [advance_bind env (.contentLength location) rfl] at hb
    cases hop : perform env (.contentLength location) s <;> rw [hop] at hb <;> exact .inl hb
  | buffer o n =>
    rw [advance_bind env (.buffer location) rfl] at hb
    cases hop : perform env (.buffer location) s with
    | error e s' =>
      rw [hop] at hb
      cases hb
    | ok b' s' =>
      rw [hop] at hb
      exact .inr (hread hop (Option.some.inj hb))
  | _ => exact .inl hb

end Request

/-- The file that a reply holds, if it holds one. -/
def Reply.file? : Reply D → Option (Str × Option Str × Nat)
  | .file origin buffer contentLength => some (origin, buffer, contentLength)
  | _ => none

theorem Reply.eq_file {r : Reply D} {origin : Str} {buffer : Option Str} {contentLength : Nat}
    (h : r.file? = some (origin, buffer, contentLength)) : r = .file origin buffer contentLength := by
  cases r <;> cases h
  rfl

namespace System

variable [DoubleText D] (env : SystemEnvironment D) (cfg : SystemConfig)

/-- The item at a location has some bytes at an instant of a run at which a request
has been asked. -/
def HeldAt (es : List (SystemEvent D)) (idx : Nat) (l b : Str) : Prop :=
  ∃ pre, pre <+: es ∧ idx < (pre.filterMap SystemEvent.asked).length ∧
    ∃ v, (pre.foldl (step env cfg) (start env cfg)).state.version l = some v ∧
      v.buffer = some b

/-- How far a request has come in a run. -/
def Answering (es : List (SystemEvent D)) (idx : Nat) (x : HttpMethod × HttpRequest)
    (q : Request D) : Prop :=
  q.Fileless ∨ x.1 = .get ∧ Request.Stage env.bufferFirst (x.2.uri.drop 1) q ∧
    ∀ b, q.buffer = some (some b) → HeldAt env cfg es idx (x.2.uri.drop 1) b

variable {env cfg} {s : System D}

theorem HeldAt.mono {es es' : List (SystemEvent D)} {idx : Nat} {l b : Str}
    (h : HeldAt env cfg es idx l b) : HeldAt env cfg (es ++ es') idx l b := by
  obtain ⟨pre, hpre, hv⟩ := h
  exact ⟨pre, hpre.trans (List.prefix_append _ _), hv⟩

theorem Answering.mono {es es' : List (SystemEvent D)} {idx : Nat} {x : HttpMethod × HttpRequest}
    {q : Request D} (h : Answering env cfg es idx x q) : Answering env cfg (es ++ es') idx x q :=
  h.imp id fun ⟨hget, hstage, hheld⟩ => ⟨hget, hstage, fun b hb => (hheld b hb).mono⟩

theorem answering_new (es : List (SystemEvent D)) (idx : Nat) (method : HttpMethod)
    (message : HttpRequest) :
    Answering env cfg es idx (method, message) { program := handler env cfg message method } := by
  cases method with
  | put => exact .inl ⟨RestHandler.noFile_put _ _ _, fun _ _ _ h => by cases h⟩
  | get =>
    rcases RestHandler.get_cases env.toRestEnvironment cfg.toRestConfig message with hfile | hother
    · refine .inr ⟨rfl, ?_, fun b hb => by cases hb⟩
      change Request.Stage _ _ { program := RestHandler.get _ _ message }
      rw [hfile]
      exact .find
    · exact .inl ⟨hother, fun _ _ _ h => by cases h⟩

theorem Answering.advance {es : List (SystemEvent D)} {idx : Nat} {x : HttpMethod × HttpRequest}
    {q : Request D} (h : Answering env cfg es idx x q)
    (hidx : idx < (es.filterMap SystemEvent.asked).length) (now : Nat) (answer : CdnResponse) :
    Answering env cfg es idx x
      (q.advance (answering env now answer)
        (es.foldl (step env cfg) (start env cfg)).state).1 := by
  rcases h with hfileless | ⟨hget, hstage, hheld⟩
  · exact .inl (hfileless.advance _ _)
  · refine .inr ⟨hget, (hstage.advance (answering env now answer) _).1, fun b hb => ?_⟩
    rcases hstage.buffer_advance (answering env now answer) _ hb with hold | ⟨v, hv, hvb⟩
    · exact hheld b hold
    · exact ⟨es, List.prefix_refl _, hidx, v, hv, hvb⟩

theorem answering_run (es : List (SystemEvent D)) :
    Asked (Answering env cfg) es (es.foldl (step env cfg) (start env cfg)) :=
  requests_law answering_new (fun _ _ _ _ _ h => h.mono)
    (fun _ _ _ _ now answer hidx h => h.advance hidx now answer) es

/-- The bytes that stand where a request takes the buffer for its reply are those of
the item at its location, after the request has come, and were brought for this
location before, unless the item is a generated one. -/
theorem buffer_bytes (es : List (SystemEvent D)) {idx : Nat} {q : Request D} {o b : Str} {n : Nat}
    (hq : (es.foldl (step env cfg) (start env cfg)).requests[idx]? = some q)
    (hr : .file o (some b) n ∈ q.replies) :
    ∃ message, (es.filterMap SystemEvent.asked)[idx]? = some (.get, message) ∧
      ∃ pre, pre <+: es ∧ idx < (pre.filterMap SystemEvent.asked).length ∧
        let s := pre.foldl (step env cfg) (start env cfg)
        ∃ item, s.state.item? (message.uri.drop 1) = some item ∧
          RestState.bufferText s.world item = some b ∧
          (item.generated = true ∨
            (message.uri.drop 1, b) ∈ Runs.trace (step env cfg) (brings env cfg) (start env cfg) pre) := by
  obtain ⟨⟨method, message⟩, hx, hanswering⟩ := (answering_run es).each idx q hq
  rcases hanswering with hfileless | ⟨hget, hstage, hheld⟩
  · exact absurd hr (hfileless.2 o (some b) n)
  · obtain ⟨-, hbuffer, -⟩ := hstage.reads_of_mem hr
    obtain ⟨pre, hpre, hidx, v, hv, hvb⟩ := hheld b hbuffer
    obtain ⟨item, hitem, rfl⟩ := Option.map_eq_some_iff.mp hv
    refine ⟨message, by rw [hx, ← hget], pre, hpre, hidx, item, hitem, hvb, ?_⟩
    exact (sourced_run env cfg pre).bufferText (sound_run pre).world.separate hitem hvb

section Example

def segmentFile : FluteFile where
  contentLocation := "a.ts".toList
  toi := 2
  contentType := []
  buffer := "x".toList
  receivedAt := 1000
  complete := true

def segmentEvents : List (SystemEvent Int) :=
  .reception 0 0 (.fluteFile segmentFile) :: .request .get (RestHandler.requestFor "/a.ts") ::
    List.replicate 6 (.call 0 1000 .none)

theorem buffer_bytes_of_segment :
    ∃ message, (segmentEvents.filterMap SystemEvent.asked)[0]? = some (.get, message) ∧
      ∃ pre, pre <+: segmentEvents ∧ 0 < (pre.filterMap SystemEvent.asked).length ∧
        let s := pre.foldl (step broadcastSystem localService) (start broadcastSystem localService)
        ∃ item, s.state.item? (message.uri.drop 1) = some item ∧
          RestState.bufferText s.world item = some "x".toList ∧
          (item.generated = true ∨ (message.uri.drop 1, "x".toList) ∈
            Runs.trace (step broadcastSystem localService) (brings broadcastSystem localService)
              (start broadcastSystem localService) pre) := by
  have hreplies : ((segmentEvents.foldl (step broadcastSystem localService)
      (start broadcastSystem localService)).requests[0]?.map fun q => q.replies.map Reply.file?) =
      some [some ("5G-BC".toList, some "x".toList, 1)] := by decide +kernel
  obtain ⟨q, hq, hfile⟩ := Option.map_eq_some_iff.mp hreplies
  obtain ⟨r, hr, hrfile⟩ := List.mem_map.mp (by rw [hfile]; exact List.mem_cons_self)
  exact buffer_bytes segmentEvents hq (Reply.eq_file hrfile ▸ hr)

end Example

end System

end MbmsMiddleware
