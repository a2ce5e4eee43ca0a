import MbmsMiddleware.OnlyCalls
import MbmsMiddleware.SystemRequests

/-! How often requests are answered. However the requests of a run interleave with
each other and with everything else, none is answered twice, and no reply is lost
or goes to another request. -/

namespace MbmsMiddleware

variable {D : Type}

namespace RestHandler

def IsReply (op : RestCall D) : Prop := ∃ r, op = .reply r

theorem closes_reply (r : Reply D) (idle : Prop) :
    Program.Closes IsReply idle (reply r : RestProgram D Unit) :=
  ⟨fun _ _ => rfl, fun h => absurd ⟨r, rfl⟩ h⟩

theorem only_read {op : RestCall D} (h : ∀ r, op ≠ .reply r) :
    Program.Only (fun op => ¬ IsReply op) (Program.perform op : RestProgram D op.Result) :=
  Program.only_perform fun ⟨r, hr⟩ => h r hr

theorem only_fileValue (location : Str) (item : CacheItem) :
    Program.Only (fun op => ¬ IsReply op) (fileValue location item : RestProgram D (Json D)) := by
  refine Program.only_bind (only_read (by simp)) fun _ => ?_
  refine Program.only_bind (only_read (by simp)) fun _ => ?_
  refine Program.only_bind (only_read (by simp)) fun _ => Program.only_bind ?_ fun _ => trivial
  refine Program.only_bind (only_read (by simp)) fun r => ?_
  split_ifs
  · trivial
  · exact Program.only_bind (only_read (by simp)) fun _ =>
      Program.only_bind (only_read (by simp)) fun _ => trivial

theorem closes_getFile (bufferFirst : Bool) (location : Str) :
    Program.Closes IsReply False (getFile bufferFirst location : RestProgram D Unit) := by
  have hopen : ∀ origin, Program.Closes IsReply False
      (openStream bufferFirst location origin : RestProgram D Unit) := by
    intro origin
    unfold openStream
    split_ifs
    all_goals
      refine Program.closes_bind (only_read (by simp)) fun _ => ?_
      exact Program.closes_bind (only_read (by simp)) fun _ => closes_reply _ _
  refine Program.closes_bind (only_read (by simp)) fun found => ?_
  split_ifs
  · refine Program.closes_bind (only_read (by simp)) fun buffer => ?_
    cases buffer with
    | none => exact closes_reply _ _
    | some _ => exact Program.closes_bind (only_read (by simp)) hopen
  · exact closes_reply _ _

variable (env : RestEnvironment D) (cfg : RestConfig) (message : HttpRequest)

/-- A GET comes to no end without a reply. -/
theorem closes_get : Program.Closes IsReply False (get env cfg message) := by
  refine Program.closes_bind (Program.only_ofExcept _) fun paths => ?_
  split_ifs
  · cases paths with
    | nil => exact closes_reply _ _
    | cons path rest =>
      dsimp only
      split_ifs
      · cases rest with
        | nil => trivial
        | cons resource _ =>
          dsimp only
          split_ifs
          · refine Program.closes_bind (only_read (by simp)) fun sa => ?_
            cases sa <;> exact closes_reply _ _
          · refine Program.closes_bind (only_read (by simp)) fun items => ?_
            refine Program.closes_bind (Program.only_foldlM (fun files item _ => ?_) _) fun files =>
              closes_reply _ _
            exact Program.only_bind (only_fileValue _ _) fun _ => trivial
          · exact Program.closes_bind (only_read (by simp)) fun services => closes_reply _ _
          · exact closes_reply _ _
      · exact closes_getFile _ _
  · exact closes_reply _ _

/-- A PUT that is not handled yet: it has a path, and is authorized. -/
def PutPending : Prop :=
  authorized cfg message = true ∧ ∃ path rest, paths env message = .ok (path :: rest)

theorem closes_put : Program.Closes IsReply (PutPending env cfg message) (put env cfg message) := by
  unfold put
  split_ifs with hauth
  · cases hpaths : paths env message with
    | error e => trivial
    | ok paths =>
      cases paths with
      | nil => exact closes_reply _ _
      | cons path rest => exact ⟨hauth, path, rest, hpaths⟩
  · exact closes_reply _ _

def OnlyUnauthorized (op : RestCall D) : Prop := ∀ r, op = .reply r → r = .unauthorized

theorem only_unauthorized_reply :
    Program.Only OnlyUnauthorized (reply .unauthorized : RestProgram D Unit) :=
  Program.only_perform fun _ h => (RestCall.reply.inj h).symm

variable {env cfg message}

theorem only_unauthorized_get (h : authorized cfg message = false) :
    Program.Only OnlyUnauthorized (get env cfg message) := by
  refine Program.only_bind (Program.only_ofExcept _) fun paths => ?_
  rw [h]
  exact only_unauthorized_reply

theorem only_unauthorized_put (h : authorized cfg message = false) :
    Program.Only OnlyUnauthorized (put env cfg message) := by
  unfold put
  rw [h]
  exact only_unauthorized_reply

end RestHandler

namespace Request

open RestHandler RestState

/-- A request that is answered once: `ok` holds of its reply, and `idle` if it comes
to an end without one. -/
def AnsweredOnce (idle : Prop) (ok : Reply D → Prop) (q : Request D) : Prop :=
  q.replies = [] ∧ Program.Closes IsReply idle q.program ∧
      Program.Only (fun op => ∀ r, op = .reply r → ok r) q.program ∨
    ∃ r, ok r ∧ q.replies = [r] ∧ q.program = .pure ()

theorem note_replies {op : RestCall D} (h : ¬ IsReply op) (result : op.Result) (q : Request D) :
    (q.note op result).replies = q.replies := by
  cases op with
  | reply r => exact absurd ⟨r, rfl⟩ h
  | buffer l =>
    change (if q.origin.isSome then _ else _ : Request D).replies = q.replies
    split_ifs <;> rfl
  | _ => rfl

variable (env : RestEnvironment D)

theorem perform_replies {op : RestCall D} (h : ¬ IsReply op) (s : RestState D) :
    (perform env op s).state.replies = s.replies := by
  have haccess : ∀ {α : Type} (l : Str) (f : CacheItem → EStateM Fault (RestState D) α),
      (∀ item, (f item s).state.replies = s.replies) →
      (access l f s).state.replies = s.replies := by
    intro α l f hf
    unfold access
    cases s.item? l with
    | none => rfl
    | some item => exact hf item
  cases op with
  | reply r => exact absurd ⟨r, rfl⟩ h
  | buffer l =>
    refine haccess l _ fun item => ?_
    cases item with
    | segment l' r x =>
      unfold readBuffer
      dsimp only
      split
      · split <;> rfl
      · rfl
    | _ => rfl
  | itemSourceAsString l => exact haccess l _ fun _ => rfl
  | contentLength l => exact haccess l _ fun _ => rfl
  | receivedAt l => exact haccess l _ fun _ => rfl
  | _ => rfl

theorem AnsweredOnce.advance {idle : Prop} {ok : Reply D → Prop} {q : Request D}
    (h : q.AnsweredOnce idle ok) (s : RestState D) : (q.advance env s).1.AnsweredOnce idle ok := by
  unfold Request.advance
  rcases h with ⟨hreplies, hcloses, honly⟩ | ⟨r, hr, hreplies, hprogram⟩
  · cases hprogram : q.program with
    | pure u => exact .inl ⟨hreplies, hcloses, honly⟩
    | throw e => exact .inl ⟨hreplies, hcloses, honly⟩
    | call op next =>
      rw [hprogram] at hcloses honly
      dsimp only
      cases hop : perform env op s with
      | error e s' => exact .inl ⟨hreplies, trivial, trivial⟩
      | ok result s' =>
        by_cases hreply : IsReply op
        · obtain ⟨r, rfl⟩ := hreply
          refine .inr ⟨r, honly.1 r rfl, ?_, hcloses.1 ⟨r, rfl⟩ result⟩
          change q.replies ++ [r] = [r]
          rw [hreplies, List.nil_append]
        · refine .inl ⟨?_, hcloses.2 hreply result, honly.2 result⟩
          exact (note_replies hreply result q).trans hreplies
  · rw [hprogram]
    exact .inr ⟨r, hr, hreplies, hprogram⟩

theorem advance_replies (q : Request D) (s : RestState D) :
    ∃ rs, (q.advance env s).1.replies = q.replies ++ rs ∧
      (q.advance env s).2.replies = s.replies ++ rs := by
  unfold Request.advance
  cases q.program with
  | pure u => exact ⟨[], (List.append_nil _).symm, (List.append_nil _).symm⟩
  | throw e => exact ⟨[], (List.append_nil _).symm, (List.append_nil _).symm⟩
  | call op next =>
    dsimp only
    by_cases hreply : IsReply op
    · obtain ⟨r, rfl⟩ := hreply
      exact ⟨[r], rfl, rfl⟩
    · have hstate := perform_replies env hreply s
      cases hop : perform env op s with
      | error e s' =>
        rw [hop] at hstate
        exact ⟨[], (List.append_nil _).symm, by rw [List.append_nil]; exact hstate⟩
      | ok result s' =>
        rw [hop] at hstate
        refine ⟨[], ?_, by rw [List.append_nil]; exact hstate⟩
        rw [List.append_nil]
        exact note_replies hreply result q

end Request

namespace System

variable [DoubleText D] (env : SystemEnvironment D) (cfg : SystemConfig)

/-- The request is answered at most once. A GET comes to no end without a reply,
and what is not authorized is not answered in any other way. -/
def AnsweredWith (x : HttpMethod × HttpRequest) (q : Request D) : Prop :=
  q.AnsweredOnce
    (x.1 = .put ∧ RestHandler.PutPending env.toRestEnvironment cfg.toRestConfig x.2)
    fun r => RestHandler.authorized cfg.toRestConfig x.2 = false → r = .unauthorized

variable {env cfg}

omit [DoubleText D] in
theorem answeredWith_new (method : HttpMethod) (message : HttpRequest) :
    AnsweredWith env cfg (method, message) { program := handler env cfg message method } := by
  refine .inl ⟨rfl, ?_, ?_⟩
  · cases method with
    | get => exact (RestHandler.closes_get _ _ _).mono False.elim
    | put => exact (RestHandler.closes_put _ _ _).mono fun h => ⟨rfl, h⟩
  · by_cases hauth : RestHandler.authorized cfg.toRestConfig message = true
    · refine Program.only_of_forall (fun op r _ h => ?_) _
      rw [hauth] at h
      cases h
    · have hauth' : RestHandler.authorized cfg.toRestConfig message = false := by simpa using hauth
      cases method with
      | get => exact (RestHandler.only_unauthorized_get hauth').mono fun _ h r hr _ => h r hr
      | put => exact (RestHandler.only_unauthorized_put hauth').mono fun _ h r hr _ => h r hr

/-- The server has given the replies that its requests have, and no others. -/
def RepliesMatch (s : System D) : Prop :=
  s.state.replies.Perm (s.requests.flatMap (·.replies))

omit [DoubleText D] in
theorem RepliesMatch.congr {s s' : System D} (h : s.RepliesMatch)
    (hreplies : s'.state.replies = s.state.replies) (hrequests : s'.requests = s.requests) :
    s'.RepliesMatch := by
  unfold RepliesMatch
  rw [hreplies, hrequests]
  exact h

theorem flatMap_set_perm {α β : Type} {f : α → List β} {l : List α} {idx : Nat} {a a' : α}
    {rs : List β} (h : l[idx]? = some a) (hf : f a' = f a ++ rs) :
    ((l.set idx a').flatMap f).Perm (l.flatMap f ++ rs) := by
  induction l generalizing idx with
  | nil => cases h
  | cons b l ih =>
    cases idx with
    | zero =>
      cases h
      rw [List.set_cons_zero, List.flatMap_cons, List.flatMap_cons, hf, List.append_assoc,
        List.append_assoc]
      exact List.perm_append_comm.append_left _
    | succ idx =>
      rw [List.set_cons_succ, List.flatMap_cons, List.flatMap_cons, List.append_assoc]
      exact (ih h).append_left _

omit [DoubleText D] in
theorem RepliesMatch.call {s : System D} (h : s.RepliesMatch) (idx now : Nat) (answer : CdnResponse) :
    (s.call env idx now answer).RepliesMatch := by
  unfold System.call
  cases hq : s.requests[idx]? with
  | none => exact h
  | some q =>
    obtain ⟨rs, hrequest, hserver⟩ := Request.advance_replies (answering env now answer) q s.state
    change List.Perm (q.advance _ s.state).2.replies _
    rw [hserver]
    exact (h.append_right rs).trans (flatMap_set_perm (f := Request.replies) hq hrequest).symm

theorem RepliesMatch.step {s : System D} (h : s.RepliesMatch) (e : SystemEvent D) :
    (s.step env cfg e).RepliesMatch := by
  by_cases hr : s.running = true ∧ s.Defined env e
  · unfold System.step
    rw [if_pos hr]
    cases e with
    | announcement file =>
      obtain ⟨process, handlers, running, hannounce⟩ := announce_frame env cfg s file
      dsimp only
      rw [hannounce]
      exact h.congr rfl rfl
    | handler =>
      obtain ⟨firstStream, firstService, hproceed⟩ := proceed_frame env s
      dsimp only
      rw [hproceed]
      exact h.congr rfl rfl
    | reception address indeterminate r => exact h.congr rfl rfl
    | download segment now file =>
      refine h.congr ?_ rfl
      dsimp only
      unfold RestState.cdnCompletion
      split_ifs <;> rfl
    | tick mchs clock =>
      obtain ⟨process, running, htick⟩ := tick_frame cfg s mchs clock
      dsimp only
      rw [htick]
      exact h.congr rfl rfl
    | request method message =>
      unfold RepliesMatch
      change List.Perm s.state.replies ((s.requests ++ [_]).flatMap _)
      rw [List.flatMap_append, List.flatMap_singleton, List.append_nil]
      exact h
    | call idx now answer => exact h.call idx now answer
  · rw [step_of_undefined env cfg hr]
    exact h.congr rfl rfl

variable (env cfg)

/-- The requests of a run, each with what has become of it. -/
structure Answered (es : List (SystemEvent D)) (s : System D) : Prop where
  replies : s.RepliesMatch
  requests : Asked (fun _ _ x q => AnsweredWith env cfg x q) es s

/-- In every run requests are answered once, and no reply is lost. -/
theorem answered_once (es : List (SystemEvent D)) :
    Answered env cfg es (es.foldl (step env cfg) (start env cfg)) where
  replies := by
    refine Runs.foldl_invariant (I := RepliesMatch) ?_ ?_ es
    · exact fun s e h => h.step e
    · exact .refl []
  requests := requests_law (fun _ _ method message => answeredWith_new method message)
    (fun _ _ _ _ _ h => h) (fun _ _ _ _ _ _ _ h => h.advance _ _) es

end System

end MbmsMiddleware
