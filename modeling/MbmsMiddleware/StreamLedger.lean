import MbmsMiddleware.Middleware
import MbmsMiddleware.AnnouncementFaults

/-! The streams of the middleware as far as starting them goes: which addresses
are taken, which streams have a FLUTE session, which threads have been started,
and in which order streams were handed to their service. -/

namespace MbmsMiddleware

open ServiceAnnouncement (Handle endpointFaults)

structure StreamState where
  flute : Bool
  started : Bool
  seamless : Bool
  deriving DecidableEq, Repr

structure StreamLedger where
  next : Nat
  state : Nat → StreamState
  passed : List Nat

namespace StreamLedger

def create (l : StreamLedger) (s : StreamState) : StreamLedger :=
  { l with next := l.next + 1, state := Function.update l.state l.next s }

def start (l : StreamLedger) (a : Nat) : StreamLedger :=
  { l with
    state := Function.update l.state a
      { l.state a with started := (l.state a).started || (l.state a).flute }
    passed := l.passed ++ [a] }

/-- The stream has a FLUTE thread that is running already. -/
def Blocked (l : StreamLedger) (a : Nat) : Prop :=
  (l.state a).flute = true ∧ (l.state a).started = true

@[simp] theorem start_passed (l : StreamLedger) (a : Nat) :
    (l.start a).passed = l.passed ++ [a] := rfl

@[simp] theorem start_next (l : StreamLedger) (a : Nat) : (l.start a).next = l.next := rfl

theorem start_state_of_ne (l : StreamLedger) {a b : Nat} (h : b ≠ a) :
    (l.start a).state b = l.state b := by
  simp [start, h]

theorem start_flute (l : StreamLedger) (a b : Nat) :
    ((l.start a).state b).flute = (l.state b).flute := by
  by_cases h : b = a
  · subst h
    simp [start]
  · rw [start_state_of_ne l h]

theorem start_seamless (l : StreamLedger) (a b : Nat) :
    ((l.start a).state b).seamless = (l.state b).seamless := by
  by_cases h : b = a
  · subst h
    simp [start]
  · rw [start_state_of_ne l h]

theorem start_started (l : StreamLedger) (a b : Nat) :
    ((l.start a).state b).started = ((l.state b).started || (a = b && (l.state b).flute)) := by
  by_cases h : b = a
  · subst h
    simp [start]
  · simp [start_state_of_ne l h, Ne.symm h]

@[simp] theorem foldl_start_next (l : StreamLedger) (as : List Nat) :
    (as.foldl start l).next = l.next := by
  induction as generalizing l with
  | nil => rfl
  | cons a as ih => exact ih _

@[simp] theorem foldl_start_passed (l : StreamLedger) (as : List Nat) :
    (as.foldl start l).passed = l.passed ++ as := by
  induction as generalizing l with
  | nil => simp
  | cons a as ih => simp [ih]

@[simp] theorem foldl_start_flute (l : StreamLedger) (as : List Nat) (b : Nat) :
    ((as.foldl start l).state b).flute = (l.state b).flute := by
  induction as generalizing l with
  | nil => rfl
  | cons a as ih => simp [ih, start_flute]

@[simp] theorem foldl_start_seamless (l : StreamLedger) (as : List Nat) (b : Nat) :
    ((as.foldl start l).state b).seamless = (l.state b).seamless := by
  induction as generalizing l with
  | nil => rfl
  | cons a as ih => simp [ih, start_seamless]

theorem foldl_start_started (l : StreamLedger) (as : List Nat) (b : Nat) :
    ((as.foldl start l).state b).started =
      ((l.state b).started || (decide (b ∈ as) && (l.state b).flute)) := by
  induction as generalizing l with
  | nil => simp
  | cons a as ih =>
    simp only [List.foldl_cons, ih, start_started, start_flute, List.mem_cons]
    by_cases h : b = a
    · subst h
      cases (l.state b).started <;> simp
    · simp [h, Ne.symm h]

/-- `l'` is `l` with the streams of the handles made. -/
structure Extends (l : StreamLedger) (new : List Handle) (l' : StreamLedger) : Prop where
  passed : l'.passed = l.passed
  next : l.next ≤ l'.next
  old : ∀ a < l.next, l'.state a = l.state a
  range : ∀ h ∈ new, l.next ≤ h.address ∧ h.address < l'.next
  distinct : (new.map Handle.address).Nodup
  unstarted : ∀ h ∈ new, (l'.state h.address).started = false
  seamless : ∀ h ∈ new, (l'.state h.address).seamless = h.seamless

theorem Extends.refl (l : StreamLedger) : l.Extends [] l where
  passed := rfl
  next := le_rfl
  old _ _ := rfl
  range := by simp
  distinct := by simp
  unstarted := by simp
  seamless := by simp

theorem Extends.create {l l' : StreamLedger} {new : List Handle} (h : l.Extends new l')
    {s : StreamState} (hs : s.started = false) (base : Str) :
    l.Extends (new ++ [⟨l'.next, base, s.seamless⟩]) (l'.create s) where
  passed := h.passed
  next := h.next.trans (Nat.le_succ _)
  old a ha := by
    have hne : a ≠ l'.next := (ha.trans_le h.next).ne
    simp [StreamLedger.create, hne, h.old a ha]
  range := by
    intro x hx
    rcases List.mem_append.mp hx with hx | hx
    · exact ⟨(h.range x hx).1, (h.range x hx).2.trans (Nat.lt_succ_self _)⟩
    · rw [List.mem_singleton.mp hx]
      exact ⟨h.next, Nat.lt_succ_self _⟩
  distinct := by
    have hn : l'.next ∉ new.map Handle.address := by
      intro hm
      obtain ⟨x, hx, he⟩ := List.mem_map.mp hm
      exact (h.range x hx).2.ne he
    simpa [List.map_append, List.nodup_append] using ⟨h.distinct, fun x hx => (h.range x hx).2.ne⟩
  unstarted := by
    intro x hx
    rcases List.mem_append.mp hx with hx | hx
    · simpa [StreamLedger.create, (h.range x hx).2.ne] using h.unstarted x hx
    · rw [List.mem_singleton.mp hx]
      simpa [StreamLedger.create] using hs
  seamless := by
    intro x hx
    rcases List.mem_append.mp hx with hx | hx
    · simpa [StreamLedger.create, (h.range x hx).2.ne] using h.seamless x hx
    · rw [List.mem_singleton.mp hx]
      simp [StreamLedger.create]

theorem Extends.map_state_create {l l' : StreamLedger} {new : List Handle}
    (h : l.Extends new l') (s : StreamState) (base : Str) :
    (new ++ [Handle.mk l'.next base s.seamless]).map (fun x => (l'.create s).state x.address) =
      new.map (fun x => l'.state x.address) ++ [s] := by
  rw [List.map_append]
  congr 1
  · refine List.map_congr_left fun x hx => ?_
    simp [StreamLedger.create, (h.range x hx).2.ne]
  · simp [StreamLedger.create]

theorem Extends.trans {l l' l'' : StreamLedger} {new new' : List Handle} (h : l.Extends new l')
    (h' : l'.Extends new' l'') : l.Extends (new ++ new') l'' where
  passed := h'.passed.trans h.passed
  next := h.next.trans h'.next
  old a ha := (h'.old a (ha.trans_le h.next)).trans (h.old a ha)
  range := by
    intro x hx
    rcases List.mem_append.mp hx with hx | hx
    · exact ⟨(h.range x hx).1, (h.range x hx).2.trans_le h'.next⟩
    · exact ⟨h.next.trans (h'.range x hx).1, (h'.range x hx).2⟩
  distinct := by
    rw [List.map_append, List.nodup_append]
    refine ⟨h.distinct, h'.distinct, ?_⟩
    intro a ha b hb
    obtain ⟨x, hx, rfl⟩ := List.mem_map.mp ha
    obtain ⟨y, hy, rfl⟩ := List.mem_map.mp hb
    exact ((h.range x hx).2.trans_le (h'.range y hy).1).ne
  unstarted := by
    intro x hx
    rcases List.mem_append.mp hx with hx | hx
    · rw [h'.old _ (h.range x hx).2]
      exact h.unstarted x hx
    · exact h'.unstarted x hx
  seamless := by
    intro x hx
    rcases List.mem_append.mp hx with hx | hx
    · rw [h'.old _ (h.range x hx).2]
      exact h.seamless x hx
    · exact h'.seamless x hx

/-- Handles behind those of a vector, of streams without a FLUTE session; `P`
is known of their number. -/
def MadeUnicast (l : StreamLedger) (streams streams' : List Handle) (P : Nat → Prop)
    (l' : StreamLedger) : Prop :=
  ∃ new, streams' = streams ++ new ∧ l.Extends new l' ∧
    (∀ h ∈ new, (l'.state h.address).flute = false) ∧ P new.length

theorem MadeUnicast.create {l l' : StreamLedger} {streams streams' : List Handle}
    {P P' : Nat → Prop} (h : l.MadeUnicast streams streams' P l') (hP : ∀ k, P k → P' (k + 1))
    (base : Str) :
    l.MadeUnicast streams (streams' ++ [⟨l'.next, base, true⟩]) P'
      (l'.create ⟨false, false, true⟩) := by
  obtain ⟨new, rfl, hext, hflute, hnew⟩ := h
  have hext' := hext.create (s := ⟨false, false, true⟩) rfl base
  refine ⟨new ++ [⟨l'.next, base, true⟩], by rw [List.append_assoc], hext', ?_, ?_⟩
  · have hall : ∀ s ∈ (new ++ [Handle.mk l'.next base true]).map (fun x =>
        (l'.create ⟨false, false, true⟩).state x.address), s.flute = false := by
      rw [hext.map_state_create ⟨false, false, true⟩ base]
      intro s hs
      rcases List.mem_append.mp hs with hs | hs
      · obtain ⟨x, hx, rfl⟩ := List.mem_map.mp hs
        exact hflute x hx
      · rw [List.mem_singleton.mp hs]
    exact fun x hx => hall _ (List.mem_map_of_mem hx)
  · rw [List.length_append]
    exact hP _ hnew

end StreamLedger

namespace World

variable {D : Type}

def streamState (s : AnyStream D) : StreamState where
  flute := s.content.streamType = ContentStream.fluteUdp
  started := s.content.fluteThread.isSome
  seamless := s.asSeamless?.isSome

def ledger (w : World D) : StreamLedger where
  next := w.nextStream
  state a := streamState (w.stream a)
  passed := w.passed

theorem state_update (f : Nat → AnyStream D) (a : Nat) (s : AnyStream D) :
    (fun b => streamState (Function.update f a s b)) =
      Function.update (fun b => streamState (f b)) a (streamState s) := by
  funext b
  by_cases hb : b = a
  · subst hb
    simp
  · simp [hb]

theorem ledger_setStream (w : World D) (a : Nat) (s : AnyStream D)
    (h : streamState s = streamState (w.stream a)) : (w.setStream a s).ledger = w.ledger := by
  simp only [ledger, setStream, state_update, h]
  rw [Function.update_eq_self a (fun b => streamState (w.stream b))]

theorem ledger_eq_start {w w' : World D} {a : Nat} {s : AnyStream D}
    (hnext : w'.nextStream = w.nextStream) (hpassed : w'.passed = w.passed ++ [a])
    (hstream : w'.stream = Function.update w.stream a s)
    (hs : streamState s = { streamState (w.stream a) with
      started := (streamState (w.stream a)).started || (streamState (w.stream a)).flute }) :
    w'.ledger = w.ledger.start a := by
  simp only [ledger, StreamLedger.start, hnext, hpassed, hstream, state_update, hs]

variable [DoubleText D] (env : Environment D)

theorem ledger_newStream (s : AnyStream D) (w : World D) :
    (perform env (.newStream s) w).Ensures
      (fun a w' => a = w.ledger.next ∧ w'.ledger = w.ledger.create (streamState s))
      (fun _ _ => False) := by
  refine ⟨rfl, ?_⟩
  simp only [ledger, StreamLedger.create, setStream, state_update]

omit [DoubleText D] in
theorem streamState_setCdnEndpoint (rest : CppRest) (a : Nat) (url : Str)
    (s : SeamlessContentStream D) (cache : Cache) :
    streamState (.seamless (s.setCdnEndpoint rest a url cache).1) = streamState (.seamless s) := by
  cases h : rest.uri url with
  | none =>
    simp only [SeamlessContentStream.setCdnEndpoint, h]
  | some uri =>
    cases hc : rest.httpClient uri.endpoint <;>
      (simp only [SeamlessContentStream.setCdnEndpoint, h, hc]; rfl)

omit [DoubleText D] in
theorem setCdnEndpoint_fault (rest : CppRest) (a : Nat) (url : Str)
    (s : SeamlessContentStream D) (cache : Cache) :
    (s.setCdnEndpoint rest a url cache).2.2 = (endpointFaults rest url).head? := by
  cases h : rest.uri url with
  | none => simp [SeamlessContentStream.setCdnEndpoint, endpointFaults, h]
  | some uri =>
    cases hc : rest.httpClient uri.endpoint <;>
      simp [SeamlessContentStream.setCdnEndpoint, endpointFaults, h, hc]

theorem ledger_setCdnEndpoint (a : Nat) (url : Str) (w : World D)
    (h : (w.ledger.state a).seamless = true) :
    (perform env (.setCdnEndpoint a url) w).Ensures
      (fun _ w' => endpointFaults env.rest url = [] ∧ w'.ledger = w.ledger)
      (fun e w' => (endpointFaults env.rest url).head? = some e ∧ w'.ledger = w.ledger) := by
  cases hs : w.stream a with
  | basic c => simp [ledger, streamState, hs, AnyStream.asSeamless?] at h
  | seamless s =>
    have hstate : streamState (.seamless (s.setCdnEndpoint env.rest a url w.memory.cache).1) =
        streamState (w.stream a) := by
      rw [streamState_setCdnEndpoint, hs]
    have hledger := ledger_setStream w a _ hstate
    have hfault := setCdnEndpoint_fault env.rest a url s w.memory.cache
    simp only [perform, callSetCdnEndpoint, hs, AnyStream.asSeamless?]
    cases hf : (s.setCdnEndpoint env.rest a url w.memory.cache).2.2 with
    | none =>
      rw [hf] at hfault
      exact ⟨List.head?_eq_none_iff.mp hfault.symm, hledger⟩
    | some e =>
      rw [hf] at hfault
      exact ⟨hfault.symm, hledger⟩

theorem ledger_addAndStart (service a : Nat) (w : World D) :
    (perform env (.addAndStartContentStream service a) w).Ensures
      (fun _ w' => ¬ w.ledger.Blocked a ∧ w'.ledger = w.ledger.start a)
      (fun e w' => e = .terminate ∧ w.ledger.Blocked a ∧ w'.ledger = w.ledger.start a) := by
  obtain ⟨r, c, b, f, hm⟩ := (w.service service).matchStream_eq (w.stream a).content
  simp only [perform, addAndStartContentStream, hm, ContentStream.start]
  by_cases hf : (w.stream a).content.streamType = ContentStream.fluteUdp
  · simp only [hf, if_true]
    cases ht : (w.stream a).content.fluteThread with
    | some t =>
      refine ⟨rfl, ?_, ledger_eq_start rfl rfl rfl ?_⟩
      · simp [StreamLedger.Blocked, ledger, streamState, hf, ht]
      · simp [streamState, hf, ht]
    | none =>
      refine ⟨?_, ledger_eq_start rfl rfl (Function.update_idem ..) ?_⟩
      · simp [StreamLedger.Blocked, ledger, streamState, ht]
      · simp [streamState, hf, ht]
  · simp only [hf, if_false]
    refine ⟨?_, ledger_eq_start rfl rfl (Function.update_idem ..) ?_⟩
    · simp [StreamLedger.Blocked, ledger, streamState, hf]
    · simp [streamState, hf]

end World

end MbmsMiddleware
