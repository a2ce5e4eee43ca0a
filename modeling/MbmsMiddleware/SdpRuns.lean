import MbmsMiddleware.SessionDescription
import MbmsMiddleware.Runs

/-! Several session descriptions applied to one stream, and the receiver that
is started then. -/

namespace MbmsMiddleware

namespace ContentStream

/-- The description gives address, port and type by itself, and its numbers
can be read. -/
structure Supplies (sdp addr port type : Str) : Prop where
  address : addressOf (sdpValues sdp).1 = some addr
  media : mediaOf (sdpValues sdp).1 = some (port, type)
  readable : (sdpValues sdp).2 = none

def Complete (sdp : Str) : Prop := ∃ addr port type, Supplies sdp addr port type

variable {D : Type}

def delivery (s : ContentStream D) : Str × Str × Str × Nat :=
  (s.streamType, s.streamMcastAddr, s.streamMcastPort, s.streamFluteTsi)

/-- A stream as it is constructed. -/
structure Fresh (s : ContentStream D) : Prop where
  streamType : s.streamType = "none".toList
  streamMcastAddr : s.streamMcastAddr = []
  streamMcastPort : s.streamMcastPort = []
  streamFluteTsi : s.streamFluteTsi = 0
  fluteThread : s.fluteThread = none

def applySdp (s : ContentStream D) (sdp : Str) : ContentStream D :=
  (s.configure5gbcDeliveryFromSdp sdp).1

/-- One call is accepted for a complete description only, and otherwise changes
nothing. -/
structure CallSound (s : ContentStream D) (sdp : Str) : Prop where
  accepted : (s.configure5gbcDeliveryFromSdp sdp).2 = .ok true → Complete sdp
  rejected : (s.configure5gbcDeliveryFromSdp sdp).2 ≠ .ok true →
    (s.applySdp sdp).delivery = s.delivery

/-- Every call is sound, and a receiver that is started then has its address,
port and type from one description. -/
structure SoundRun (s : ContentStream D) (sdps : List Str) : Prop where
  calls : ∀ pre sdp post, sdps = pre ++ sdp :: post → CallSound (pre.foldl applySdp s) sdp
  launched : ∀ s' receiver, (sdps.foldl applySdp s).start = .ok s' → s'.fluteThread = some receiver →
    ∃ sdp ∈ sdps, ∃ addr port, Supplies sdp addr port fluteUdp ∧ receiver.mcastAddr = addr ∧
      (sdps.foldl applySdp s).streamMcastPort = port ∧ receiver.mcastPort = Text.atoi port

/-- What the description sets is set already. -/
structure Settled (s : ContentStream D) (sdp : Str) : Prop where
  address : ∀ addr, addressOf (sdpValues sdp).1 = some addr → addr = s.streamMcastAddr
  media : ∀ port type, mediaOf (sdpValues sdp).1 = some (port, type) →
    port = s.streamMcastPort ∧ type = s.streamType
  tsi : ∀ number, tsiOf (sdpValues sdp).1 = some number → number = s.streamFluteTsi

/-- A complete description, or one that sets nothing new and is not taken for
a complete one. -/
def SdpOk (s : ContentStream D) (sdp : Str) : Prop :=
  Complete sdp ∨ Settled s sdp ∧
    ((sdpValues sdp).2 ≠ none ∨ s.streamMcastAddr = [] ∨ s.streamMcastPort = [])

theorem applySdp_eq (s : ContentStream D) (sdp : Str) :
    s.applySdp sdp = (sdpValues sdp).1.foldl SdpValue.set s := by
  rw [applySdp, configure5gbcDeliveryFromSdp_eq]

theorem settled_iff {s : ContentStream D} {sdp : Str} :
    (s.applySdp sdp).delivery = s.delivery ↔ Settled s sdp := by
  rw [applySdp_eq, foldl_set]
  simp only [delivery, Prod.mk.injEq]
  constructor
  · rintro ⟨htype, haddr, hport, htsi⟩
    refine ⟨fun addr h => ?_, fun port type h => ?_, fun number h => ?_⟩
    · rwa [h, Option.getD_some] at haddr
    · rw [h, Option.elim_some] at hport htype
      exact ⟨hport, htype⟩
    · rwa [h, Option.getD_some] at htsi
  · intro h
    refine ⟨?_, ?_, ?_, ?_⟩
    · cases hm : mediaOf (sdpValues sdp).1 with
      | none => rfl
      | some m => exact (h.media m.1 m.2 hm).2
    · cases ha : addressOf (sdpValues sdp).1 with
      | none => rfl
      | some addr => exact h.address addr ha
    · cases hm : mediaOf (sdpValues sdp).1 with
      | none => rfl
      | some m => exact (h.media m.1 m.2 hm).1
    · cases ht : tsiOf (sdpValues sdp).1 with
      | none => rfl
      | some number => exact h.tsi number ht

theorem Supplies.applySdp {s : ContentStream D} {sdp addr port type : Str} (h : Supplies sdp addr port type) :
    (s.applySdp sdp).streamMcastAddr = addr ∧ (s.applySdp sdp).streamMcastPort = port ∧
      (s.applySdp sdp).streamType = type := by
  rw [applySdp_eq, foldl_set]
  simp only [h.address, h.media, Option.getD_some, Option.elim_some, and_self]

theorem applySdp_streamType {s : ContentStream D} (hs : s.streamType ≠ []) (sdp : Str) :
    (s.applySdp sdp).streamType ≠ [] := by
  rw [applySdp_eq, foldl_set]
  dsimp only
  cases hm : mediaOf (sdpValues sdp).1 with
  | none => exact hs
  | some m => exact (mediaOf_ne_nil hm).2

theorem accepted_iff {s : ContentStream D} (hs : s.streamType ≠ []) (sdp : Str) :
    (s.configure5gbcDeliveryFromSdp sdp).2 = .ok true ↔ (sdpValues sdp).2 = none ∧
      (s.applySdp sdp).streamMcastAddr ≠ [] ∧ (s.applySdp sdp).streamMcastPort ≠ [] := by
  have htype := applySdp_streamType hs sdp
  rw [applySdp_eq] at htype ⊢
  rw [configure5gbcDeliveryFromSdp_eq]
  cases (sdpValues sdp).2 with
  | some e => simp
  | none => simp [htype]

theorem callSound_iff {s : ContentStream D} (hs : s.streamType ≠ []) (sdp : Str) :
    CallSound s sdp ↔ SdpOk s sdp := by
  constructor
  · intro h
    by_cases hacc : (s.configure5gbcDeliveryFromSdp sdp).2 = .ok true
    · exact .inl (h.accepted hacc)
    · have hsettled := h.rejected hacc
      refine .inr ⟨settled_iff.mp hsettled, ?_⟩
      rw [accepted_iff hs] at hacc
      simp only [delivery, Prod.mk.injEq] at hsettled
      rw [hsettled.2.1, hsettled.2.2.1] at hacc
      tauto
  · rintro (⟨addr, port, type, hsdp⟩ | ⟨hsettled, hnot⟩)
    · refine ⟨fun _ => ⟨addr, port, type, hsdp⟩, fun hacc => absurd ?_ hacc⟩
      rw [accepted_iff hs, hsdp.applySdp.1, hsdp.applySdp.2.1]
      exact ⟨hsdp.readable, addressOf_ne_nil hsdp.address, (mediaOf_ne_nil hsdp.media).1⟩
    · have hsame := settled_iff.mpr hsettled
      refine ⟨fun hacc => ?_, fun _ => hsame⟩
      rw [accepted_iff hs] at hacc
      simp only [delivery, Prod.mk.injEq] at hsame
      rw [hsame.2.1, hsame.2.2.1] at hacc
      tauto

/-- The run so far: no thread, and either nothing is configured or one
description gave address, port and type. -/
structure FromOneSdp (sdps : List Str) (s : ContentStream D) : Prop where
  fluteThread : s.fluteThread = none
  streamType : s.streamType ≠ []
  source : s.streamType = "none".toList ∨
    ∃ sdp ∈ sdps, Supplies sdp s.streamMcastAddr s.streamMcastPort s.streamType

theorem FromOneSdp.applySdp {sdps : List Str} {s : ContentStream D} (h : FromOneSdp sdps s) {sdp : Str}
    (hm : sdp ∈ sdps) (hok : SdpOk s sdp) : FromOneSdp sdps (s.applySdp sdp) := by
  have hthread := (configure5gbcDeliveryFromSdp_configures s sdp).fluteThread
  refine ⟨hthread.trans h.fluteThread, applySdp_streamType h.streamType sdp, ?_⟩
  rcases hok with ⟨addr, port, type, hsdp⟩ | ⟨hsettled, -⟩
  · obtain ⟨h1, h2, h3⟩ := hsdp.applySdp (s := s)
    exact .inr ⟨sdp, hm, by rwa [h1, h2, h3]⟩
  · have hsame := settled_iff.mpr hsettled
    simp only [delivery, Prod.mk.injEq] at hsame
    rw [hsame.1, hsame.2.1, hsame.2.2.1]
    exact h.source

/-- A run is sound exactly when each description is complete in itself, or sets
nothing new and is not taken for a complete one. -/
theorem soundRun_iff {s : ContentStream D} (hs : s.Fresh) (sdps : List Str) :
    SoundRun s sdps ↔ Runs.StepsMeet applySdp SdpOk s sdps := by
  have hnone : s.streamType ≠ [] := by
    rw [hs.streamType]
    decide
  have htype : ∀ pre : List Str, (pre.foldl applySdp s).streamType ≠ [] := by
    intro pre
    refine Runs.foldl_invariant (I := fun s : ContentStream D => s.streamType ≠ []) ?_ hnone pre
    exact fun s sdp h => applySdp_streamType h sdp
  rw [Runs.stepsMeet_iff_splits]
  constructor
  · exact fun h pre sdp post he => (callSound_iff (htype pre) sdp).mp (h.calls pre sdp post he)
  · intro h
    refine ⟨fun pre sdp post he => (callSound_iff (htype pre) sdp).mpr (h pre sdp post he), ?_⟩
    have hstart : FromOneSdp sdps s :=
      ⟨hs.fluteThread, hnone, .inl hs.streamType⟩
    have hend : FromOneSdp sdps (sdps.foldl applySdp s) :=
      (Runs.stepsMeet_iff_splits.mpr h).invariant_of_mem (fun _ _ hm hi hok => hi.applySdp hm hok) hstart
    intro s' receiver hrun hthread
    unfold start at hrun
    split_ifs at hrun with hflute
    · rw [hend.fluteThread] at hrun
      cases hrun
      cases hthread
      rcases hend.source with htype | ⟨sdp, hm, hsdp⟩
      · rw [htype] at hflute
        exact absurd hflute (by decide)
      · rw [hflute] at hsdp
        exact ⟨sdp, hm, _, _, hsdp, rfl, rfl, rfl⟩
    · cases hrun
      rw [hend.fluteThread] at hthread
      cases hthread

section Example

def newBasicStream : ContentStream Int where
  deliveryProtocol := .hls
  base := []

theorem fresh_newBasicStream : newBasicStream.Fresh := ⟨rfl, rfl, rfl, rfl, rfl⟩

def addressOnly : Str := "c=IN IP4 239.1.1.1/16\n".toList

def mediaOnly : Str := "m=application 5000 FLUTE/UDP\n".toList

/-- Two halves start a receiver: the second call is accepted. -/
theorem receiver_from_two_sdps :
    newBasicStream.Fresh ∧ ¬ SoundRun newBasicStream [addressOnly, mediaOnly] := by
  refine ⟨fresh_newBasicStream, fun h => ?_⟩
  have haccepted : ((newBasicStream.applySdp addressOnly).configure5gbcDeliveryFromSdp mediaOnly).2 =
      .ok true := by decide +kernel
  obtain ⟨addr, port, type, hsdp⟩ := (h.calls [addressOnly] mediaOnly [] rfl).accepted haccepted
  have hnone : addressOf (sdpValues mediaOnly).1 = none := by decide +kernel
  exact absurd (hnone.symm.trans hsdp.address) (by simp)

/-- A description that says nothing, and two complete ones: the receiver is that of
the last. -/
theorem receiver_from_last_sdp :
    let moved : Str := "c=IN IP4 239.1.1.2/16\nm=application 5002 FLUTE/UDP\n".toList
    SoundRun newBasicStream [[], addressOnly ++ mediaOnly, moved] := by
  intro moved
  have hnothing : Settled newBasicStream [] := by
    refine ⟨fun addr h => ?_, fun port type h => ?_, fun number h => ?_⟩ <;> cases h
  have hcomplete : Complete (addressOnly ++ mediaOnly) :=
    ⟨"239.1.1.1".toList, "5000".toList, fluteUdp, by decide +kernel, by decide +kernel, by decide +kernel⟩
  have hmoved : Complete moved :=
    ⟨"239.1.1.2".toList, "5002".toList, fluteUdp, by decide +kernel, by decide +kernel, by decide +kernel⟩
  refine (soundRun_iff fresh_newBasicStream [[], addressOnly ++ mediaOnly, moved]).mpr ?_
  exact ⟨.inr ⟨hnothing, .inr (.inl rfl)⟩, .inl hcomplete, .inl hmoved, trivial⟩

end Example

end ContentStream

end MbmsMiddleware
