import MbmsMiddleware.ContentStream

/-! What a session description sets, line by line, whichever stream it is
applied to. -/

namespace MbmsMiddleware

/-- A value that a line sets. -/
inductive SdpValue where
  | address (addr : Str)
  | media (port type : Str)
  | tsi (number : Nat)
  deriving DecidableEq, Repr

namespace SdpValue

variable {D : Type}

def set (s : ContentStream D) : SdpValue → ContentStream D
  | address addr => { s with streamMcastAddr := addr }
  | media port type => { s with streamMcastPort := port, streamType := type }
  | tsi number => { s with streamFluteTsi := number }

def address? : SdpValue → Option Str
  | address addr => some addr
  | _ => none

def media? : SdpValue → Option (Str × Str)
  | media port type => some (port, type)
  | _ => none

def tsi? : SdpValue → Option Nat
  | tsi number => some number
  | _ => none

end SdpValue

namespace ContentStream

/-- The value set by one line. The longer expression for media overrides the
shorter one. -/
def lineValue (line : Str) : Except Fault (Option SdpValue) :=
  match matchSdpLine line with
  | none => .ok none
  | some ('c', value) => .ok ((matchConnection value).map .address)
  | some ('m', value) =>
    match matchMedia2 value with
    | some (port, type, _) => .ok (some (.media port type))
    | none => .ok ((matchMedia value).map fun m => .media m.1 m.2)
  | some ('a', value) =>
    match matchFluteTsi value with
    | some t => (stoul t).map fun n => some (.tsi n)
    | none => .ok none
  | some _ => .ok none

/-- The values set by successive lines, up to the first exception. -/
def linesValues : List Str → List SdpValue × Option Fault
  | [] => ([], none)
  | line :: rest =>
    match lineValue line with
    | .error e => ([], some e)
    | .ok none => linesValues rest
    | .ok (some v) => (v :: (linesValues rest).1, (linesValues rest).2)

def sdpValues (sdp : Str) : List SdpValue × Option Fault := linesValues (Text.getlines sdp)

/-- The address, media and TSI that are set last. -/
def addressOf (vs : List SdpValue) : Option Str := (vs.filterMap SdpValue.address?).getLast?

def mediaOf (vs : List SdpValue) : Option (Str × Str) := (vs.filterMap SdpValue.media?).getLast?

def tsiOf (vs : List SdpValue) : Option Nat := (vs.filterMap SdpValue.tsi?).getLast?

variable {D : Type}

theorem configureLine_eq (s : ContentStream D) (line : Str) :
    configureLine s line = match lineValue line with
      | .error e => (s, some e)
      | .ok none => (s, none)
      | .ok (some v) => (v.set s, none) := by
  unfold configureLine lineValue
  cases matchSdpLine line with
  | none => rfl
  | some m =>
    obtain ⟨field, value⟩ := m
    by_cases hc : field = 'c'
    · subst hc
      cases hm : matchConnection value <;> simp [hm, SdpValue.set]
    by_cases hm : field = 'm'
    · subst hm
      cases h1 : matchMedia value <;> cases h2 : matchMedia2 value <;> simp [h1, h2, SdpValue.set]
    by_cases ha : field = 'a'
    · subst ha
      cases ht : matchFluteTsi value with
      | none => simp [ht]
      | some t => cases hs : stoul t <;> simp [ht, hs, Except.map, SdpValue.set]
    · simp [hc, hm, ha]

theorem configureLines_eq (s : ContentStream D) (lines : List Str) :
    configureLines s lines = ((linesValues lines).1.foldl SdpValue.set s, (linesValues lines).2) := by
  induction lines generalizing s with
  | nil => rfl
  | cons line rest ih =>
    rw [configureLines, linesValues, configureLine_eq]
    cases lineValue line with
    | error e => rfl
    | ok v =>
      cases v with
      | none => exact ih s
      | some v => exact ih (v.set s)

theorem foldl_set (vs : List SdpValue) (s : ContentStream D) :
    vs.foldl SdpValue.set s = { s with
      streamMcastAddr := (addressOf vs).getD s.streamMcastAddr
      streamMcastPort := (mediaOf vs).elim s.streamMcastPort Prod.fst
      streamType := (mediaOf vs).elim s.streamType Prod.snd
      streamFluteTsi := (tsiOf vs).getD s.streamFluteTsi } := by
  induction vs using List.reverseRecOn with
  | nil => rfl
  | append_singleton vs v ih =>
    rw [List.foldl_append, List.foldl_cons, List.foldl_nil, ih]
    cases v <;> simp [SdpValue.set, addressOf, mediaOf, tsiOf, SdpValue.address?, SdpValue.media?,
      SdpValue.tsi?]

theorem configure5gbcDeliveryFromSdp_eq (s : ContentStream D) (sdp : Str) :
    s.configure5gbcDeliveryFromSdp sdp =
      let s' := (sdpValues sdp).1.foldl SdpValue.set s
      (s', match (sdpValues sdp).2 with
        | some e => .error e
        | none => .ok (s'.streamType ≠ [] && s'.streamMcastAddr ≠ [] && s'.streamMcastPort ≠ [])) := by
  rw [configure5gbcDeliveryFromSdp, configureLines_eq, sdpValues]
  cases (linesValues (Text.getlines sdp)).2 <;> rfl

theorem nonempty_eq_some {s t : Str} (h : nonempty s = some t) : t ≠ [] := by
  unfold nonempty at h
  split_ifs at h with he
  rwa [← Option.some.inj h]

theorem greedyBlank_eq_some {α : Type} {rest : Str → Option α} {pre s : Str} {m : Str × α}
    (h : greedyBlank rest pre s = some m) : m.1 ≠ [] ∧ ∃ t, rest t = some m.2 := by
  induction s generalizing pre with
  | nil => cases h
  | cons c cs ih =>
    rw [greedyBlank] at h
    cases hr : greedyBlank rest (pre ++ [c]) cs with
    | some m' =>
      rw [hr] at h
      cases h
      exact ih hr
    | none =>
      rw [hr] at h
      dsimp only at h
      split_ifs at h with hblank
      obtain ⟨a, ha, rfl⟩ := Option.map_eq_some_iff.mp h
      exact ⟨hblank.2, cs, ha⟩

theorem lineValue_nonempty {line : Str} {v : SdpValue} (h : lineValue line = .ok (some v)) :
    (∀ addr, v = .address addr → addr ≠ []) ∧ ∀ port type, v = .media port type → port ≠ [] ∧ type ≠ [] := by
  unfold lineValue at h
  split at h
  · cases h
  · next value _ =>
    obtain ⟨addr, haddr, rfl⟩ := Option.map_eq_some_iff.mp (Except.ok.inj h)
    refine ⟨fun a ha => ?_, by simp⟩
    cases ha
    unfold matchConnection at haddr
    split_ifs at haddr
    split at haddr
    · exact nonempty_eq_some haddr
    · cases haddr
  · next value _ =>
    split at h
    · next hm =>
      cases h
      refine ⟨by simp, fun port type he => ?_⟩
      cases he
      obtain ⟨t, -, ht⟩ := Option.bind_eq_some_iff.mp hm
      obtain ⟨h1, u, hu⟩ := greedyBlank_eq_some ht
      exact ⟨h1, (greedyBlank_eq_some hu).1⟩
    · obtain ⟨m, hm, rfl⟩ := Option.map_eq_some_iff.mp (Except.ok.inj h)
      refine ⟨by simp, fun port type he => ?_⟩
      cases he
      obtain ⟨t, -, ht⟩ := Option.bind_eq_some_iff.mp hm
      obtain ⟨h1, u, hu⟩ := greedyBlank_eq_some ht
      exact ⟨h1, nonempty_eq_some hu⟩
  · next value _ =>
    split at h
    · next t _ =>
      cases hs : stoul t with
      | error e => simp [hs, Except.map] at h
      | ok n =>
        rw [hs] at h
        cases h
        simp
    · cases h
  · cases h

theorem linesValues_nonempty {lines : List Str} {v : SdpValue} (h : v ∈ (linesValues lines).1) :
    (∀ addr, v = .address addr → addr ≠ []) ∧ ∀ port type, v = .media port type → port ≠ [] ∧ type ≠ [] := by
  induction lines with
  | nil => cases h
  | cons line rest ih =>
    rw [linesValues] at h
    split at h
    · cases h
    · exact ih h
    · next hline =>
      rcases List.mem_cons.mp h with rfl | h
      · exact lineValue_nonempty hline
      · exact ih h

theorem addressOf_ne_nil {sdp addr : Str} (h : addressOf (sdpValues sdp).1 = some addr) : addr ≠ [] := by
  obtain ⟨v, hv, ha⟩ := List.mem_filterMap.mp (List.mem_of_getLast? h)
  cases v <;> cases ha
  exact (linesValues_nonempty hv).1 _ rfl

theorem mediaOf_ne_nil {sdp port type : Str} (h : mediaOf (sdpValues sdp).1 = some (port, type)) :
    port ≠ [] ∧ type ≠ [] := by
  obtain ⟨v, hv, ha⟩ := List.mem_filterMap.mp (List.mem_of_getLast? h)
  cases v <;> cases ha
  exact (linesValues_nonempty hv).2 _ _ rfl

end ContentStream

end MbmsMiddleware
