import MbmsMiddleware.HlsPrimaryPlaylist
import MbmsMiddleware.Cache

/-! Content streams with basic delivery: their configuration from a session
description, the files they receive, and their start. -/

namespace MbmsMiddleware

/-- What a started FLUTE thread receives. -/
structure FluteReceiver where
  iface : Str
  mcastAddr : Str
  mcastPort : Int
  tsi : Nat
  deriving DecidableEq, Repr

/-- `bandwidth` and `frameRate` are `none` until they are set: the constructor
does not initialize them. `fluteThread` is joinable when it is `some`. -/
structure ContentStream (D : Type) where
  deliveryProtocol : DeliveryProtocol
  base : Str
  basePath : Str := []
  playlistPath : Str := []
  streamIface : Str := []
  streamType : Str := "none".toList
  streamMcastAddr : Str := []
  streamMcastPort : Str := []
  streamFluteTsi : Nat := 0
  fluteThread : Option FluteReceiver := none
  resolution : Str := []
  codecs : Str := []
  bandwidth : Option Nat := none
  frameRate : Option D := none

namespace ContentStream

/-- `^(.+) ` followed by a match of `rest`, tried from the last blank on. -/
def greedyBlank {α : Type} (rest : Str → Option α) : Str → Str → Option (Str × α)
  | _, [] => none
  | pre, c :: cs =>
    match greedyBlank rest (pre ++ [c]) cs with
    | some m => some m
    | none => if c = ' ' ∧ pre ≠ [] then (rest cs).map (pre, ·) else none

def nonempty (s : Str) : Option Str := if s = [] then none else some s

/-- The regular expression `.` matches every character but these. -/
def isLineTerminator (c : Char) : Bool := c = '\n' || c = '\r'

/-- `^([a-z])\=(.+)$` -/
def matchSdpLine : Str → Option (Char × Str)
  | field :: '=' :: value =>
    if 'a' ≤ field ∧ field ≤ 'z' ∧ value ≠ [] ∧ value.all (fun c => !isLineTerminator c) then
      some (field, value)
    else none
  | _ => none

def isAddressChar (c : Char) : Bool := c.isDigit || c = '.'

/-- `^IN (IP.) ([0-9\.]+).*$`: the second group. -/
def matchConnection (value : Str) : Option Str :=
  if Text.startsWith "IN IP".toList value then
    match value.drop 5 with
    | _ :: ' ' :: r => nonempty (r.takeWhile isAddressChar)
    | _ => none
  else none

def matchApplication (value : Str) : Option Str :=
  if Text.startsWith "application ".toList value then some (value.drop 12) else none

/-- `^application (.+) (.+)$` -/
def matchMedia (value : Str) : Option (Str × Str) :=
  (matchApplication value).bind (greedyBlank nonempty [])

/-- `^application (.+) (.+) (.+)$` -/
def matchMedia2 (value : Str) : Option (Str × Str × Str) :=
  (matchApplication value).bind (greedyBlank (greedyBlank nonempty []) [])

/-- `^flute-tsi:(.+)$` -/
def matchFluteTsi (value : Str) : Option Str :=
  if Text.startsWith "flute-tsi:".toList value then nonempty (value.drop 10) else none

/-- `std::stoul`. -/
def stoul (s : Str) : Except Fault Nat :=
  let (negative, r) := match Text.trimLeft s with
    | '-' :: r => (true, r)
    | '+' :: r => (false, r)
    | r => (false, r)
  let n := Nat.ofDigitChars 10 (r.takeWhile Char.isDigit) 0
  if r.takeWhile Char.isDigit = [] then throw .invalidArgument
  else if n ≥ 2 ^ 64 then throw .outOfRange
  else pure (if negative then (2 ^ 64 - n) % 2 ^ 64 else n)

variable {D : Type}

/-- One line of the session description. What was set before an exception stays set. -/
def configureLine (s : ContentStream D) (line : Str) : ContentStream D × Option Fault :=
  match matchSdpLine line with
  | none => (s, none)
  | some ('c', value) =>
    match matchConnection value with
    | some addr => ({ s with streamMcastAddr := addr }, none)
    | none => (s, none)
  | some ('m', value) =>
    let s := match matchMedia value with
      | some (port, type) => { s with streamMcastPort := port, streamType := type }
      | none => s
    let s := match matchMedia2 value with
      | some (port, type, _) => { s with streamMcastPort := port, streamType := type }
      | none => s
    (s, none)
  | some ('a', value) =>
    match matchFluteTsi value with
    | some t =>
      match stoul t with
      | .ok tsi => ({ s with streamFluteTsi := tsi }, none)
      | .error e => (s, some e)
    | none => (s, none)
  | some _ => (s, none)

def configureLines (s : ContentStream D) : List Str → ContentStream D × Option Fault
  | [] => (s, none)
  | line :: rest =>
    match configureLine s line with
    | (s, none) => configureLines s rest
    | (s, some e) => (s, some e)

def configure5gbcDeliveryFromSdp (s : ContentStream D) (sdp : Str) :
    ContentStream D × Except Fault Bool :=
  match configureLines s (Text.getlines sdp) with
  | (s, some e) => (s, .error e)
  | (s, none) =>
    (s, .ok (s.streamType ≠ [] && s.streamMcastAddr ≠ [] && s.streamMcastPort ≠ []))

/-- `s.find(p) != npos`. -/
def contains (p : Str) (s : Str) : Bool := s.tails.any (Text.startsWith p)

def indexM3u8 : Str := "index.m3u8".toList

def fluteFileReceived (s : ContentStream D) (cache : Cache) (file : FluteFile) : Cache :=
  if file.contentLocation ≠ indexM3u8 then
    let contentLocation :=
      if s.deliveryProtocol = .dash then s.basePath ++ file.contentLocation else file.contentLocation
    if contains ".mpd".toList file.contentLocation then
      cache.addItem (.file (s.basePath ++ "manifest.mpd".toList) file.receivedAt file)
    else cache.addItem (.file contentLocation file.receivedAt file)
  else cache

def fluteUdp : Str := "FLUTE/UDP".toList

/-- Assigning to a joinable `std::thread` calls `std::terminate`. -/
def start (s : ContentStream D) : Except Fault (ContentStream D) :=
  if s.streamType = fluteUdp then
    match s.fluteThread with
    | some _ => throw .terminate
    | none => pure { s with
        fluteThread := some ⟨s.streamIface, s.streamMcastAddr, Text.atoi s.streamMcastPort,
          s.streamFluteTsi⟩ }
  else pure s

/-- What a start changes of the stream. -/
theorem eq_of_start {s s' : ContentStream D} (h : s.start = .ok s') :
    ∃ receiver, s' = { s with fluteThread := receiver } := by
  unfold start at h
  split at h
  · split at h
    · cases h
    · cases h
      exact ⟨_, rfl⟩
  · cases h
    exact ⟨s.fluteThread, rfl⟩

theorem stoul_fault {s : Str} {e : Fault} (h : stoul s = .error e) : e.isException = true := by
  have hdigits : ∀ (negative : Bool) (r : Str),
      (if r.takeWhile Char.isDigit = [] then throw .invalidArgument
        else if Nat.ofDigitChars 10 (r.takeWhile Char.isDigit) 0 ≥ 2 ^ 64 then throw .outOfRange
        else pure (if negative then
            (2 ^ 64 - Nat.ofDigitChars 10 (r.takeWhile Char.isDigit) 0) % 2 ^ 64
          else Nat.ofDigitChars 10 (r.takeWhile Char.isDigit) 0) : Except Fault Nat) = .error e →
      e.isException = true := by
    intro negative r h
    split at h
    · cases h
      rfl
    · split at h
      · cases h
        rfl
      · cases h
  unfold stoul at h
  exact hdigits _ _ h

/-- What goes wrong with a line does not depend on the stream. -/
theorem configureLine_fault (s t : ContentStream D) (line : Str) :
    (configureLine s line).2 = (configureLine t line).2 := by
  unfold configureLine
  cases matchSdpLine line with
  | none => rfl
  | some m =>
    obtain ⟨field, value⟩ := m
    dsimp only
    split
    · rfl
    · split
      · rfl
      · rfl
    · rfl
    · split
      · split <;> rfl
      · rfl
    · rfl

theorem configureLines_fault (s t : ContentStream D) (lines : List Str) :
    (configureLines s lines).2 = (configureLines t lines).2 := by
  induction lines generalizing s t with
  | nil => rfl
  | cons line lines ih =>
    have hline := configureLine_fault s t line
    simp only [configureLines]
    generalize configureLine s line = r, configureLine t line = r' at hline
    obtain ⟨s', e⟩ := r
    obtain ⟨t', e'⟩ := r'
    dsimp only at hline
    subst hline
    cases e with
    | none => exact ih s' t'
    | some e => rfl

theorem configureLine_exception {s : ContentStream D} {line : Str} {e : Fault}
    (h : (configureLine s line).2 = some e) : e.isException = true := by
  unfold configureLine at h
  dsimp only at h
  split at h
  · cases h
  · split at h <;> cases h
  · cases h
  · split at h
    · split at h
      · cases h
      · next hst =>
        cases h
        exact stoul_fault hst
    · cases h
  · cases h

theorem configureLines_exception {s : ContentStream D} {lines : List Str} {e : Fault}
    (h : (configureLines s lines).2 = some e) : e.isException = true := by
  induction lines generalizing s with
  | nil => cases h
  | cons line lines ih =>
    simp only [configureLines] at h
    split at h
    · exact ih h
    · next hline =>
      cases h
      exact configureLine_exception (congrArg Prod.snd hline)

theorem configure5gbcDeliveryFromSdp_exception {s : ContentStream D} {sdp : Str} {e : Fault}
    (h : (s.configure5gbcDeliveryFromSdp sdp).2 = .error e) : e.isException = true := by
  simp only [configure5gbcDeliveryFromSdp] at h
  split at h
  · next hlines =>
    cases h
    exact configureLines_exception (congrArg Prod.snd hlines)
  · cases h

/-- Nothing that configures a stream looks at its base path. -/
def withBasePath (basePath : Str) (s : ContentStream D) : ContentStream D :=
  { s with basePath := basePath }

theorem configureLine_withBasePath (basePath : Str) (s : ContentStream D) (line : Str) :
    configureLine (s.withBasePath basePath) line =
      ((configureLine s line).1.withBasePath basePath, (configureLine s line).2) := by
  unfold configureLine
  cases matchSdpLine line with
  | none => rfl
  | some m =>
    obtain ⟨field, value⟩ := m
    dsimp only
    split
    · rfl
    · split <;> rfl
    · next m _ =>
      cases matchMedia m <;> cases matchMedia2 m <;> rfl
    · split
      · split <;> rfl
      · rfl
    · rfl

theorem configureLines_withBasePath (basePath : Str) (s : ContentStream D) (lines : List Str) :
    configureLines (s.withBasePath basePath) lines =
      ((configureLines s lines).1.withBasePath basePath, (configureLines s lines).2) := by
  induction lines generalizing s with
  | nil => rfl
  | cons line lines ih =>
    simp only [configureLines, configureLine_withBasePath]
    obtain ⟨t, e⟩ := configureLine s line
    cases e with
    | none => exact ih t
    | some e => rfl

theorem configure5gbcDeliveryFromSdp_withBasePath (basePath : Str) (s : ContentStream D)
    (sdp : Str) :
    (s.withBasePath basePath).configure5gbcDeliveryFromSdp sdp =
      ((s.configure5gbcDeliveryFromSdp sdp).1.withBasePath basePath,
        (s.configure5gbcDeliveryFromSdp sdp).2) := by
  simp only [configure5gbcDeliveryFromSdp, configureLines_withBasePath]
  obtain ⟨t, e⟩ := configureLines s (Text.getlines sdp)
  cases e <;> rfl

/-- What configuring a stream does not touch. -/
structure Configures (s s' : ContentStream D) : Prop where
  deliveryProtocol : s'.deliveryProtocol = s.deliveryProtocol
  base : s'.base = s.base
  basePath : s'.basePath = s.basePath
  fluteThread : s'.fluteThread = s.fluteThread

theorem Configures.refl (s : ContentStream D) : Configures s s := ⟨rfl, rfl, rfl, rfl⟩

theorem Configures.trans {s s' s'' : ContentStream D} (h : Configures s s')
    (h' : Configures s' s'') : Configures s s'' where
  deliveryProtocol := h'.deliveryProtocol.trans h.deliveryProtocol
  base := h'.base.trans h.base
  basePath := h'.basePath.trans h.basePath
  fluteThread := h'.fluteThread.trans h.fluteThread

theorem configureLine_configures (s : ContentStream D) (line : Str) :
    Configures s (configureLine s line).1 := by
  unfold configureLine
  repeat' split
  all_goals exact ⟨rfl, rfl, rfl, rfl⟩

theorem configureLines_configures (s : ContentStream D) (lines : List Str) :
    Configures s (configureLines s lines).1 := by
  induction lines generalizing s with
  | nil => exact .refl s
  | cons line lines ih =>
    have hline := configureLine_configures s line
    simp only [configureLines]
    split
    · next t ht =>
      rw [ht] at hline
      exact hline.trans (ih t)
    · next t e ht =>
      rw [ht] at hline
      exact hline

theorem configure5gbcDeliveryFromSdp_configures (s : ContentStream D) (sdp : Str) :
    Configures s (s.configure5gbcDeliveryFromSdp sdp).1 := by
  have hlines := configureLines_configures s (Text.getlines sdp)
  simp only [configure5gbcDeliveryFromSdp]
  split <;> next ht =>
    rw [ht] at hlines
    exact hlines

variable [DoubleText D]

def readMasterManifest (s : ContentStream D) (manifest : Str) : Except Fault (ContentStream D) :=
  if s.deliveryProtocol = .hls then do
    let pl : HlsPrimaryPlaylist D ← HlsPrimaryPlaylist.parse manifest []
    match pl.streams with
    | [stream] => pure { s with playlistPath := stream.uri }
    | _ => pure s
  else pure s

theorem readMasterManifest_withBasePath (basePath : Str) (s : ContentStream D) (manifest : Str) :
    (s.withBasePath basePath).readMasterManifest manifest =
      (s.readMasterManifest manifest).map (withBasePath basePath) := by
  unfold readMasterManifest
  have hprotocol : (s.withBasePath basePath).deliveryProtocol = s.deliveryProtocol := rfl
  rw [hprotocol]
  by_cases hp : s.deliveryProtocol = .hls
  · rw [if_pos hp, if_pos hp]
    cases (HlsPrimaryPlaylist.parse manifest [] : Except Fault (HlsPrimaryPlaylist D)) with
    | error e => rfl
    | ok pl =>
      simp only [bind, Except.bind]
      split <;> rfl
  · rw [if_neg hp, if_neg hp]
    rfl

theorem readMasterManifest_fault {s : ContentStream D} {manifest : Str} {e : Fault}
    (h : s.readMasterManifest manifest = .error e) : e.isException = true := by
  unfold readMasterManifest at h
  split at h
  · rcases Except.eq_error_of_bind h with h | ⟨pl, _, h⟩
    · exact HlsPrimaryPlaylist.parse_fault h
    · split at h <;> cases h
  · cases h

theorem readMasterManifest_configures {s s' : ContentStream D} {manifest : Str}
    (h : s.readMasterManifest manifest = .ok s') : Configures s s' := by
  unfold readMasterManifest at h
  split at h
  · cases hp : (HlsPrimaryPlaylist.parse manifest [] : Except Fault (HlsPrimaryPlaylist D)) with
    | error e => simp [hp, bind, Except.bind] at h
    | ok pl =>
      simp only [hp, bind, Except.bind] at h
      split at h <;> cases h <;> exact ⟨rfl, rfl, rfl, rfl⟩
  · cases h
    exact .refl s

end ContentStream

end MbmsMiddleware
