import MbmsMiddleware.Session

/-! Playlists that the parsers reject. They throw a string literal, which is not
a `std::exception`, out of the handlers of an announcement and out of the
reception of a file. -/

namespace MbmsMiddleware

def isVersion (line : Str) : Bool := Text.startsWith HlsMediaPlaylist.extXVersion line

/-- The version behind the tag counts as set unless it is -1. -/
def setsVersion (line : Str) : Bool :=
  isVersion line && (Text.afterLast ':' line).any fun v => Text.atoi v ≠ -1

/-- Both parsers want the tag on the first line, and no version after one that
has been set. -/
def WellFormedPlaylist (content : Str) : Prop :=
  match Text.getlines content with
  | [] => True
  | first :: rest => Text.trim first = HlsMediaPlaylist.extm3u ∧
      (rest.map Text.trim).Pairwise fun l l' => setsVersion l = true → isVersion l' = false

/-- A parser that reads line by line fails at the first version after one that
has been set. -/
theorem foldlM_version {P : Type} {f : P → Str → Except Fault P} (version : P → Int)
    (hf : ∀ p line, (f p line).Ensures
      (fun p' => (version p ≠ -1 → isVersion line = false) ∧
        (version p' ≠ -1 ↔ version p ≠ -1 ∨ setsVersion line = true))
      (fun e => (∃ what, e = .cString what) ∧ version p ≠ -1 ∧ isVersion line = true))
    (lines : List Str) (p : P) :
    (lines.foldlM f p).Ensures
      (fun _ => (version p ≠ -1 → ∀ l ∈ lines, isVersion l = false) ∧
        lines.Pairwise fun l l' => setsVersion l = true → isVersion l' = false)
      (fun e => (∃ what, e = .cString what) ∧
        ¬ ((version p ≠ -1 → ∀ l ∈ lines, isVersion l = false) ∧
          lines.Pairwise fun l l' => setsVersion l = true → isVersion l' = false)) := by
  induction lines generalizing p with
  | nil => exact ⟨by simp, .nil⟩
  | cons line lines ih =>
    rw [List.foldlM_cons]
    apply Except.ensures_bind
    apply (hf p line).mono
    · rintro p' ⟨hline, hset⟩
      -- what the later lines must not contain once this one has been read
      have hrest : ((version p' ≠ -1 → ∀ l ∈ lines, isVersion l = false) ∧
          lines.Pairwise fun l l' => setsVersion l = true → isVersion l' = false) ↔
            (version p ≠ -1 → ∀ l ∈ line :: lines, isVersion l = false) ∧
              (line :: lines).Pairwise fun l l' => setsVersion l = true → isVersion l' = false := by
        rw [List.pairwise_cons, hset]
        constructor
        · rintro ⟨hv, hp⟩
          refine ⟨fun h l hl => ?_, fun l hl hs => hv (.inr hs) l hl, hp⟩
          rcases List.mem_cons.mp hl with rfl | hl
          · exact hline h
          · exact hv (.inl h) l hl
        · rintro ⟨hv, hs, hp⟩
          refine ⟨fun h l hl => ?_, hp⟩
          rcases h with h | h
          · exact hv h l (List.mem_cons_of_mem line hl)
          · exact hs l hl h
      exact (ih p').mono (fun _ h => hrest.mp h) (fun _ h => ⟨h.1, fun hn => h.2 (hrest.mpr hn)⟩)
    · rintro e ⟨hwhat, hv, hline⟩
      refine ⟨hwhat, fun h => ?_⟩
      have hno := h.1 hv line List.mem_cons_self
      rw [hline] at hno
      cases hno

/-- A playlist is parsed by such a parser once its first line has been checked. -/
theorem parse_version {P α : Type} {f : P → Str → Except Fault P} (version : P → Int)
    (hf : ∀ p line, (f p line).Ensures
      (fun p' => (version p ≠ -1 → isVersion line = false) ∧
        (version p' ≠ -1 ↔ version p ≠ -1 ∨ setsVersion line = true))
      (fun e => (∃ what, e = .cString what) ∧ version p ≠ -1 ∧ isVersion line = true))
    {start : P} (hstart : version start = -1) (empty : α) (result : P → α) (what content : Str) :
    (match Text.getlines content with
      | [] => pure empty
      | first :: rest =>
        if Text.trim first ≠ HlsMediaPlaylist.extm3u then throw (.cString what)
        else do
          let p ← (rest.map Text.trim).foldlM f start
          pure (result p) : Except Fault α).Ensures
      (fun _ => WellFormedPlaylist content)
      (fun e => (∃ what, e = .cString what) ∧ ¬ WellFormedPlaylist content) := by
  unfold WellFormedPlaylist
  cases Text.getlines content with
  | nil => exact trivial
  | cons first rest =>
    dsimp only
    by_cases hfirst : Text.trim first = HlsMediaPlaylist.extm3u
    · rw [if_neg (not_not_intro hfirst)]
      apply Except.ensures_bind
      apply (foldlM_version version hf (rest.map Text.trim) start).mono
      · exact fun _ h => ⟨hfirst, h.2⟩
      · exact fun _ h => ⟨h.1, fun hw => h.2 ⟨fun hv => absurd hstart hv, hw.2⟩⟩
    · rw [if_pos hfirst]
      exact ⟨⟨what, rfl⟩, fun hw => hfirst hw.1⟩

section Parsers

variable {D : Type} [DoubleText D]

theorem HlsPrimaryPlaylist.parseLine_version (basePath : Str) (p : Parser D) (line : Str) :
    (parseLine basePath p line).Ensures
      (fun p' => (p.playlist.version ≠ -1 → isVersion line = false) ∧
        (p'.playlist.version ≠ -1 ↔ p.playlist.version ≠ -1 ∨ setsVersion line = true))
      (fun e => (∃ what, e = .cString what) ∧ p.playlist.version ≠ -1 ∧ isVersion line = true) := by
  have hparams : ∀ (params : List (Str × Str)) (q : Parser D),
      (params.foldl setParameter q).playlist.version = q.playlist.version := by
    intro params q
    refine Runs.foldl_invariant (I := fun t : Parser D => t.playlist.version = q.playlist.version)
      (fun t param ht => ?_) rfl params
    unfold setParameter
    split_ifs <;> exact ht
  have htag : isVersion line = Text.startsWith "#EXT-X-VERSION".toList line := rfl
  unfold parseLine setsVersion
  dsimp only
  rw [← htag]
  by_cases hv : isVersion line = true
  · rw [if_pos hv]
    by_cases hset : p.playlist.version = -1
    · rw [if_neg (not_not_intro hset)]
      cases ha : Text.afterLast ':' line with
      | none => exact ⟨fun h => absurd hset h, by simp [hset]⟩
      | some v => exact ⟨fun h => absurd hset h, by simp [hset, hv]⟩
    · rw [if_pos hset]
      exact ⟨⟨_, rfl⟩, hset, hv⟩
  · rw [if_neg hv]
    simp only [Bool.not_eq_true] at hv
    simp only [hv, Bool.false_and, Bool.false_eq_true, or_false, implies_true, true_and, and_false]
    split
    · cases ha : Text.afterLast ':' line with
      | none => exact Iff.rfl
      | some v =>
        have hh := hparams (parseParameters v) p
        exact iff_of_eq (congrArg (· ≠ -1) hh)
    · split
      · exact Iff.rfl
      · split
        · exact Iff.rfl
        · exact Iff.rfl

theorem HlsPrimaryPlaylist.parse_ensures (content basePath : Str) :
    (parse content basePath : Except Fault (HlsPrimaryPlaylist D)).Ensures
      (fun _ => WellFormedPlaylist content)
      (fun e => (∃ what, e = .cString what) ∧ ¬ WellFormedPlaylist content) :=
  parse_version (fun p : Parser D => p.playlist.version) (parseLine_version basePath) rfl _ _ _ content

theorem HlsMediaPlaylist.parseLine_ensures (p : Parser D) (line : Str) :
    (parseLine p line).Ensures
      (fun p' => (p.playlist.version ≠ -1 → isVersion line = false) ∧
        (p'.playlist.version ≠ -1 ↔ p.playlist.version ≠ -1 ∨ setsVersion line = true))
      (fun e => (∃ what, e = .cString what) ∧ p.playlist.version ≠ -1 ∧ isVersion line = true) := by
  have htag : isVersion line = Text.startsWith extXVersion line := rfl
  unfold parseLine setsVersion
  dsimp only
  rw [← htag]
  by_cases hv : isVersion line = true
  · rw [if_pos hv]
    by_cases hset : p.playlist.version = -1
    · rw [if_neg (not_not_intro hset)]
      cases ha : Text.afterLast ':' line with
      | none => exact ⟨fun h => absurd hset h, by simp [hset]⟩
      | some v => exact ⟨fun h => absurd hset h, by simp [hset, hv]⟩
    · rw [if_pos hset]
      exact ⟨⟨_, rfl⟩, hset, hv⟩
  · rw [if_neg hv]
    simp only [Bool.not_eq_true] at hv
    simp only [hv, Bool.false_and, Bool.false_eq_true, or_false, implies_true, true_and, and_false]
    repeat' split
    all_goals exact Iff.rfl

theorem HlsMediaPlaylist.parse_ensures (indeterminate : Int) (content : Str) :
    (parse indeterminate content : Except Fault (HlsMediaPlaylist D)).Ensures
      (fun _ => WellFormedPlaylist content)
      (fun e => (∃ what, e = .cString what) ∧ ¬ WellFormedPlaylist content) :=
  parse_version (fun p : Parser D => p.playlist.version) parseLine_ensures rfl _ _ _ content

end Parsers

/-- How playlists reach the middleware over broadcast. -/
inductive Arrival where
  | announcement (str : Str)
  | fluteFile (address : Nat) (indeterminate : Int) (file : FluteFile)

namespace World

open ServiceAnnouncement

variable {D : Type} [DoubleText D] (env : Environment D) (cfg : Config)

/-- `flute_file_received` of the stream at an address. A media playlist is
parsed before anything is changed. -/
def callFluteFileReceived (address : Nat) (indeterminate : Int) (file : FluteFile) : Action D Unit :=
  fun w =>
    match w.stream address with
    | .basic cs =>
      .ok () { w with
        memory := { w.memory with cache := cs.fluteFileReceived w.memory.cache file } }
    | .seamless s =>
      match SeamlessContentStream.fluteFileReceived indeterminate file (s, w.memory) with
      | .ok st => .ok () (w.storeStream address st)
      | .error e => .error e w

def arrive : Arrival → Action D Unit
  | .announcement str => parseBootstrap env cfg str
  | .fluteFile address indeterminate file => callFluteFileReceived address indeterminate file

/-- A file for the playlist path of a seamless stream is a well-formed playlist;
the first thing that ends an announcement, if any, is not a malformed one. -/
def MeetsNoMalformedPlaylist (w : World D) : Arrival → Prop
  | .announcement str => ∀ what,
      (announcementFaults D cfg (w.addServiceAnnouncementItems env str).items env).head? ≠
        some (.cString what)
  | .fluteFile address _ file => ∀ s ∈ (w.stream address).asSeamless?,
      file.contentLocation = s.playlistPath → WellFormedPlaylist file.buffer

/-- What a handler does next is to read a malformed playlist: that of a service,
or that of a stream it has not shared yet. -/
def ReadsMalformed (what : Str) : Handler D Unit → Prop
  | .throw e => e = .cString what
  | .call (.readMasterManifest _ manifest _) _ => ¬ WellFormedPlaylist manifest
  | _ => False

/-- The world is as it was when the malformed playlist was handed over. -/
def HandedOver (what : Str) (w w' : World D) : Arrival → Prop
  | .announcement _ => ∃ (item : Item) (w₀ : World D) (p : Handler D Unit),
      Program.Reaches (perform env) (ServiceAnnouncement.handleUserServiceDescriptionBundle cfg
        w₀.items env.rest (env.xml item.content)) w₀ p w' ∧ ReadsMalformed what p
  | .fluteFile .. => w' = w

theorem readMasterManifest_cString {self : Nat} {manifest basePath what : Str} {sv : Service D}
    {cache : Cache} (h : sv.readMasterManifest self manifest basePath cache = .error (.cString what)) :
    ¬ WellFormedPlaylist manifest := by
  unfold Service.readMasterManifest at h
  cases hp : sv.deliveryProtocol with
  | hls =>
    rw [hp] at h
    rcases Except.eq_error_of_bind h with h | ⟨pl, -, h⟩
    · have hparse := HlsPrimaryPlaylist.parse_ensures (D := D) manifest basePath
      rw [h] at hparse
      exact hparse.2
    · cases h
  | dash =>
    rw [hp] at h
    cases h
  | rtp =>
    rw [hp] at h
    cases h

/-- The only call that lets the exception through is the one that reads a
manifest, and it changes nothing then. -/
theorem perform_cString {call : MiddlewareCall D} {w w' : World D} {what : Str}
    (h : perform env call w = .error (.cString what) w') :
    w' = w ∧ ∃ service manifest basePath, call = .readMasterManifest service manifest basePath ∧
      ¬ WellFormedPlaylist manifest := by
  cases call with
  | readMasterManifest service manifest basePath =>
    simp only [perform, callReadMasterManifest] at h
    split at h
    · next e he =>
      cases h
      exact ⟨rfl, service, manifest, basePath, rfl, readMasterManifest_cString he⟩
    · cases h
  | setCdnEndpoint address url =>
    have hfault : ∀ s cache,
        (SeamlessContentStream.setCdnEndpoint (D := D) env.rest address url s cache).2.2 ≠
          some (.cString what) := by
      intro s cache
      unfold SeamlessContentStream.setCdnEndpoint
      split
      · simp
      · split <;> simp
    simp only [perform, callSetCdnEndpoint] at h
    split at h
    · cases h
    · split at h
      · cases h
      · next hf =>
        cases h
        exact absurd hf (hfault _ _)
  | addAndStartContentStream service address =>
    simp only [perform, addAndStartContentStream] at h
    split at h
    · next he =>
      cases h
      unfold ContentStream.start at he
      split at he
      · split at he <;> cases he
      · cases he
    · cases h
  | _ => cases h

theorem mem_of_mem_uncaught {faults : List Fault} {e : Fault} (h : e ∈ uncaught faults) :
    e ∈ faults := by
  unfold uncaught at h
  split at h
  · next f hf =>
    split at h
    · cases h
    · rw [List.mem_singleton.mp h]
      exact List.mem_of_mem_head? hf
  · cases h

theorem cString_notMem_envelopeFaults (items : List Item) (doc : XmlDocument) (what : Str) :
    .cString what ∉ envelopeFaults items doc := by
  unfold envelopeFaults
  cases doc.firstChildElement ServiceAnnouncementXmlElements.metadataEnvelope with
  | none => simp
  | some envelope =>
    intro h
    obtain ⟨i, -, h⟩ := List.mem_flatMap.mp h
    obtain ⟨item, -, h⟩ := List.mem_flatMap.mp h
    unfold envelopeItemFaults at h
    split at h
    · simp at h
    · split at h
      · unfold validityFaults at h
        split at h
        · split at h <;> simp at h
        · simp at h
      · cases h

theorem handleUserServiceDescriptionBundle_cString {item : Item} {what : Str} {w w' : World D}
    (h : handleUserServiceDescriptionBundle env cfg item w = .error (.cString what) w') :
    ∃ p : Handler D Unit, Program.Reaches (perform env)
      (ServiceAnnouncement.handleUserServiceDescriptionBundle cfg w.items env.rest
        (env.xml item.content)) w p w' ∧ ReadsMalformed what p := by
  have hrun : (ServiceAnnouncement.handleUserServiceDescriptionBundle cfg w.items env.rest
      (env.xml item.content)).run (perform env) w = .error (.cString what) w' := by
    unfold handleUserServiceDescriptionBundle catchStdException at h
    split at h
    · cases h
    · next e t he =>
      split at h
      · cases h
      · cases h
        exact he
  obtain ⟨p, t, hp, hend⟩ := Program.run_error (perform env) hrun
  rcases hend with ⟨rfl, rfl⟩ | ⟨call, next, rfl, hcall⟩
  · exact ⟨_, hp, rfl⟩
  · obtain ⟨rfl, service, manifest, basePath, rfl, hm⟩ := perform_cString env hcall
    exact ⟨_, hp, hm⟩

theorem parseBootstrap_cString {str what : Str} {w w' : World D}
    (h : parseBootstrap env cfg str w = .error (.cString what) w') :
    HandedOver env cfg what w w' (.announcement str) := by
  have henvelopes := handleMbmsEnvelopes_ensures env
    ((w.addServiceAnnouncementItems env str).items.filter
      (·.contentType = ContentTypeConstants.mbmsEnvelope)) (w.addServiceAnnouncementItems env str)
  rw [parseBootstrap_eq] at h
  simp only [EStateM.bind] at h
  split at h
  · next u w₁ he =>
    obtain ⟨item, -, w₀, hitem⟩ := EStateM.error_of_forM h
    obtain ⟨p, hp, hreads⟩ := handleUserServiceDescriptionBundle_cString env cfg hitem
    exact ⟨item, w₀, p, hp, hreads⟩
  · next e w₁ he =>
    -- the envelope handlers throw nothing of the kind
    cases h
    rw [he] at henvelopes
    have hm := List.mem_of_mem_head? henvelopes.1
    obtain ⟨item, -, hu⟩ := List.mem_flatMap.mp hm
    exact absurd (mem_of_mem_uncaught hu) (cString_notMem_envelopeFaults _ _ what)

theorem callFluteFileReceived_cString (address : Nat) (indeterminate : Int) (file : FluteFile)
    (w : World D) :
    (callFluteFileReceived address indeterminate file w).Ensures
      (fun _ _ => MeetsNoMalformedPlaylist env cfg w (.fluteFile address indeterminate file))
      (fun e w' => (∃ what, e = .cString what) ∧ w' = w ∧
        ¬ MeetsNoMalformedPlaylist env cfg w (.fluteFile address indeterminate file)) := by
  unfold callFluteFileReceived
  cases hs : w.stream address with
  | basic cs =>
    intro s hm
    rw [hs] at hm
    cases hm
  | seamless s =>
    have hmeets : MeetsNoMalformedPlaylist env cfg w (.fluteFile address indeterminate file) ↔
        (file.contentLocation = s.playlistPath → WellFormedPlaylist file.buffer) := by
      simp only [MeetsNoMalformedPlaylist, hs, AnyStream.asSeamless?, Option.mem_def,
        Option.some.injEq, forall_eq']
    rw [hmeets]
    dsimp only
    unfold SeamlessContentStream.fluteFileReceived
    dsimp only
    by_cases hl : file.contentLocation = s.playlistPath
    · rw [if_pos hl]
      have hparse := HlsMediaPlaylist.parse_ensures (D := D) indeterminate file.buffer
      unfold SeamlessContentStream.handlePlaylist
      cases hp : (HlsMediaPlaylist.parse indeterminate file.buffer :
          Except Fault (HlsMediaPlaylist D)) with
      | error e =>
        rw [hp] at hparse
        exact ⟨hparse.1, rfl, fun h => hparse.2 (h hl)⟩
      | ok pl =>
        rw [hp] at hparse
        exact fun _ => hparse
    · rw [if_neg hl]
      split
      · next hok => exact fun h => absurd h hl
      · next herr =>
        split at herr <;> cases herr

/-- The parsers' exception stays inside exactly when no malformed playlist is
met, and it leaves everything as it was when the playlist was handed over. -/
theorem malformed_playlists_contained (a : Arrival) (w : World D) :
    ((∀ what, (arrive env cfg a w).fault? ≠ some (.cString what)) ↔
      MeetsNoMalformedPlaylist env cfg w a) ∧
    ∀ what w', arrive env cfg a w = .error (.cString what) w' → HandedOver env cfg what w w' a := by
  cases a with
  | announcement str =>
    refine ⟨?_, fun what w' h => parseBootstrap_cString env cfg h⟩
    simp only [arrive, parseBootstrap_fault, MeetsNoMalformedPlaylist]
  | fluteFile address indeterminate file =>
    have hh := callFluteFileReceived_cString env cfg address indeterminate file w
    simp only [arrive]
    cases hr : callFluteFileReceived address indeterminate file w with
    | ok u w' =>
      rw [hr] at hh
      refine ⟨iff_of_true ?_ hh, ?_⟩
      · intro what hf
        cases hf
      · intro what w'' hc
        cases hc
    | error e w' =>
      rw [hr] at hh
      obtain ⟨⟨what, rfl⟩, hw, hm⟩ := hh
      refine ⟨iff_of_false (fun h => h what rfl) hm, ?_⟩
      intro what' w'' hc
      cases hc
      exact hw

section Example

/-- An announcement of one HLS service, whose primary playlist has no first line
`#EXTM3U`. -/
def untaggedEnvironment : Environment Int where
  xml _ := [.mk ServiceAnnouncementXmlElements.bundleDescription [] none
    [.mk ServiceAnnouncementXmlElements.userServiceDescription
      [(ServiceAnnouncementXmlElements.serviceId, "s".toList)] none
      [.mk ServiceAnnouncementXmlElements.appService
        [(ServiceAnnouncementXmlElements.mimeType, ContentTypeConstants.hls),
          (ServiceAnnouncementXmlElements.appServiceDescriptionUri, "a.m3u8".toList)] none []]]]
  mimeParts _ :=
    [⟨ContentTypeConstants.mbmsUserServiceDescription, some "usd.xml".toList, []⟩,
      ⟨ContentTypeConstants.hls, some "a.m3u8".toList, "v.m3u8".toList⟩]
  rest := bareEnvironment.rest
  indeterminate := bareEnvironment.indeterminate

theorem untagged_playlist_escapes :
    (arrive untaggedEnvironment {} (.announcement []) (World.initial untaggedEnvironment)).fault? =
      some (.cString "HLS playlist parsing failed: first line is not #EXTM3U".toList) := by
  decide +kernel

end Example

end World

end MbmsMiddleware
