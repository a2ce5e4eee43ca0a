import MbmsMiddleware.SessionDescription
import MbmsMiddleware.StreamCreation

/-! The media playlist of a stream, looked up by the name of its session
description, and when the names of two sessions lead to different items. -/

namespace MbmsMiddleware

open ServiceAnnouncementXmlElements

namespace ContentStream

variable {D : Type} [DoubleText D]

theorem readMasterManifest_of_single {s : ContentStream D} {manifest : Str}
    {pl : HlsPrimaryPlaylist D} {stream : HlsPrimaryPlaylist.Stream D}
    (hls : s.deliveryProtocol = .hls) (hpl : HlsPrimaryPlaylist.parse manifest [] = .ok pl)
    (hstream : pl.streams = [stream]) :
    s.readMasterManifest manifest = .ok { s with playlistPath := stream.uri } := by
  unfold readMasterManifest
  rw [if_pos hls, hpl]
  simp only [bind, Except.bind]
  rw [hstream]
  rfl

theorem readMasterManifest_of_not_single {s s' : ContentStream D} {manifest : Str}
    (hone : ¬ (s.deliveryProtocol = .hls ∧
      ∃ (pl : HlsPrimaryPlaylist D) (stream : HlsPrimaryPlaylist.Stream D),
        HlsPrimaryPlaylist.parse manifest [] = .ok pl ∧ pl.streams = [stream]))
    (h : s.readMasterManifest manifest = .ok s') : s' = s := by
  unfold readMasterManifest at h
  split at h
  · rename_i hls
    obtain ⟨pl, hpl, h⟩ := Except.eq_ok_of_bind h
    split at h
    · rename_i stream hstream
      exact absurd ⟨hls, pl, stream, hpl, hstream⟩ hone
    · cases h
      rfl
  · cases h
    rfl

end ContentStream

namespace ServiceAnnouncement

def sdpSuffix : Str := ".sdp".toList
def m3u8Suffix : Str := ".m3u8".toList

/-- Three characters of a name, and one before them, look like its ending. -/
def EarlierSdp (name : Str) : Prop :=
  ∃ before c behind, name = before ++ c :: ("sdp".toList ++ behind) ∧
    ContentStream.isLineTerminator c = false

theorem EarlierSdp.cons {name : Str} (h : EarlierSdp name) (c : Char) : EarlierSdp (c :: name) := by
  obtain ⟨before, c', behind, rfl, hc'⟩ := h
  exact ⟨c :: before, c', behind, rfl, hc'⟩

theorem replaceSdp_match {c : Char} (replacement rest : Str)
    (h : ContentStream.isLineTerminator c = false) :
    replaceSdp replacement (c :: 's' :: 'd' :: 'p' :: rest) =
      replacement ++ replaceSdp replacement rest := by
  rw [replaceSdp, h]
  rfl

theorem replaceSdp_skip {c : Char} {s : Str} (replacement : Str)
    (h : ContentStream.isLineTerminator c = false → ∀ rest, s ≠ 's' :: 'd' :: 'p' :: rest) :
    replaceSdp replacement (c :: s) = c :: replaceSdp replacement s := by
  rw [replaceSdp.eq_def]
  split
  · rename_i heq
    cases heq
  · rename_i c' rest heq
    cases heq
    by_cases hc : ContentStream.isLineTerminator c
    · rw [if_pos hc]
    · exact absurd rfl (h (by simpa using hc) rest)
  · rename_i heq
    cases heq
    rfl

/-- What may follow a name before the ending does not begin like the ending. -/
theorem eq_append_of_append_sdpSuffix {name rest : Str}
    (h : name ++ sdpSuffix = 's' :: 'd' :: 'p' :: rest) :
    ∃ behind, name = 's' :: 'd' :: 'p' :: behind ∧ rest = behind ++ sdpSuffix := by
  match name, h with
  | [], h => cases h
  | [a], h => cases h
  | [a, b], h => cases h
  | a :: b :: c :: behind, h =>
    cases h
    exact ⟨behind, rfl, rfl⟩

theorem replaceSdp_of_not_earlierSdp {name : Str} (replacement : Str) (h : ¬ EarlierSdp name) :
    replaceSdp replacement (name ++ sdpSuffix) = name ++ replacement := by
  induction name with
  | nil =>
    have hsuffix := replaceSdp_match (c := '.') replacement [] rfl
    rw [replaceSdp, List.append_nil] at hsuffix
    exact hsuffix
  | cons c name ih =>
    rw [List.cons_append, replaceSdp_skip, ih (fun he => h (he.cons c)), List.cons_append]
    intro hc rest heq
    obtain ⟨behind, rfl, _⟩ := eq_append_of_append_sdpSuffix heq
    exact h ⟨[], c, behind, rfl, hc⟩

theorem length_le_replaceSdp (s : Str) : s.length ≤ (replaceSdp m3u8Suffix s).length := by
  fun_induction replaceSdp m3u8Suffix s with
  | case1 => simp
  | case2 c rest hc ih =>
    simp only [List.length_cons] at ih ⊢
    omega
  | case3 c rest hc ih =>
    have hlen : m3u8Suffix.length = 5 := rfl
    simp only [List.length_cons, List.length_append, hlen]
    omega
  | case4 c rest _ ih =>
    simp only [List.length_cons]
    omega

/-- A replacement is a character longer than what it replaces. -/
theorem length_replaceSdp_append (name : Str) :
    name.length + 5 ≤ (replaceSdp m3u8Suffix (name ++ sdpSuffix)).length := by
  induction name with
  | nil => exact le_rfl
  | cons c name ih =>
    by_cases hmatch : ContentStream.isLineTerminator c = false ∧
        ∃ rest, name ++ sdpSuffix = 's' :: 'd' :: 'p' :: rest
    · obtain ⟨hc, rest, hrest⟩ := hmatch
      have hlen := congrArg List.length hrest
      have hle := length_le_replaceSdp rest
      rw [List.cons_append, hrest, replaceSdp_match m3u8Suffix rest hc]
      simp only [List.length_cons, List.length_append, m3u8Suffix, sdpSuffix,
        String.length_toList] at hlen hle ⊢
      have h5 : ".m3u8".length = 5 := rfl
      have h4 : ".sdp".length = 4 := rfl
      omega
    · rw [List.cons_append, replaceSdp_skip m3u8Suffix
        (fun hc rest hrest => hmatch ⟨hc, rest, hrest⟩)]
      simp only [List.length_cons]
      omega

theorem length_replaceSdp_of_earlierSdp {name : Str} (h : EarlierSdp name) :
    name.length + 6 ≤ (replaceSdp m3u8Suffix (name ++ sdpSuffix)).length := by
  induction name with
  | nil =>
    obtain ⟨before, c, behind, hname, _⟩ := h
    cases before <;> cases hname
  | cons c name ih =>
    by_cases hmatch : ContentStream.isLineTerminator c = false ∧
        ∃ behind, name = 's' :: 'd' :: 'p' :: behind
    · obtain ⟨hc, behind, rfl⟩ := hmatch
      have happend := length_replaceSdp_append behind
      have heq : replaceSdp m3u8Suffix (c :: ('s' :: 'd' :: 'p' :: behind) ++ sdpSuffix) =
          m3u8Suffix ++ replaceSdp m3u8Suffix (behind ++ sdpSuffix) :=
        replaceSdp_match m3u8Suffix (behind ++ sdpSuffix) hc
      have hlen : m3u8Suffix.length = 5 := rfl
      rw [heq]
      simp only [List.length_cons, List.length_append, hlen]
      omega
    · have hname : EarlierSdp name := by
        obtain ⟨before, c', behind, hname, hc'⟩ := h
        cases before with
        | nil =>
          cases hname
          exact absurd ⟨hc', behind, rfl⟩ hmatch
        | cons d before =>
          cases hname
          exact ⟨before, c', behind, rfl, hc'⟩
      have hskip : replaceSdp m3u8Suffix (c :: (name ++ sdpSuffix)) =
          c :: replaceSdp m3u8Suffix (name ++ sdpSuffix) := by
        apply replaceSdp_skip
        intro hc rest hrest
        obtain ⟨behind, hbehind, _⟩ := eq_append_of_append_sdpSuffix hrest
        exact hmatch ⟨hc, behind, hbehind⟩
      have hle := ih hname
      rw [List.cons_append, hskip]
      simp only [List.length_cons]
      omega

/-- The name of the manifest is the intended one unless the expression matches
before the ending. -/
theorem replaceSdp_eq_iff (name : Str) :
    replaceSdp m3u8Suffix (name ++ sdpSuffix) = name ++ m3u8Suffix ↔ ¬ EarlierSdp name := by
  constructor
  · intro heq h
    have hle := length_replaceSdp_of_earlierSdp h
    have hlen : m3u8Suffix.length = 5 := rfl
    rw [heq, List.length_append] at hle
    omega
  · exact replaceSdp_of_not_earlierSdp m3u8Suffix

section Lookup

variable {D : Type} [DoubleText D] (cfg : Config) (items : List Item)

/-- The item is read into the streams of the session. -/
def readsManifest (sdpUri : Str) (item : Item) : Bool :=
  item.uri = replaceSdp m3u8Suffix sdpUri

/-- The item is the manifest announced for the session of that name. -/
def isManifestOf (name : Str) (item : Item) : Bool := item.uri = name ++ m3u8Suffix

def readPicked (reads : Item → Bool) (item : Item) (cs : ContentStream D) :
    Except Fault (ContentStream D) :=
  if reads item then cs.readMasterManifest item.content else pure cs

/-- `configureFromItems` with the manifests that `reads` picks. -/
def configureReading (reads : Item → Bool) (sdpUri : Str) (cs : ContentStream D) :
    Except Fault (ContentStream D) :=
  items.foldlM (fun cs item => do
    let cs ← readPicked reads item cs
    if item.contentType = ContentTypeConstants.sdp ∧ item.uri = sdpUri then
      let (cs, result) := cs.configure5gbcDeliveryFromSdp item.content
      let _ ← result
      pure cs
    else pure cs) cs

def stream5GMagReading (reads : Item → Bool) (sdpUri : Str) (pattern : XmlElement) :
    Except Fault (Option (AnyStream D)) := do
  let broadcastUrl ← stdString pattern.getText
  let cs ← configureReading items reads sdpUri (newContentStream cfg .hls broadcastUrl)
  pure (some (makeStream cfg cs))

def streamLegacyReading (basePath : Str) (reads : Item → Bool) (sdpUri : Str)
    (pattern : XmlElement) : Except Fault (Option (AnyStream D)) := do
  let broadcastUrl ← stdString pattern.getText
  if ContentStream.contains "file://".toList broadcastUrl = false then
    let cs ← configureReading items reads sdpUri
      { newContentStream cfg .hls broadcastUrl with basePath := basePath }
    pure (some (.basic cs))
  else pure none

theorem readManifestItem_eq (sdpUri : Str) (item : Item) (cs : ContentStream D) :
    readManifestItem true (replaceSdp m3u8Suffix sdpUri) item cs =
      readPicked (readsManifest sdpUri) item cs := by
  unfold readManifestItem readPicked readsManifest
  simp only [and_true, decide_eq_true_eq]

theorem configureFromItems_eq (sdpUri : Str) (cs : ContentStream D) :
    configureFromItems items true (replaceSdp m3u8Suffix sdpUri) sdpUri cs =
      configureReading items (readsManifest sdpUri) sdpUri cs := by
  unfold configureFromItems configureReading
  simp only [readManifestItem_eq]

theorem streamOf5GMagConfig_eq (sdpUri : Str) :
    streamOf5GMagConfig (D := D) cfg items .hls sdpUri =
      stream5GMagReading cfg items (readsManifest sdpUri) sdpUri := by
  funext pattern
  unfold streamOf5GMagConfig stream5GMagReading
  simp only [← configureFromItems_eq]
  rfl

theorem streamOfLegacyFormat_eq (basePath sdpUri : Str) :
    streamOfLegacyFormat (D := D) cfg items .hls basePath sdpUri =
      streamLegacyReading cfg items basePath (readsManifest sdpUri) sdpUri := by
  funext pattern
  unfold streamOfLegacyFormat streamLegacyReading
  simp only [← configureFromItems_eq, reduceCtorEq, false_or, true_and, decide_true, if_true]
  rfl

variable (D) in
/-- What `read_master_manifest` leaves in the playlist path. -/
def pathFrom (path : Str) (item : Item) : Str :=
  match (HlsPrimaryPlaylist.parse item.content [] : Except Fault (HlsPrimaryPlaylist D)) with
  | .ok pl =>
    match pl.streams with
    | [stream] => stream.uri
    | _ => path
  | .error _ => path

theorem readMasterManifest_playlistPath {cs cs' : ContentStream D} {item : Item}
    (hls : cs.deliveryProtocol = .hls) (h : cs.readMasterManifest item.content = .ok cs') :
    cs'.playlistPath = pathFrom D cs.playlistPath item := by
  unfold pathFrom
  cases hpl : (HlsPrimaryPlaylist.parse item.content [] : Except Fault (HlsPrimaryPlaylist D)) with
  | error e =>
    unfold ContentStream.readMasterManifest at h
    rw [if_pos hls, hpl] at h
    cases h
  | ok pl =>
    dsimp only
    split
    · rename_i stream hstream
      rw [ContentStream.readMasterManifest_of_single hls hpl hstream] at h
      cases h
      rfl
    · rename_i hne
      rw [ContentStream.readMasterManifest_of_not_single ?_ h]
      rintro ⟨_, pl', stream, hpl', hstream⟩
      cases hpl.symm.trans hpl'
      exact hne stream hstream

omit [DoubleText D] in
theorem configure5gbcDeliveryFromSdp_playlistPath (cs : ContentStream D) (sdp : Str) :
    (cs.configure5gbcDeliveryFromSdp sdp).1.playlistPath = cs.playlistPath := by
  rw [ContentStream.configure5gbcDeliveryFromSdp_eq]
  dsimp only
  rw [ContentStream.foldl_set]

theorem configureReading_playlistPath {reads : Item → Bool} {sdpUri : Str}
    {cs cs' : ContentStream D} (hls : cs.deliveryProtocol = .hls)
    (h : configureReading items reads sdpUri cs = .ok cs') :
    cs'.playlistPath = (items.filter reads).foldl (pathFrom D) cs.playlistPath := by
  unfold configureReading at h
  induction items generalizing cs with
  | nil =>
    cases h
    rfl
  | cons item items ih =>
    rw [List.foldlM_cons] at h
    obtain ⟨cs₂, hround, h⟩ := Except.eq_ok_of_bind h
    obtain ⟨cs₁, hread, hround⟩ := Except.eq_ok_of_bind hround
    have hfirst : cs₁.deliveryProtocol = .hls ∧
        cs₁.playlistPath = if reads item then pathFrom D cs.playlistPath item
          else cs.playlistPath := by
      unfold readPicked at hread
      split at hread
      · rename_i hr
        rw [if_pos hr]
        exact ⟨(ContentStream.readMasterManifest_configures hread).deliveryProtocol.trans hls,
          readMasterManifest_playlistPath hls hread⟩
      · rename_i hr
        rw [if_neg hr]
        cases hread
        exact ⟨hls, rfl⟩
    have hsecond : cs₂.deliveryProtocol = .hls ∧ cs₂.playlistPath = cs₁.playlistPath := by
      split at hround
      · obtain ⟨_, _, hround⟩ := Except.eq_ok_of_bind hround
        cases hround
        exact ⟨(cs₁.configure5gbcDeliveryFromSdp_configures item.content).deliveryProtocol.trans
          hfirst.1, configure5gbcDeliveryFromSdp_playlistPath cs₁ item.content⟩
      · cases hround
        exact ⟨hfirst.1, rfl⟩
    rw [ih hsecond.1 h, hsecond.2, hfirst.2, List.filter_cons]
    split <;> rfl

/-- The playlist path announced for the session of that name. -/
def announcedPath (D : Type) [DoubleText D] (name : Str) : Str :=
  (items.filter (isManifestOf name)).foldl (pathFrom D) []

def HasSession (usd : XmlElement) (name : Str) : Prop :=
  ∃ method ∈ usd.childElements deliveryMethod,
    method.attributeValue sessionDescriptionUri = some (name ++ sdpSuffix)

/-- The streams of a session are configured with its manifest and no other, in
both formats that look for one. -/
structure OwnManifest (D : Type) [DoubleText D] (basePath name : Str) : Prop where
  reads : items.filter (readsManifest (name ++ sdpSuffix)) = items.filter (isManifestOf name)
  config : streamOf5GMagConfig (D := D) cfg items .hls (name ++ sdpSuffix) =
    stream5GMagReading cfg items (isManifestOf name) (name ++ sdpSuffix)
  legacy : streamOfLegacyFormat (D := D) cfg items .hls basePath (name ++ sdpSuffix) =
    streamLegacyReading cfg items basePath (isManifestOf name) (name ++ sdpSuffix)
  configPath : ∀ (pattern : XmlElement) (s : AnyStream D),
    streamOf5GMagConfig cfg items .hls (name ++ sdpSuffix) pattern = .ok (some s) →
      s.content.playlistPath = announcedPath items D name
  legacyPath : ∀ (pattern : XmlElement) (s : AnyStream D),
    streamOfLegacyFormat cfg items .hls basePath (name ++ sdpSuffix) pattern = .ok (some s) →
      s.content.playlistPath = announcedPath items D name

/-- Every session gets its own manifest, and no two of them get the same one. -/
structure OwnManifests (D : Type) [DoubleText D] (basePath : Str) (usd : XmlElement) : Prop where
  own : ∀ name, HasSession usd name → OwnManifest cfg items D basePath name
  apart : ∀ name name', HasSession usd name → HasSession usd name' → name ≠ name' →
    ∀ item ∈ items, ¬ (readsManifest (name ++ sdpSuffix) item ∧
      readsManifest (name' ++ sdpSuffix) item)

theorem configureReading_congr {reads reads' : Item → Bool}
    (h : ∀ item ∈ items, reads item = reads' item) (sdpUri : Str) :
    configureReading (D := D) items reads sdpUri = configureReading items reads' sdpUri := by
  funext cs
  unfold configureReading
  induction items generalizing cs with
  | nil => rfl
  | cons item items ih =>
    have hitem : readPicked (D := D) reads item = readPicked reads' item := by
      funext cs
      unfold readPicked
      rw [h item (by simp)]
    rw [List.foldlM_cons, List.foldlM_cons, hitem]
    congr 1
    funext cs'
    exact ih (fun i hi => h i (by simp [hi])) cs'

theorem ownManifest_of_reads (basePath : Str) {name : Str}
    (h : ∀ item ∈ items, readsManifest (name ++ sdpSuffix) item = isManifestOf name item) :
    OwnManifest cfg items D basePath name := by
  have hconfig : streamOf5GMagConfig (D := D) cfg items .hls (name ++ sdpSuffix) =
      stream5GMagReading cfg items (isManifestOf name) (name ++ sdpSuffix) := by
    rw [streamOf5GMagConfig_eq]
    unfold stream5GMagReading
    rw [configureReading_congr items h]
  have hlegacy : streamOfLegacyFormat (D := D) cfg items .hls basePath (name ++ sdpSuffix) =
      streamLegacyReading cfg items basePath (isManifestOf name) (name ++ sdpSuffix) := by
    rw [streamOfLegacyFormat_eq]
    unfold streamLegacyReading
    rw [configureReading_congr items h]
  refine ⟨List.filter_congr h, hconfig, hlegacy, ?_, ?_⟩
  · intro pattern s hs
    rw [hconfig] at hs
    obtain ⟨url, _, hs⟩ := Except.eq_ok_of_bind hs
    obtain ⟨cs, hcs, hs⟩ := Except.eq_ok_of_bind hs
    cases hs
    have hpath : (makeStream cfg cs).content.playlistPath = cs.playlistPath := by
      unfold makeStream
      split <;> rfl
    rw [hpath, configureReading_playlistPath items rfl hcs]
    rfl
  · intro pattern s hs
    rw [hlegacy] at hs
    obtain ⟨url, _, hs⟩ := Except.eq_ok_of_bind hs
    split at hs
    · obtain ⟨cs, hcs, hs⟩ := Except.eq_ok_of_bind hs
      cases hs
      exact configureReading_playlistPath items rfl hcs
    · cases hs

/-- With these items, a name that matches the expression before its ending does no
harm when neither what is looked for nor what should be is there. -/
theorem ownManifests_iff_absent (basePath : Str) (usd : XmlElement) :
    OwnManifests cfg items D basePath usd ↔
      ∀ name, HasSession usd name → EarlierSdp name → ∀ item ∈ items,
        item.uri ≠ name ++ m3u8Suffix ∧ item.uri ≠ replaceSdp m3u8Suffix (name ++ sdpSuffix) := by
  constructor
  · intro h name hname hearlier item hitem
    have hne : replaceSdp m3u8Suffix (name ++ sdpSuffix) ≠ name ++ m3u8Suffix :=
      fun heq => (replaceSdp_eq_iff name).mp heq hearlier
    have hreads := (h.own name hname).reads
    constructor
    · intro huri
      have hmem : item ∈ items.filter (readsManifest (name ++ sdpSuffix)) := by
        rw [hreads]
        exact List.mem_filter.mpr ⟨hitem, by simpa [isManifestOf] using huri⟩
      have hread : item.uri = replaceSdp m3u8Suffix (name ++ sdpSuffix) := by
        simpa [readsManifest] using (List.mem_filter.mp hmem).2
      exact hne (hread.symm.trans huri)
    · intro huri
      have hmem : item ∈ items.filter (isManifestOf name) := by
        rw [← hreads]
        exact List.mem_filter.mpr ⟨hitem, by simpa [readsManifest] using huri⟩
      have hown : item.uri = name ++ m3u8Suffix := by
        simpa [isManifestOf] using (List.mem_filter.mp hmem).2
      exact hne (huri.symm.trans hown)
  · intro h
    have hreads : ∀ name, HasSession usd name → ∀ item ∈ items,
        readsManifest (name ++ sdpSuffix) item = isManifestOf name item := by
      intro name hname item hitem
      unfold readsManifest isManifestOf
      by_cases hearlier : EarlierSdp name
      · obtain ⟨hown, hread⟩ := h name hname hearlier item hitem
        rw [decide_eq_false hown, decide_eq_false hread]
      · rw [(replaceSdp_eq_iff name).mpr hearlier]
    refine ⟨fun name hname => ownManifest_of_reads cfg items basePath (hreads name hname), ?_⟩
    rintro name name' hname hname' hne item hitem ⟨hread, hread'⟩
    rw [hreads name hname item hitem] at hread
    rw [hreads name' hname' item hitem] at hread'
    have huri : item.uri = name ++ m3u8Suffix := by simpa [isManifestOf] using hread
    have huri' : item.uri = name' ++ m3u8Suffix := by simpa [isManifestOf] using hread'
    exact hne (List.append_cancel_right (huri.symm.trans huri'))

/-- Whatever the announcement holds, every session gets its own manifest exactly
when no name of a session matches the expression before its ending. -/
theorem ownManifests_iff (basePath : Str) (usd : XmlElement) :
    (∀ items, OwnManifests cfg items D basePath usd) ↔
      ∀ name, HasSession usd name → ¬ EarlierSdp name := by
  constructor
  · intro h name hname hearlier
    have hitem := (ownManifests_iff_absent cfg [⟨[], name ++ m3u8Suffix, .unset, .unset, 0, []⟩] basePath usd).mp
      (h _) name hname hearlier _ (List.mem_singleton.mpr rfl)
    exact hitem.1 rfl
  · intro h items
    refine (ownManifests_iff_absent cfg items basePath usd).mpr fun name hname hearlier => ?_
    exact absurd hearlier (h name hname)

end Lookup

section Example

/-- A session in a directory whose name is that of the ending. -/
def sessionInSdpDirectory : XmlElement :=
  .mk userServiceDescription [] none
    [.mk deliveryMethod [(sessionDescriptionUri, "http://mbms/sdp/video.sdp".toList)] none
      [.mk broadcastAppService [] none [.mk basePattern [] (some "http://mbms/video".toList) []]]]

theorem manifest_missed_in_sdp_directory : ¬ ∀ (usd : XmlElement) (items : List Item),
    OwnManifests {} items Int [] usd := by
  intro h
  have hreads := ((h sessionInSdpDirectory
    [⟨"application/x-mpegURL".toList, "http://mbms/sdp/video.m3u8".toList, .unset, .unset, 0, []⟩]).own
      "http://mbms/sdp/video".toList ⟨_, List.mem_singleton.mpr rfl, rfl⟩).reads
  revert hreads
  decide

end Example

end ServiceAnnouncement

end MbmsMiddleware
