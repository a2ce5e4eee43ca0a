import MbmsMiddleware.ServiceAnnouncement

/-! What is wrong with an announcement: for each loop of the set-up, the faults
of the elements it walks through, in the order in which it meets them. Only the
first of them takes effect. -/

namespace MbmsMiddleware

open ServiceAnnouncementXmlElements

def faultOf {α : Type} : Except Fault α → List Fault
  | .ok _ => []
  | .error e => [e]

@[simp] theorem faultOf_ok {α : Type} (a : α) : faultOf (.ok a) = [] := rfl

@[simp] theorem faultOf_error {α : Type} (e : Fault) : faultOf (.error e : Except Fault α) = [e] :=
  rfl

theorem mem_faultOf {α : Type} {x : Except Fault α} {e : Fault} :
    e ∈ faultOf x ↔ x = .error e := by
  cases x with
  | ok a => simp
  | error e' => simpa using eq_comm

namespace XmlElement

def broadcastPatterns (deliveryMethod : XmlElement) : List XmlElement :=
  (deliveryMethod.firstChildElement broadcastAppService).elim [] (·.childElements basePattern)

def unicastPatterns (deliveryMethod : XmlElement) : List XmlElement :=
  (deliveryMethod.firstChildElement unicastAppService).elim [] (·.childElements basePattern)

def missingText (e : XmlElement) : List Fault := faultOf (stdString e.getText)

theorem mem_missingText {e : XmlElement} {f : Fault} :
    f ∈ e.missingText ↔ e.getText = none ∧ f = .logicError := by
  rw [missingText, mem_faultOf]
  cases e.getText with
  | none => simpa [stdString] using eq_comm
  | some t => simp [stdString]

end XmlElement

namespace ServiceAnnouncement

variable {D : Type} [DoubleText D] (cfg : Config) (items : List Item) (protocol : DeliveryProtocol)

/-- `set_cdn_endpoint` needs a URI, and an endpoint that a client accepts. -/
def endpointFaults (rest : CppRest) (url : Str) : List Fault :=
  match rest.uri url with
  | none => [.uriException]
  | some uri => if rest.httpClient uri.endpoint then [] else [.invalidArgument]

theorem endpointFaults_exception {rest : CppRest} {url : Str} {e : Fault}
    (h : e ∈ endpointFaults rest url) : e.isException = true := by
  unfold endpointFaults at h
  split at h
  · rw [List.mem_singleton.mp h]
    rfl
  · split at h
    · cases h
    · rw [List.mem_singleton.mp h]
      rfl

section BroadcastStreams

def patternFaults (streamOf : XmlElement → Except Fault (Option (AnyStream D)))
    (patterns : List XmlElement) : List Fault :=
  patterns.flatMap fun p => faultOf (streamOf p)

def patternStreams (streamOf : XmlElement → Except Fault (Option (AnyStream D)))
    (patterns : List XmlElement) : List (AnyStream D) :=
  patterns.filterMap fun p => (streamOf p).toOption.join

variable (streamOf : Str → XmlElement → Except Fault (Option (AnyStream D)))

def broadcastFaults (deliveryMethod : XmlElement) : List Fault :=
  match deliveryMethod.attributeValue sessionDescriptionUri with
  | none => [.nullDereference]
  | some sdpUri => patternFaults (streamOf sdpUri) deliveryMethod.broadcastPatterns

/-- The broadcast streams made for a delivery method. -/
def broadcastStreams (deliveryMethod : XmlElement) : List (AnyStream D) :=
  match deliveryMethod.attributeValue sessionDescriptionUri with
  | none => []
  | some sdpUri => patternStreams (streamOf sdpUri) deliveryMethod.broadcastPatterns

end BroadcastStreams

theorem readManifestItem_exception {readManifest : Bool} {manifestUrl : Str} {item : Item}
    {cs : ContentStream D} {e : Fault}
    (h : readManifestItem readManifest manifestUrl item cs = .error e) : e.isException = true := by
  unfold readManifestItem at h
  split at h
  · exact ContentStream.readMasterManifest_fault h
  · cases h

theorem configureFromItems_exception {readManifest : Bool} {manifestUrl sdpUri : Str}
    {cs : ContentStream D} {e : Fault}
    (h : configureFromItems items readManifest manifestUrl sdpUri cs = .error e) :
    e.isException = true := by
  obtain ⟨cs, item, _, h⟩ := Except.eq_error_of_foldlM h
  rcases Except.eq_error_of_bind h with h | ⟨t, _, h⟩
  · exact readManifestItem_exception h
  · split at h
    · rcases Except.eq_error_of_bind h with h | ⟨_, _, h⟩
      · exact ContentStream.configure5gbcDeliveryFromSdp_exception h
      · cases h
    · cases h

theorem stdString_exception {s : Option Str} {e : Fault} (h : stdString s = .error e) :
    e.isException = true := by
  cases s with
  | none =>
    cases h
    rfl
  | some s => cases h

theorem streamOf5GMagConfig_exception {sdpUri : Str} {pattern : XmlElement} {e : Fault}
    (h : streamOf5GMagConfig (D := D) cfg items protocol sdpUri pattern = .error e) :
    e.isException = true := by
  rcases Except.eq_error_of_bind h with h | ⟨url, _, h⟩
  · exact stdString_exception h
  · rcases Except.eq_error_of_bind h with h | ⟨cs, _, h⟩
    · exact configureFromItems_exception items h
    · cases h

theorem streamOfLegacyFormat_exception {basePath sdpUri : Str} {pattern : XmlElement} {e : Fault}
    (h : streamOfLegacyFormat (D := D) cfg items protocol basePath sdpUri pattern = .error e) :
    e.isException = true := by
  rcases Except.eq_error_of_bind h with h | ⟨url, _, h⟩
  · exact stdString_exception h
  · split at h
    · rcases Except.eq_error_of_bind h with h | ⟨cs, _, h⟩
      · exact configureFromItems_exception items h
      · cases h
    · cases h

omit [DoubleText D] in
theorem terminate_notMem_broadcastFaults
    {streamOf : Str → XmlElement → Except Fault (Option (AnyStream D))}
    (h : ∀ sdpUri p e, streamOf sdpUri p = .error e → e.isException = true)
    (deliveryMethod : XmlElement) : .terminate ∉ broadcastFaults streamOf deliveryMethod := by
  unfold broadcastFaults
  split
  · simp
  · intro hm
    obtain ⟨p, _, hp⟩ := List.mem_flatMap.mp hm
    exact absurd (h _ p _ (mem_faultOf.mp hp)) (by simp [Fault.isException])

/-- The faults for one base pattern of a `unicastAppService` element. -/
def unicastPatternFaults (rest : CppRest) (appService : Option XmlElement) (pattern : XmlElement) :
    List Fault :=
  match pattern.getText, appService with
  | none, _ => [.logicError]
  | some _, none => [.nullDereference]
  | some unicastUrl, some appService =>
    (appService.childElements identicalContent).flatMap fun identical =>
      (identical.childElements basePattern).flatMap XmlElement.missingText ++
        endpointFaults rest unicastUrl

def unicastFaults (rest : CppRest) (appService : Option XmlElement) (deliveryMethod : XmlElement) :
    List Fault :=
  if cfg.seamless then
    deliveryMethod.unicastPatterns.flatMap (unicastPatternFaults rest appService)
  else []

theorem terminate_notMem_missingText (patterns : List XmlElement) :
    .terminate ∉ patterns.flatMap XmlElement.missingText := by
  intro hm
  obtain ⟨p, _, hp⟩ := List.mem_flatMap.mp hm
  exact absurd (XmlElement.mem_missingText.mp hp).2 (by simp)

theorem terminate_notMem_endpointFaults (rest : CppRest) (url : Str) :
    .terminate ∉ endpointFaults rest url := fun hm =>
  absurd (endpointFaults_exception hm) (by simp [Fault.isException])

theorem terminate_notMem_unicastFaults (rest : CppRest) (appService : Option XmlElement)
    (deliveryMethod : XmlElement) :
    .terminate ∉ unicastFaults cfg rest appService deliveryMethod := by
  intro hm
  unfold unicastFaults at hm
  split at hm
  · obtain ⟨p, _, hp⟩ := List.mem_flatMap.mp hm
    unfold unicastPatternFaults at hp
    split at hp
    · simp at hp
    · simp at hp
    · obtain ⟨identical, _, hi⟩ := List.mem_flatMap.mp hp
      rcases List.mem_append.mp hi with hi | hi
      · exact terminate_notMem_missingText _ hi
      · exact terminate_notMem_endpointFaults rest _ hi
  · cases hm

def faultsBy5GMagConfig (D : Type) [DoubleText D] (rest : CppRest) (appService : Option XmlElement) (deliveryMethod : XmlElement) :
    List Fault :=
  broadcastFaults (streamOf5GMagConfig cfg items protocol (D := D)) deliveryMethod ++
    unicastFaults cfg rest appService deliveryMethod

/-- Whether the unicast part of a delivery method leads to streams of its own
where there is no broadcast stream it could belong to. -/
def HasUnicast (appService : Option XmlElement) (deliveryMethod : XmlElement) : Prop :=
  cfg.seamless = true ∧ deliveryMethod.unicastPatterns ≠ [] ∧
    ∃ a ∈ appService, a.childElements identicalContent ≠ []

/-- A delivery method leads to streams, in a set-up that has none yet. -/
def MakesBy5GMagConfig (D : Type) [DoubleText D] (appService : Option XmlElement)
    (deliveryMethod : XmlElement) : Prop :=
  broadcastStreams (streamOf5GMagConfig cfg items protocol (D := D)) deliveryMethod ≠ [] ∨
    HasUnicast cfg appService deliveryMethod

def faultsByLegacyFormat (D : Type) [DoubleText D] (basePath : Str) (deliveryMethod : XmlElement) :
    List Fault :=
  broadcastFaults (streamOfLegacyFormat cfg items protocol basePath (D := D)) deliveryMethod

def MakesByLegacyFormat (D : Type) [DoubleText D] (basePath : Str) (deliveryMethod : XmlElement) :
    Prop :=
  broadcastStreams (streamOfLegacyFormat cfg items protocol basePath (D := D)) deliveryMethod ≠ []

section AlternativeContent

def manifestFaults (D : Type) [DoubleText D] (content basePath : Str) : List Fault :=
  if protocol = .hls then
    faultOf (HlsPrimaryPlaylist.parse content basePath : Except Fault (HlsPrimaryPlaylist D))
  else []

/-- The faults of a session description; they do not depend on the stream that
it configures. -/
def sdpFaults (D : Type) (content : Str) : List Fault :=
  faultOf (({ deliveryProtocol := .hls, base := [] : ContentStream D }.configure5gbcDeliveryFromSdp
    content).2)

def sdpItemFaults (D : Type) (sdpUri : Option Str) (item : Item) : List Fault :=
  if item.contentType = ContentTypeConstants.sdp then
    match sdpUri with
    | none => [.nullDereference]
    | some sdpUri => if item.uri = sdpUri then sdpFaults D item.content else []
  else []

/-- The faults for one delivery method, which must have a broadcast part. -/
def deliveryMethodFaults (D : Type) [DoubleText D] (base : Str) (deliveryMethod : XmlElement) :
    List Fault :=
  match (deliveryMethod.firstChildElement broadcastAppService).bind
      (·.firstChildElement basePattern) with
  | none => [.nullDereference]
  | some pattern =>
    match pattern.getText with
    | none => [.logicError]
    | some broadcastBasePattern =>
      if broadcastBasePattern = base then
        items.flatMap fun item =>
          (if item.uri = base then manifestFaults protocol D item.content [] else []) ++
            sdpItemFaults D (deliveryMethod.attributeValue sessionDescriptionUri) item
      else []

/-- Whether the last session description for the base is complete. -/
def broadcastAvailable (D : Type) [DoubleText D] (usd : XmlElement) (base : Str) : Bool :=
  match (usd.childElements deliveryMethod).foldlM (readDeliveryMethod items base)
      ((newContentStream cfg protocol base : ContentStream D), false) with
  | .ok (_, available) => available
  | .error _ => false

def identicalContentFaults (rest : CppRest) (base : Str) (identical : XmlElement) : List Fault :=
  (identical.childElements basePattern).flatMap XmlElement.missingText ++
    match identicalContentBase base identical with
    | .ok (true, found) => if found.length ≠ 0 then endpointFaults rest found else []
    | _ => []

/-- The faults for one base pattern of the `alternativeContent` element. -/
def basePatternFaults (D : Type) [DoubleText D] (rest : CppRest) (appService usd pattern : XmlElement) :
    List Fault :=
  match pattern.getText with
  | none => [.logicError]
  | some base =>
    (usd.childElements deliveryMethod).flatMap (deliveryMethodFaults items protocol D base) ++
    if cfg.seamless then
      if broadcastAvailable cfg items protocol D usd base then
        (appService.childElements identicalContent).flatMap (identicalContentFaults rest base)
      else endpointFaults rest base
    else []

def alternativeContentFaults (D : Type) [DoubleText D] (rest : CppRest)
    (appService : Option XmlElement) (usd : XmlElement) : List Fault :=
  match appService with
  | none => [.nullDereference]
  | some appService =>
    ((appService.firstChildElement alternativeContent).elim [] (·.childElements basePattern)).flatMap
      (basePatternFaults cfg items protocol D rest appService usd)

theorem faultOf_readMasterManifest (cs : ContentStream D) (content : Str) :
    faultOf (cs.readMasterManifest content) = manifestFaults cs.deliveryProtocol D content [] := by
  unfold ContentStream.readMasterManifest manifestFaults
  split
  · cases (HlsPrimaryPlaylist.parse content [] : Except Fault (HlsPrimaryPlaylist D)) with
    | error e => rfl
    | ok pl =>
      simp only [bind, Except.bind]
      split <;> rfl
  · rfl

omit [DoubleText D] in
theorem faultOf_configure5gbcDeliveryFromSdp (cs : ContentStream D) (content : Str) :
    faultOf (cs.configure5gbcDeliveryFromSdp content).2 = sdpFaults D content := by
  have hlines : ∀ t : ContentStream D, faultOf (t.configure5gbcDeliveryFromSdp content).2 =
      (ContentStream.configureLines t (Text.getlines content)).2.toList := by
    intro t
    unfold ContentStream.configure5gbcDeliveryFromSdp
    split <;>
      next h =>
        rw [h]
        rfl
  rw [sdpFaults, hlines, hlines, ContentStream.configureLines_fault]

theorem terminate_notMem_manifestFaults (content basePath : Str) :
    .terminate ∉ manifestFaults protocol D content basePath := by
  intro hm
  unfold manifestFaults at hm
  split at hm
  · exact absurd (HlsPrimaryPlaylist.parse_fault (mem_faultOf.mp hm)) (by simp [Fault.isException])
  · cases hm

omit [DoubleText D] in
theorem terminate_notMem_sdpItemFaults (sdpUri : Option Str) (item : Item) :
    .terminate ∉ sdpItemFaults D sdpUri item := by
  intro hm
  unfold sdpItemFaults sdpFaults at hm
  split at hm
  · split at hm
    · simp at hm
    · split at hm
      · exact absurd (ContentStream.configure5gbcDeliveryFromSdp_exception (mem_faultOf.mp hm))
          (by simp [Fault.isException])
      · cases hm
  · cases hm

theorem terminate_notMem_deliveryMethodFaults (base : Str) (deliveryMethod : XmlElement) :
    .terminate ∉ deliveryMethodFaults items protocol D base deliveryMethod := by
  intro hm
  unfold deliveryMethodFaults at hm
  split at hm
  · simp at hm
  · split at hm
    · simp at hm
    · split at hm
      · obtain ⟨item, _, hi⟩ := List.mem_flatMap.mp hm
        rcases List.mem_append.mp hi with hi | hi
        · split at hi
          · exact terminate_notMem_manifestFaults protocol _ _ hi
          · cases hi
        · exact terminate_notMem_sdpItemFaults _ item hi
      · cases hm

theorem terminate_notMem_basePatternFaults (rest : CppRest) (appService usd pattern : XmlElement) :
    .terminate ∉ basePatternFaults cfg items protocol D rest appService usd pattern := by
  intro hm
  unfold basePatternFaults at hm
  split at hm
  · simp at hm
  · rcases List.mem_append.mp hm with hm | hm
    · obtain ⟨d, _, hd⟩ := List.mem_flatMap.mp hm
      exact terminate_notMem_deliveryMethodFaults items protocol _ d hd
    · split at hm
      · split at hm
        · obtain ⟨identical, _, hi⟩ := List.mem_flatMap.mp hm
          rcases List.mem_append.mp hi with hi | hi
          · exact terminate_notMem_missingText _ hi
          · split at hi
            · split at hi
              · exact terminate_notMem_endpointFaults rest _ hi
              · cases hi
            · cases hi
        · exact terminate_notMem_endpointFaults rest _ hm
      · cases hm

theorem terminate_notMem_alternativeContentFaults (rest : CppRest) (appService : Option XmlElement)
    (usd : XmlElement) :
    .terminate ∉ alternativeContentFaults cfg items protocol D rest appService usd := by
  intro hm
  unfold alternativeContentFaults at hm
  split at hm
  · simp at hm
  · obtain ⟨p, _, hp⟩ := List.mem_flatMap.mp hm
    exact terminate_notMem_basePatternFaults cfg items protocol rest _ usd p hp

end AlternativeContent

end ServiceAnnouncement

end MbmsMiddleware
