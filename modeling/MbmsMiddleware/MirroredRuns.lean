import MbmsMiddleware.Coupling
import MbmsMiddleware.OwnService
import MbmsMiddleware.UnicastPairing

/-! One user service description handled twice, in two middlewares that agree on
its service. The runs agree up to the addresses they use, and in the legacy
format up to the base path that is left over from before. -/

namespace MbmsMiddleware

open ServiceAnnouncementXmlElements

variable {D : Type}

/-- The address in the second run: the streams from `n` on are new ones there. -/
def shift (n m a : Nat) : Nat := if a < n then a else a - n + m

theorem shift_of_lt {n m a : Nat} (h : a < n) : shift n m a = a := if_pos h

theorem shift_of_le {n m a : Nat} (h : n ≤ a) : shift n m a = a - n + m := if_neg (by omega)

theorem shift_succ {n m a : Nat} (h : n ≤ a) : shift n m (a + 1) = shift n m a + 1 := by
  rw [shift_of_le h, shift_of_le (by omega)]
  omega

theorem shift_inj {n m a b : Nat} (hnm : n ≤ m) (h : shift n m a = shift n m b) : a = b := by
  unfold shift at h
  split at h <;> split at h <;> omega

namespace ContentStream

def rebase (basePath : Option Str) (s : ContentStream D) : ContentStream D :=
  basePath.elim s s.withBasePath

theorem rebase_of_eq {basePath : Option Str} {s : ContentStream D}
    (h : ∀ b ∈ basePath, s.basePath = b) : s.rebase basePath = s := by
  cases basePath with
  | none => rfl
  | some b =>
    obtain rfl := h b rfl
    rfl

theorem start_rebase (basePath : Option Str) (s : ContentStream D) :
    (s.rebase basePath).start = s.start.map (rebase basePath) := by
  cases basePath with
  | none =>
    cases h : s.start <;> simp [rebase, h, Except.map]
  | some b =>
    have htype : (s.rebase (some b)).streamType = s.streamType := rfl
    have hthread : (s.rebase (some b)).fluteThread = s.fluteThread := rfl
    unfold start
    rw [htype, hthread]
    split
    · cases s.fluteThread <;> rfl
    · rfl

end ContentStream

namespace AnyStream

def rebase (basePath : Option Str) (s : AnyStream D) : AnyStream D :=
  s.setContent (s.content.rebase basePath)

@[simp] theorem rebase_none (s : AnyStream D) : s.rebase none = s := by
  cases s <;> rfl

@[simp] theorem content_rebase (basePath : Option Str) (s : AnyStream D) :
    (s.rebase basePath).content = s.content.rebase basePath := content_setContent ..

theorem rebase_setContent (basePath : Option Str) (s : AnyStream D) (c : ContentStream D) :
    (s.setContent c).rebase basePath = (s.rebase basePath).setContent (c.rebase basePath) := by
  cases s <;> rfl

theorem isSome_asSeamless?_rebase (basePath : Option Str) (s : AnyStream D) :
    (s.rebase basePath).asSeamless?.isSome = s.asSeamless?.isSome :=
  isSome_asSeamless?_setContent ..

end AnyStream

namespace Service

/-- The streams at other addresses. -/
def relocate (f : Nat → Nat) (sv : Service D) : Service D :=
  { sv with contentStreams := sv.contentStreams.map f }

theorem matchStream_rebase (f : Nat → Nat) (basePath : Option Str) (sv : Service D)
    (s : ContentStream D) :
    (sv.relocate f).matchStream (s.rebase basePath) = (sv.matchStream s).rebase basePath := by
  cases basePath with
  | none => rfl
  | some b =>
    change (if sv.deliveryProtocol = .hls then _ else _) =
      ContentStream.withBasePath b (if sv.deliveryProtocol = .hls then _ else _)
    split
    · refine List.foldl_hom (ContentStream.withBasePath b) (fun t stream => ?_)
      change (if stream.uri = t.playlistPath then _ else _) =
        ContentStream.withBasePath b (if stream.uri = t.playlistPath then _ else _)
      split <;> rfl
    · rfl

variable [DoubleText D]

theorem recreateManifest_relocate {f : Nat → Nat} (indeterminate : Indeterminate D)
    {stream stream' : Nat → AnyStream D} (sv : Service D)
    (h : ∀ e ∈ sv.contentStreams.entries,
      variant indeterminate (stream' (f e.2)).content = variant indeterminate (stream e.2).content) :
    recreateManifest indeterminate stream' (sv.relocate f) =
      (recreateManifest indeterminate stream sv).relocate f := by
  unfold recreateManifest
  have hprotocol : (sv.relocate f).deliveryProtocol = sv.deliveryProtocol := rfl
  rw [hprotocol]
  cases sv.deliveryProtocol with
  | dash => rfl
  | rtp => rfl
  | hls =>
    have hvariants : (sv.relocate f).contentStreams.entries.map (fun e =>
          variant indeterminate (stream' e.2).content) =
        sv.contentStreams.entries.map fun e => variant indeterminate (stream e.2).content := by
      change (List.map _ (List.map _ sv.contentStreams.entries)) = _
      rw [List.map_map]
      exact List.map_congr_left h
    dsimp only
    rw [hvariants]
    rfl

theorem readMasterManifest_relocate (f : Nat → Nat) (self self' : Nat) (manifest basePath : Str)
    (sv : Service D) (cache cache' : Cache) :
    ((sv.relocate f).readMasterManifest self' manifest basePath cache').map Prod.fst =
      (sv.readMasterManifest self manifest basePath cache).map fun r => r.1.relocate f := by
  unfold readMasterManifest
  have hprotocol : (sv.relocate f).deliveryProtocol = sv.deliveryProtocol := rfl
  rw [hprotocol]
  cases sv.deliveryProtocol with
  | dash => rfl
  | rtp => rfl
  | hls =>
    cases (HlsPrimaryPlaylist.parse manifest basePath : Except Fault (HlsPrimaryPlaylist D)) <;> rfl

end Service

theorem setCdnEndpoint_rebase (rest : CppRest) (self self' : Nat) (url : Str)
    (s : SeamlessContentStream D) (basePath : Option Str) (cache cache' : Cache) :
    AnyStream.seamless (SeamlessContentStream.setCdnEndpoint rest self' url
        { s with toContentStream := s.toContentStream.rebase basePath } cache').1 =
      (AnyStream.seamless (s.setCdnEndpoint rest self url cache).1).rebase basePath ∧
    (SeamlessContentStream.setCdnEndpoint rest self' url
        { s with toContentStream := s.toContentStream.rebase basePath } cache').2.2 =
      (s.setCdnEndpoint rest self url cache).2.2 := by
  unfold SeamlessContentStream.setCdnEndpoint
  cases rest.uri url with
  | none => exact ⟨rfl, rfl⟩
  | some uri =>
    dsimp only
    cases rest.httpClient uri.endpoint <;> cases basePath <;> exact ⟨rfl, rfl⟩

namespace World

/-- The second middleware has what the first has for the service, at its own
addresses. -/
structure Mirrors (n m s₁ s₂ : Nat) (basePath : Option Str) (w w' : World D) : Prop where
  service : w'.service s₂ = (w.service s₁).relocate (shift n m)
  next : w'.nextStream = shift n m w.nextStream
  le : n ≤ w.nextStream
  made : ∀ e ∈ (w.service s₁).contentStreams.entries, e.2 < w.nextStream
  old : ∀ a < n, w'.stream a = w.stream a
  new : ∀ a, n ≤ a → a < w.nextStream → w'.stream (shift n m a) = (w.stream a).rebase basePath

namespace Mirrors

variable {n m s₁ s₂ : Nat} {basePath : Option Str} {w w' : World D}

theorem setService (h : Mirrors n m s₁ s₂ basePath w w') (sv : Service D)
    (hsv : ∀ e ∈ sv.contentStreams.entries, e.2 < w.nextStream) :
    Mirrors n m s₁ s₂ basePath (w.setService s₁ sv)
      (w'.setService s₂ (sv.relocate (shift n m))) where
  service := by rw [setService_service_self, setService_service_self]
  next := h.next
  le := h.le
  made := by
    rw [setService_service_self]
    exact hsv
  old := h.old
  new := h.new

theorem setStream (h : Mirrors n m s₁ s₂ basePath w w') (hnm : n ≤ m) {a : Nat} (ha : n ≤ a)
    (s : AnyStream D) :
    Mirrors n m s₁ s₂ basePath (w.setStream a s)
      (w'.setStream (shift n m a) (s.rebase basePath)) where
  service := h.service
  next := h.next
  le := h.le
  made := h.made
  old b hb := by
    have hne : b ≠ shift n m a := by
      rw [shift_of_le ha]
      omega
    rw [setStream_stream_of_ne w s (by omega), setStream_stream_of_ne w' _ hne, h.old b hb]
  new b hb hb' := by
    by_cases hba : b = a
    · subst hba
      rw [setStream_stream_self, setStream_stream_self]
    · have hne : shift n m b ≠ shift n m a := fun he => hba (shift_inj hnm he)
      rw [setStream_stream_of_ne w s hba, setStream_stream_of_ne w' _ hne]
      exact h.new b hb hb'

/-- The parts of a middleware that the mirroring does not speak of. -/
theorem frame (h : Mirrors n m s₁ s₂ basePath w w') {v v' : World D}
    (hservice : v.service = w.service) (hservice' : v'.service = w'.service)
    (hstream : v.stream = w.stream) (hstream' : v'.stream = w'.stream)
    (hnext : v.nextStream = w.nextStream) (hnext' : v'.nextStream = w'.nextStream) :
    Mirrors n m s₁ s₂ basePath v v' := by
  constructor
  · rw [hservice, hservice']
    exact h.service
  · rw [hnext, hnext']
    exact h.next
  · rw [hnext]
    exact h.le
  · rw [hservice, hnext]
    exact h.made
  · rw [hstream, hstream']
    exact h.old
  · rw [hstream, hstream', hnext]
    exact h.new

theorem variant_eq (h : Mirrors n m s₁ s₂ basePath w w') (indeterminate : Indeterminate D) {a : Nat}
    (ha : a < w.nextStream) :
    Service.variant indeterminate (w'.stream (shift n m a)).content =
      Service.variant indeterminate (w.stream a).content := by
  by_cases hn : a < n
  · rw [shift_of_lt hn, h.old a hn]
  · rw [h.new a (by omega) ha, AnyStream.content_rebase]
    cases basePath <;> rfl

end Mirrors

section Calls

variable [DoubleText D] (env : Environment D) {n m s₁ s₂ : Nat} {base basePath : Option Str}
  {w w' : World D}

/-- Two parts of the handling, one in each middleware. -/
abbrev Mirrored {α β : Type} (n s₁ : Nat) (base : Option Str)
    (Q : α → World D → β → World D → Prop) (p : Handler D α) (w : World D) (q : Handler D β)
    (w' : World D) : Prop :=
  Program.Couples (perform env) (OwnStep s₁ n base) Q p w q w'

variable {env}

theorem addName_mirrored (h : Mirrors n m s₁ s₂ basePath w w') (name lang : Str) :
    Mirrored env n s₁ base (fun _ v _ v' => Mirrors n m s₁ s₂ basePath v v' ∧
        v.basePath = w.basePath ∧ v'.basePath = w'.basePath)
      (ServiceAnnouncement.addName s₁ name lang) w (ServiceAnnouncement.addName s₂ name lang) w' := by
  refine Program.couples_perform rfl ⟨?_, rfl, rfl⟩
  have hset := h.setService ((w.service s₁).addName name lang) h.made
  change Mirrors n m s₁ s₂ basePath _ (w'.setService s₂ ((w'.service s₂).addName name lang))
  rw [h.service]
  exact hset

theorem setDeliveryProtocol_mirrored (h : Mirrors n m s₁ s₂ basePath w w') (mime : Str) :
    Mirrored env n s₁ base (fun _ v _ v' => Mirrors n m s₁ s₂ basePath v v' ∧
        v.basePath = w.basePath ∧ v'.basePath = w'.basePath)
      (ServiceAnnouncement.setDeliveryProtocol s₁ mime) w
      (ServiceAnnouncement.setDeliveryProtocol s₂ mime) w' := by
  refine Program.couples_perform rfl ⟨?_, rfl, rfl⟩
  have hset := h.setService ((w.service s₁).setDeliveryProtocolFromMimeType mime) h.made
  change Mirrors n m s₁ s₂ basePath _
    (w'.setService s₂ ((w'.service s₂).setDeliveryProtocolFromMimeType mime))
  rw [h.service]
  exact hset

theorem readMasterManifest_mirrored (h : Mirrors n m s₁ s₂ basePath w w') (manifest bp : Str) :
    Mirrored env n s₁ base (fun _ v _ v' => Mirrors n m s₁ s₂ basePath v v' ∧
        v.basePath = w.basePath ∧ v'.basePath = w'.basePath)
      (ServiceAnnouncement.readMasterManifest s₁ manifest bp) w
      (ServiceAnnouncement.readMasterManifest s₂ manifest bp) w' := by
  refine Program.couples_perform rfl ?_
  have hread := readMasterManifest_ensures s₁ manifest bp (w.service s₁) w.memory.cache
  have hsame := Service.readMasterManifest_relocate (shift n m) s₁ s₂ manifest bp (w.service s₁)
    w.memory.cache w'.memory.cache
  rw [← h.service] at hsame
  simp only [perform, callReadMasterManifest]
  cases hr : (w.service s₁).readMasterManifest s₁ manifest bp w.memory.cache with
  | error e =>
    rw [hr] at hsame
    cases hr' : (w'.service s₂).readMasterManifest s₂ manifest bp w'.memory.cache with
    | error e' =>
      rw [hr'] at hsame
      exact (Except.error.inj hsame).symm
    | ok r' =>
      rw [hr'] at hsame
      cases hsame
  | ok r =>
    rw [hr] at hsame hread
    cases hr' : (w'.service s₂).readMasterManifest s₂ manifest bp w'.memory.cache with
    | error e' =>
      rw [hr'] at hsame
      cases hsame
    | ok r' =>
      rw [hr'] at hsame
      have hservice : r'.1 = r.1.relocate (shift n m) := Except.ok.inj hsame
      have hset := h.setService r.1 (by rw [hread.2.2.1]; exact h.made)
      rw [← hservice] at hset
      exact ⟨hset.frame rfl rfl rfl rfl rfl rfl, rfl, rfl⟩

theorem newStream_mirrored (h : Mirrors n m s₁ s₂ basePath w w') (hnm : n ≤ m) (s : AnyStream D)
    (hs : ∀ b ∈ base, s.content.basePath = b) :
    Mirrored env n s₁ base (fun a v a' v' => Mirrors n m s₁ s₂ basePath v v' ∧
        a' = shift n m a ∧ a = w.nextStream ∧ v.nextStream = w.nextStream + 1)
      (ServiceAnnouncement.newStream s) w
      (ServiceAnnouncement.newStream (s.rebase basePath)) w' := by
  refine Program.couples_perform hs ⟨?_, h.next, rfl, rfl⟩
  have hset := h.setStream hnm h.le s
  rw [← h.next] at hset
  constructor
  · exact hset.service
  · change w'.nextStream + 1 = shift n m (w.nextStream + 1)
    rw [shift_succ h.le, h.next]
  · exact h.le.trans (Nat.le_succ _)
  · exact fun e he => (h.made e he).trans (Nat.lt_succ_self _)
  · exact hset.old
  · intro a ha ha'
    rcases Nat.lt_succ_iff_lt_or_eq.mp ha' with ha' | rfl
    · exact hset.new a ha ha'
    · change (w'.setStream w'.nextStream (s.rebase basePath)).stream _ =
        ((w.setStream w.nextStream s).stream w.nextStream).rebase basePath
      rw [← h.next, setStream_stream_self, setStream_stream_self]

theorem setCdnEndpoint_mirrored (h : Mirrors n m s₁ s₂ basePath w w') (hnm : n ≤ m) {a : Nat}
    (ha : n ≤ a) (ha' : a < w.nextStream) (url : Str) :
    Mirrored env n s₁ base (fun _ v _ v' => Mirrors n m s₁ s₂ basePath v v' ∧
        v.nextStream = w.nextStream)
      (ServiceAnnouncement.setCdnEndpoint a url) w
      (ServiceAnnouncement.setCdnEndpoint (shift n m a) url) w' := by
  refine Program.couples_perform ha ?_
  have hstream := h.new a ha ha'
  simp only [perform, callSetCdnEndpoint]
  cases hs : w.stream a with
  | basic s =>
    rw [hs] at hstream
    rw [hstream]
    exact rfl
  | seamless s =>
    rw [hs] at hstream
    have hrebase : (AnyStream.seamless s).rebase basePath =
        .seamless { s with toContentStream := s.toContentStream.rebase basePath } := rfl
    rw [hrebase] at hstream
    rw [hstream]
    obtain ⟨hset, hfault⟩ := setCdnEndpoint_rebase env.rest a (shift n m a) url s basePath
      w.memory.cache w'.memory.cache
    have hmirror := h.setStream hnm ha (.seamless (s.setCdnEndpoint env.rest a url w.memory.cache).1)
    simp only [AnyStream.asSeamless?]
    rw [hfault]
    rw [← hset] at hmirror
    cases (s.setCdnEndpoint env.rest a url w.memory.cache).2.2 with
    | none => exact ⟨hmirror.frame rfl rfl rfl rfl rfl rfl, rfl⟩
    | some e => exact rfl

theorem addAndStart_mirrored (h : Mirrors n m s₁ s₂ basePath w w') (hnm : n ≤ m) {a : Nat}
    (ha : n ≤ a) (ha' : a < w.nextStream) :
    Mirrored env n s₁ base (fun _ v _ v' => Mirrors n m s₁ s₂ basePath v v' ∧
        v.nextStream = w.nextStream)
      (ServiceAnnouncement.addAndStartContentStream s₁ a) w
      (ServiceAnnouncement.addAndStartContentStream s₂ (shift n m a)) w' := by
  refine Program.couples_perform ⟨rfl, ha, ha'⟩ ?_
  obtain ⟨r, c, b, f, hm⟩ := (w.service s₁).matchStream_eq (w.stream a).content
  have hmatch : (w'.service s₂).matchStream (w'.stream (shift n m a)).content =
      ((w.service s₁).matchStream (w.stream a).content).rebase basePath := by
    rw [h.service, h.new a ha ha', AnyStream.content_rebase, Service.matchStream_rebase]
  have hset : ∀ cs : ContentStream D, (w'.stream (shift n m a)).setContent (cs.rebase basePath) =
      ((w.stream a).setContent cs).rebase basePath := by
    intro cs
    rw [h.new a ha ha', AnyStream.rebase_setContent]
  simp only [perform, addAndStartContentStream]
  rw [hmatch]
  generalize (w.service s₁).matchStream (w.stream a).content = cs
  have hpath : (cs.rebase basePath).playlistPath = cs.playlistPath := by
    cases basePath <;> rfl
  have hservice : { w'.service s₂ with contentStreams :=
        (w'.service s₂).contentStreams.set (cs.rebase basePath).playlistPath (shift n m a) } =
      Service.relocate (shift n m) { w.service s₁ with
        contentStreams := (w.service s₁).contentStreams.set cs.playlistPath a } := by
    rw [h.service, hpath]
    simp only [Service.relocate, OrdMap.map_set]
  rw [ContentStream.start_rebase, hservice, hset cs]
  have hmade : ∀ e ∈ ((w.service s₁).contentStreams.set cs.playlistPath a).entries,
      e.2 < w.nextStream := by
    intro e he
    rcases OrdMap.mem_set.mp he with rfl | ⟨he, -⟩
    · exact ha'
    · exact h.made e he
  generalize hsv : { w.service s₁ with
    contentStreams := (w.service s₁).contentStreams.set cs.playlistPath a } = sv
  have hadd := (h.setStream hnm ha ((w.stream a).setContent cs)).setService sv
    (by rw [← hsv]; exact hmade)
  cases cs.start with
  | error e => exact rfl
  | ok cs' =>
    simp only [Except.map]
    rw [hset cs']
    have hstart := hadd.setStream hnm ha ((w.stream a).setContent cs')
    have hmanifest := Service.recreateManifest_relocate env.indeterminate sv
      (fun e he => hstart.variant_eq env.indeterminate (by rw [← hsv] at he; exact hmade e he))
    obtain ⟨manifest, hman⟩ := recreateManifest_eq env sv
      (((w.setStream a ((w.stream a).setContent cs)).setService s₁ sv).setStream a
        ((w.stream a).setContent cs')).stream
    have hend := hstart.setService { sv with manifest := manifest }
      (by rw [← hsv]; exact hmade)
    rw [← hman, ← hmanifest] at hend
    exact ⟨hend.frame rfl rfl rfl rfl rfl rfl, rfl⟩

end Calls

end World

namespace ServiceAnnouncement

open World

variable [DoubleText D] {env : Environment D} (cfg : Config) (items : List Item)
  (protocol : DeliveryProtocol) {n m s₁ s₂ : Nat} {base basePath : Option Str} {w w' : World D}

/-- The streams of a vector have been made by the first run. -/
def MadeBy (n : Nat) (w : World D) (streams : List Handle) : Prop :=
  ∀ h ∈ streams, n ≤ h.address ∧ h.address < w.nextStream

omit [DoubleText D] in
theorem MadeBy.mono {streams : List Handle} (h : MadeBy n w streams) {v : World D}
    (hle : w.nextStream ≤ v.nextStream) : MadeBy n v streams :=
  fun x hx => ⟨(h x hx).1, (h x hx).2.trans_le hle⟩

/-- The vectors of the two runs. -/
def SameVectors (n m : Nat) (w : World D) (streams streams' : List Handle) : Prop :=
  streams' = streams.map (Handle.rename (shift n m)) ∧ MadeBy n w streams

theorem pushBack_mirrored (h : Mirrors n m s₁ s₂ basePath w w') (hnm : n ≤ m)
    {streams streams' : List Handle} (hv : SameVectors n m w streams streams') {s : AnyStream D}
    (hs : ∀ b ∈ base, s.content.basePath = b) :
    Mirrored env n s₁ base (fun streams v streams' v' => Mirrors n m s₁ s₂ basePath v v' ∧
        SameVectors n m v streams streams' ∧ w.nextStream ≤ v.nextStream)
      (pushBack streams s) w (pushBack streams' (s.rebase basePath)) w' := by
  apply Program.couples_bind
  apply (newStream_mirrored h hnm s hs).imp
  rintro a v a' v' ⟨h', rfl, rfl, hnext⟩
  apply Program.couples_pure
  refine ⟨h', ⟨?_, ?_⟩, by omega⟩
  · have hbase : (s.rebase basePath).content.base = s.content.base := by
      cases basePath <;> simp [ContentStream.rebase, ContentStream.withBasePath]
    rw [hv.1, List.map_append, hbase, AnyStream.isSome_asSeamless?_rebase]
    rfl
  · intro x hx
    rcases List.mem_append.mp hx with hx | hx
    · have hm := hv.2 x hx
      exact ⟨hm.1, by omega⟩
    · have hlt : w.nextStream < v.nextStream := by omega
      rw [List.mem_singleton.mp hx]
      exact ⟨h.le, hlt⟩

theorem createBroadcastStreams_mirrored (h : Mirrors n m s₁ s₂ basePath w w') (hnm : n ≤ m)
    {streamOf streamOf' : XmlElement → Except Fault (Option (AnyStream D))}
    (hstreamOf : ∀ pattern, streamOf' pattern =
      (streamOf pattern).map (Option.map (AnyStream.rebase basePath)))
    (hs : ∀ pattern s, streamOf pattern = .ok (some s) → ∀ b ∈ base, s.content.basePath = b)
    {streams streams' : List Handle} (hv : SameVectors n m w streams streams')
    (deliveryMethod : XmlElement) :
    Mirrored env n s₁ base (fun streams v streams' v' => Mirrors n m s₁ s₂ basePath v v' ∧
        SameVectors n m v streams streams' ∧ w.nextStream ≤ v.nextStream)
      (createBroadcastStreams streamOf streams deliveryMethod) w
      (createBroadcastStreams streamOf' streams' deliveryMethod) w' := by
  unfold createBroadcastStreams
  cases deliveryMethod.firstChildElement broadcastAppService with
  | none =>
    apply Program.couples_pure
    exact ⟨h, hv, le_rfl⟩
  | some broadcast =>
    apply Program.couples_foldlM _ ⟨h, hv, le_rfl⟩
    rintro pattern - streams v streams' v' ⟨h', hv', hle⟩
    apply Program.couples_bind
    rw [hstreamOf pattern]
    apply Program.couples_ofExcept_map
    intro made hmade
    cases made with
    | none =>
      apply Program.couples_pure
      exact ⟨h', hv', hle⟩
    | some s =>
      apply (pushBack_mirrored h' hnm hv' (hs pattern s hmade)).imp
      rintro _ _ _ _ ⟨h'', hv'', hle'⟩
      exact ⟨h'', hv'', hle.trans hle'⟩

theorem startAll_mirrored (h : Mirrors n m s₁ s₂ basePath w w') (hnm : n ≤ m)
    {streams streams' : List Handle} (hv : SameVectors n m w streams streams') :
    Mirrored env n s₁ base (fun _ v _ v' => Mirrors n m s₁ s₂ basePath v v' ∧
        v.nextStream = w.nextStream)
      (streams.forM (addAndStartContentStream s₁ ·.address)) w
      (streams'.forM (addAndStartContentStream s₂ ·.address)) w' := by
  have hpairs : List.Forall₂ (fun x y : Handle => y.address = shift n m x.address ∧
      n ≤ x.address ∧ x.address < w.nextStream) streams streams' := by
    rw [hv.1, List.forall₂_map_right_iff]
    exact List.forall₂_same.mpr fun x hx => ⟨rfl, hv.2 x hx⟩
  apply Program.couples_forM (I := fun v v' => Mirrors n m s₁ s₂ basePath v v' ∧
    v.nextStream = w.nextStream) hpairs _ ⟨h, rfl⟩
  rintro x y v v' ⟨hxy, hn, hlt⟩ ⟨h', hnext⟩
  rw [hxy]
  apply (addAndStart_mirrored h' hnm hn (by omega)).imp
  rintro _ _ _ _ ⟨h'', hnext'⟩
  exact ⟨h'', hnext'.trans hnext⟩

section FivegMagConfig

variable {cfg}

theorem newUnicastStream_mirrored (h : Mirrors n m s₁ s₂ none w w') (hnm : n ≤ m)
    {streams streams' : List Handle} (hv : SameVectors n m w streams streams') {k : Nat}
    (hk : k ≤ w.nextStream) (s : AnyStream D) (url manifestUrl : Str) :
    Mirrored env n s₁ none (fun streams v streams' v' => Mirrors n m s₁ s₂ none v v' ∧
        SameVectors n m v streams streams' ∧ k ≤ v.nextStream)
      (do
        let address ← newStream s
        setCdnEndpoint address url
        pure (streams ++ [⟨address, manifestUrl, true⟩])) w
      (do
        let address ← newStream s
        setCdnEndpoint address url
        pure (streams' ++ [⟨address, manifestUrl, true⟩])) w' := by
  have hmade : Mirrored env n s₁ none _ (newStream s) w (newStream (s.rebase none)) w' :=
    newStream_mirrored h hnm s (by simp)
  rw [AnyStream.rebase_none] at hmade
  apply Program.couples_bind
  apply hmade.imp
  rintro a v a' v' ⟨h', rfl, rfl, hnext⟩
  have hlt : w.nextStream < v.nextStream := by omega
  apply Program.couples_bind
  apply (setCdnEndpoint_mirrored h' hnm h.le hlt url).imp
  rintro _ v₁ _ v₁' ⟨h'', hnext'⟩
  apply Program.couples_pure
  refine ⟨h'', ⟨?_, ?_⟩, by omega⟩
  · rw [hv.1, List.map_append]
    rfl
  · intro x hx
    rcases List.mem_append.mp hx with hx | hx
    · have hm := hv.2 x hx
      exact ⟨hm.1, by omega⟩
    · rw [List.mem_singleton.mp hx]
      exact ⟨h.le, hlt.trans_eq hnext'.symm⟩

theorem setupUnicast_mirrored (h : Mirrors n m s₁ s₂ none w w') (hnm : n ≤ m) (manifestUrl : Str)
    (appService : Option XmlElement) {broadcast broadcast' unicast unicast' : List Handle}
    (hb : SameVectors n m w broadcast broadcast') (hv : SameVectors n m w unicast unicast')
    (pattern : XmlElement) :
    Mirrored env n s₁ none (fun unicast v unicast' v' => Mirrors n m s₁ s₂ none v v' ∧
        SameVectors n m v unicast unicast' ∧ w.nextStream ≤ v.nextStream)
      (setupUnicast cfg protocol manifestUrl appService broadcast unicast pattern) w
      (setupUnicast cfg protocol manifestUrl appService broadcast' unicast' pattern) w' := by
  unfold setupUnicast
  apply Program.couples_bind
  apply Program.couples_ofExcept
  intro url _
  apply Program.couples_bind
  apply Program.couples_ofExcept
  intro app _
  apply Program.couples_foldlM _ ⟨h, hv, le_rfl⟩
  rintro identical - unicast v unicast' v' ⟨h', hv', hle⟩
  apply Program.couples_bind
  rw [hb.1, identicalContentStream_rename]
  apply Program.couples_ofExcept_map
  rintro ⟨stream, found⟩ hfound
  cases stream with
  | none => exact newUnicastStream_mirrored h' hnm hv' hle _ url manifestUrl
  | some a =>
    cases found with
    | false => exact newUnicastStream_mirrored h' hnm hv' hle _ url manifestUrl
    | true =>
      obtain ⟨x, hx, rfl, -⟩ := (identicalContentStream_identical hfound).2 a rfl
      have hmade := hb.2 x hx
      apply Program.couples_bind
      apply (setCdnEndpoint_mirrored h' hnm hmade.1 (by omega) url).imp
      rintro _ v₁ _ v₁' ⟨h'', hnext⟩
      apply Program.couples_pure
      exact ⟨h'', ⟨hv'.1, hv'.2.mono hnext.ge⟩, by omega⟩

theorem createUnicastStreams_mirrored (h : Mirrors n m s₁ s₂ none w w') (hnm : n ≤ m)
    (manifestUrl : Str) (appService : Option XmlElement)
    {broadcast broadcast' unicast unicast' : List Handle}
    (hb : SameVectors n m w broadcast broadcast') (hv : SameVectors n m w unicast unicast')
    (deliveryMethod : XmlElement) :
    Mirrored env n s₁ none (fun unicast v unicast' v' => Mirrors n m s₁ s₂ none v v' ∧
        SameVectors n m v unicast unicast' ∧ w.nextStream ≤ v.nextStream)
      (createUnicastStreams cfg protocol manifestUrl appService broadcast unicast deliveryMethod) w
      (createUnicastStreams cfg protocol manifestUrl appService broadcast' unicast' deliveryMethod)
      w' := by
  unfold createUnicastStreams
  split
  · cases deliveryMethod.firstChildElement unicastAppService with
    | none =>
      apply Program.couples_pure
      exact ⟨h, hv, le_rfl⟩
    | some element =>
      apply Program.couples_foldlM _ ⟨h, hv, le_rfl⟩
      rintro pattern - unicast v unicast' v' ⟨h', hv', hle⟩
      apply (setupUnicast_mirrored protocol h' hnm manifestUrl appService
        ⟨hb.1, hb.2.mono hle⟩ hv' pattern).imp
      rintro _ _ _ _ ⟨h'', hv'', hle'⟩
      exact ⟨h'', hv'', hle.trans hle'⟩
  · apply Program.couples_pure
    exact ⟨h, hv, le_rfl⟩

theorem setupBy5GMagConfig_mirrored (h : Mirrors n m s₁ s₂ none w w') (hnm : n ≤ m)
    (appService : Option XmlElement) (usd : XmlElement) :
    Mirrored env n s₁ none (fun _ v _ v' => Mirrors n m s₁ s₂ none v v')
      (setupBy5GMagConfig cfg items protocol s₁ appService usd) w
      (setupBy5GMagConfig cfg items protocol s₂ appService usd) w' := by
  unfold setupBy5GMagConfig
  apply Program.couples_bind
  apply Program.Couples.imp (Program.couples_foldlM
    (Q := fun streams v streams' v' => Mirrors n m s₁ s₂ none v v' ∧
      SameVectors n m v streams.1 streams'.1 ∧ SameVectors n m v streams.2 streams'.2) ?_
    ⟨h, ⟨rfl, by simp [MadeBy]⟩, rfl, by simp [MadeBy]⟩)
  · rintro _ v _ v' ⟨h', -⟩
    exact h'
  · rintro d - streams v streams' v' ⟨h', hb, hv⟩
    unfold deliveryMethodBy5GMagConfig createBy5GMagConfig
    apply Program.couples_bind
    apply Program.couples_bind
    apply Program.couples_ofExcept
    intro sdpUri _
    apply Program.couples_bind
    apply (createBroadcastStreams_mirrored h' hnm (fun pattern => ?_) (by simp) hb d).imp
    · rintro broadcast v₁ broadcast' v₁' ⟨h₁, hb₁, hle₁⟩
      apply Program.couples_bind
      apply (createUnicastStreams_mirrored protocol h₁ hnm _ appService hb₁
        ⟨hv.1, hv.2.mono hle₁⟩ d).imp
      rintro unicast v₂ unicast' v₂' ⟨h₂, hv₂, hle₂⟩
      apply Program.couples_pure
      apply Program.couples_bind
      apply (startAll_mirrored h₂ hnm hv₂).imp
      rintro _ v₃ _ v₃' ⟨h₃, hnext₃⟩
      apply Program.couples_bind
      have hb₃ : SameVectors n m v₃ broadcast broadcast' :=
        ⟨hb₁.1, hb₁.2.mono (hle₂.trans hnext₃.ge)⟩
      apply (startAll_mirrored h₃ hnm hb₃).imp
      rintro _ v₄ _ v₄' ⟨h₄, hnext₄⟩
      apply Program.couples_pure
      exact ⟨h₄, ⟨hb₃.1, hb₃.2.mono hnext₄.ge⟩, hv₂.1,
        hv₂.2.mono (hnext₃.ge.trans hnext₄.ge)⟩
    · have hsame : (AnyStream.rebase none : AnyStream D → AnyStream D) = id := by
        funext s
        exact AnyStream.rebase_none s
      rw [hsame]
      cases streamOf5GMagConfig (D := D) cfg items protocol sdpUri pattern with
      | error e => rfl
      | ok made => cases made <;> rfl

end FivegMagConfig

section FivegMagLegacyFormat

variable {cfg}

theorem streamOfLegacyFormat_rebase (b₁ b₂ sdpUri : Str) (pattern : XmlElement) :
    streamOfLegacyFormat (D := D) cfg items protocol b₂ sdpUri pattern =
      (streamOfLegacyFormat cfg items protocol b₁ sdpUri pattern).map
        (Option.map (AnyStream.rebase (some b₂))) := by
  rw [streamOfLegacyFormat_withBasePath cfg items protocol b₂,
    streamOfLegacyFormat_withBasePath cfg items protocol b₁]
  cases streamOfLegacyFormat (D := D) cfg items protocol [] sdpUri pattern with
  | error e => rfl
  | ok made =>
    cases made with
    | none => rfl
    | some s => cases s <;> rfl

theorem streamOfLegacyFormat_basePath {b sdpUri : Str} {pattern : XmlElement} {s : AnyStream D}
    (h : streamOfLegacyFormat cfg items protocol b sdpUri pattern = .ok (some s)) :
    s.content.basePath = b := by
  rw [streamOfLegacyFormat_withBasePath] at h
  cases hmade : streamOfLegacyFormat (D := D) cfg items protocol [] sdpUri pattern with
  | error e =>
    rw [hmade] at h
    cases h
  | ok made =>
    rw [hmade] at h
    cases made with
    | none => cases h
    | some s' =>
      cases h
      rw [AnyStream.content_setContent]
      rfl

theorem setupBy5GMagLegacyFormat_mirrored {b₁ b₂ : Str}
    (h : Mirrors n m s₁ s₂ (some b₂) w w') (hnm : n ≤ m) (usd : XmlElement) :
    Mirrored env n s₁ (some b₁) (fun _ v _ v' => Mirrors n m s₁ s₂ (some b₂) v v')
      (setupBy5GMagLegacyFormat cfg items protocol s₁ b₁ usd) w
      (setupBy5GMagLegacyFormat cfg items protocol s₂ b₂ usd) w' := by
  unfold setupBy5GMagLegacyFormat
  apply Program.couples_bind
  apply Program.Couples.imp (Program.couples_foldlM
    (Q := fun streams v streams' v' => Mirrors n m s₁ s₂ (some b₂) v v' ∧
      SameVectors n m v streams streams') ?_ ⟨h, rfl, by simp [MadeBy]⟩)
  · rintro _ v _ v' ⟨h', -⟩
    exact h'
  · rintro d - streams v streams' v' ⟨h', hv⟩
    unfold deliveryMethodByLegacyFormat createByLegacyFormat
    apply Program.couples_bind
    apply Program.couples_bind
    apply Program.couples_ofExcept
    intro sdpUri _
    apply (createBroadcastStreams_mirrored h' hnm
      (streamOfLegacyFormat_rebase items protocol b₁ b₂ sdpUri) (fun pattern s hs => ?_) hv d).imp
    · rintro broadcast v₁ broadcast' v₁' ⟨h₁, hv₁, -⟩
      apply Program.couples_bind
      apply (startAll_mirrored h₁ hnm hv₁).imp
      rintro _ v₂ _ v₂' ⟨h₂, hnext⟩
      apply Program.couples_pure
      exact ⟨h₂, hv₁.1, hv₁.2.mono hnext.ge⟩
    · rintro b ⟨⟩
      exact streamOfLegacyFormat_basePath items protocol hs

end FivegMagLegacyFormat

section AlternativeContent

variable {cfg}

theorem setupUnicastDelivery_mirrored (h : Mirrors n m s₁ s₂ none w w') (hnm : n ≤ m)
    (appService : XmlElement) (url : Str) {a : Nat} (ha : n ≤ a) (ha' : a < w.nextStream)
    (available : Bool) :
    Mirrored env n s₁ none (fun r v r' v' => Mirrors n m s₁ s₂ none v v' ∧
        v.nextStream = w.nextStream ∧ r' = r)
      (setupUnicastDelivery cfg appService url a available) w
      (setupUnicastDelivery cfg appService url (shift n m a) available) w' := by
  unfold setupUnicastDelivery
  split
  · cases available with
    | false =>
      apply Program.couples_bind
      apply (setCdnEndpoint_mirrored h hnm ha ha' url).imp
      rintro _ v _ v' ⟨h', hnext⟩
      apply Program.couples_pure
      exact ⟨h', hnext, rfl⟩
    | true =>
      apply Program.couples_bind
      apply (Program.couples_forM_same (I := fun _ v v' => Mirrors n m s₁ s₂ none v v' ∧
        v.nextStream = w.nextStream) ?_ ⟨h, rfl⟩).imp
      · rintro _ v _ v' ⟨h', hnext⟩
        apply Program.couples_pure
        exact ⟨h', hnext, rfl⟩
      · rintro _ identical v v' ⟨h', hnext⟩
        apply Program.couples_bind
        apply Program.couples_ofExcept
        rintro ⟨matched, found⟩ _
        dsimp only
        split
        · apply (setCdnEndpoint_mirrored h' hnm ha (by omega) found).imp
          rintro _ v₁ _ v₁' ⟨h₁, hnext₁⟩
          exact ⟨h₁, hnext₁.trans hnext⟩
        · apply Program.couples_pure
          exact ⟨h', hnext⟩
  · apply Program.couples_pure
    exact ⟨h, rfl, rfl⟩

theorem setupByAlternativeContentElement_mirrored (h : Mirrors n m s₁ s₂ none w w') (hnm : n ≤ m)
    (appService : Option XmlElement) (usd : XmlElement) :
    Mirrored env n s₁ none (fun _ v _ v' => Mirrors n m s₁ s₂ none v v')
      (setupByAlternativeContentElement cfg items protocol s₁ appService usd) w
      (setupByAlternativeContentElement cfg items protocol s₂ appService usd) w' := by
  unfold setupByAlternativeContentElement
  apply Program.couples_bind
  apply Program.couples_ofExcept
  intro app _
  cases app.firstChildElement alternativeContent with
  | none =>
    apply Program.couples_pure
    exact h
  | some alternative =>
    apply Program.couples_forM_same (I := fun _ => Mirrors n m s₁ s₂ none) _ h
    intro _ pattern v v' h'
    unfold setupBasePattern
    apply Program.couples_bind
    apply Program.couples_ofExcept
    intro url _
    apply Program.couples_bind
    apply Program.couples_ofExcept
    rintro ⟨cs, available⟩ _
    apply Program.couples_bind
    have hmade : Mirrored env n s₁ none _ (newStream (makeStream cfg cs)) v
        (newStream ((makeStream cfg cs).rebase none)) v' := newStream_mirrored h' hnm _ (by simp)
    rw [AnyStream.rebase_none] at hmade
    apply hmade.imp
    rintro a v₁ a' v₁' ⟨h₁, rfl, rfl, hnext⟩
    have hlt : v.nextStream < v₁.nextStream := by omega
    apply Program.couples_bind
    apply (setupUnicastDelivery_mirrored h₁ hnm app url h'.le hlt available).imp
    rintro unicast v₂ _ v₂' ⟨h₂, hnext₂, rfl⟩
    split
    · apply (addAndStart_mirrored h₂ hnm h'.le (hlt.trans_eq hnext₂.symm)).imp
      exact fun _ _ _ _ hq => hq.1
    · exact h₂

end AlternativeContent

section Descriptions

variable {cfg}

/-- The base path that is left over when the app service has been handled. -/
def basePathAfter (rest : CppRest) (appService : Option XmlElement) (items : List Item)
    (basePath : Str) : Str :=
  items.foldl (fun basePath item =>
    if appService.bind (·.attributeValue appServiceDescriptionUri) = some item.uri then
      ((rest.uri item.uri).map basePathOf).getD basePath
    else basePath) basePath

/-- The part of it that the streams of a set-up depend on. -/
def legacyBasePath (cfg : Config) (basePath : Str) : Option Str :=
  if cfg.bootstrapFormat.getD ServiceAnnouncementFormatConstants.default =
      ServiceAnnouncementFormatConstants.fivegMagLegacy then some basePath else none

theorem setup_mirrored {b₁ b₂ : Str} (h : Mirrors n m s₁ s₂ (legacyBasePath cfg b₂) w w')
    (hnm : n ≤ m) (appService : Option XmlElement) (usd : XmlElement) :
    Mirrored env n s₁ (legacyBasePath cfg b₁)
      (fun _ v _ v' => Mirrors n m s₁ s₂ (legacyBasePath cfg b₂) v v')
      (setup cfg items protocol s₁ b₁ appService usd) w
      (setup cfg items protocol s₂ b₂ appService usd) w' := by
  unfold setup legacyBasePath at *
  dsimp only
  by_cases hformat : cfg.bootstrapFormat.getD ServiceAnnouncementFormatConstants.default =
      ServiceAnnouncementFormatConstants.fivegMagLegacy
  · have hother : cfg.bootstrapFormat.getD ServiceAnnouncementFormatConstants.default ≠
        ServiceAnnouncementFormatConstants.fivegMagBcUc := by
      rw [hformat]
      decide
    simp only [if_pos hformat, if_neg hother] at h ⊢
    exact setupBy5GMagLegacyFormat_mirrored items protocol h hnm usd
  · simp only [if_neg hformat] at h ⊢
    split
    · exact setupBy5GMagConfig_mirrored items protocol h hnm appService usd
    · exact setupByAlternativeContentElement_mirrored items protocol h hnm appService usd

theorem basePath_perform {service : Nat} {call : MiddlewareCall D} (h : OwnCall service n call w) :
    (perform env call w).state.basePath = w.basePath := by
  cases call with
  | newStream s => rfl
  | setCdnEndpoint a url =>
    simp only [perform, callSetCdnEndpoint]
    split
    · rfl
    · split <;> rfl
  | addAndStartContentStream s a =>
    simp only [perform, World.addAndStartContentStream]
    split <;> rfl
  | _ => exact h.elim

theorem setup_basePath {service : Nat} (b : Str) (appService : Option XmlElement) (usd : XmlElement)
    (w : World D) :
    Does env service w.nextStream (fun _ v => v.basePath = w.basePath) (fun _ _ => True)
      (setup cfg items protocol service b appService usd) w := by
  apply ((setup_faults cfg items protocol b appService usd w).invariant
    (I := fun v => v.basePath = w.basePath) _ rfl).imp
  · exact fun _ _ hv => hv.2
  · exact fun _ _ _ => trivial
  · exact fun call v hv hcall => (basePath_perform hcall).trans hv

theorem handleAppService_mirrored (h : Mirrors n m s₁ s₂ basePath w w')
    (appService : Option XmlElement) :
    Mirrored env n s₁ base (fun _ v _ v' => Mirrors n m s₁ s₂ basePath v v' ∧
        v.basePath = basePathAfter env.rest appService items w.basePath ∧
        v'.basePath = basePathAfter env.rest appService items w'.basePath)
      (handleAppService items s₁ env.rest appService) w
      (handleAppService items s₂ env.rest appService) w' := by
  unfold handleAppService
  apply Program.couples_bind
  apply Program.couples_ofExcept
  intro app happ
  have happ' : appService = some app := by
    cases appService with
    | none => cases happ
    | some _ =>
      cases happ
      rfl
  subst happ'
  apply Program.couples_bind
  apply Program.couples_ofExcept
  intro mime _
  apply Program.couples_bind
  apply (setDeliveryProtocol_mirrored h mime).imp
  rintro _ v _ v' ⟨h', hv, hv'⟩
  rw [← hv, ← hv']
  apply Program.couples_forM_same (I := fun d u u' => Mirrors n m s₁ s₂ basePath u u' ∧
    u.basePath = basePathAfter env.rest (some app) d v.basePath ∧
    u'.basePath = basePathAfter env.rest (some app) d v'.basePath) _ ⟨h', rfl, rfl⟩
  rintro d item u u' ⟨hu, hbase, hbase'⟩
  have hconcat : ∀ b, basePathAfter env.rest (some app) (d ++ [item]) b =
      if app.attributeValue appServiceDescriptionUri = some item.uri then
        ((env.rest.uri item.uri).map basePathOf).getD (basePathAfter env.rest (some app) d b)
      else basePathAfter env.rest (some app) d b := by
    intro b
    rw [basePathAfter, List.foldl_append]
    rfl
  apply Program.couples_bind
  apply Program.couples_ofExcept
  intro descriptionUri huri
  have huri' : app.attributeValue appServiceDescriptionUri = some descriptionUri := by
    cases hattr : app.attributeValue appServiceDescriptionUri with
    | none =>
      rw [hattr] at huri
      cases huri
    | some _ =>
      rw [hattr] at huri
      cases huri
      rfl
  rw [hconcat, hconcat, huri']
  by_cases hitem : item.uri = descriptionUri
  · have hsome : some descriptionUri = some item.uri := congrArg some hitem.symm
    rw [if_pos hitem, if_pos hitem, if_pos hsome, if_pos hsome]
    cases env.rest.uri item.uri with
    | none => exact rfl
    | some uri =>
      apply Program.couples_bind
      apply (readMasterManifest_mirrored hu item.content (basePathOf uri)).imp
      rintro _ z _ z' ⟨hz, -, -⟩
      exact ⟨trivial, hz.frame rfl rfl rfl rfl rfl rfl, rfl, rfl⟩
  · have hne : ¬ some descriptionUri = some item.uri := fun he => hitem (Option.some.inj he).symm
    rw [if_neg hitem, if_neg hitem, if_neg hne, if_neg hne]
    exact ⟨hu, hbase, hbase'⟩

variable (env cfg)

/-- In the legacy format the streams get the base path that is left over at that
time, and that is the only difference between the two runs. -/
theorem describeService_mirrored (usd : XmlElement)
    (h : Mirrors n m s₁ s₂ (legacyBasePath cfg (basePathAfter env.rest
      (usd.firstChildElement appService) items w'.basePath)) w w') (hnm : n ≤ m) :
    Mirrored env n s₁
      (legacyBasePath cfg (basePathAfter env.rest (usd.firstChildElement appService) items
        w.basePath))
      (fun _ v _ v' => Mirrors n m s₁ s₂ (legacyBasePath cfg (basePathAfter env.rest
          (usd.firstChildElement appService) items w'.basePath)) v v' ∧
        v.basePath = basePathAfter env.rest (usd.firstChildElement appService) items w.basePath)
      (describeService cfg items env.rest usd s₁) w
      (describeService cfg items env.rest usd s₂) w' := by
  unfold describeService
  apply Program.couples_bind
  apply (Program.couples_forM_same (I := fun _ v v' => Mirrors n m s₁ s₂ (legacyBasePath cfg
    (basePathAfter env.rest (usd.firstChildElement appService) items w'.basePath)) v v' ∧
    v.basePath = w.basePath ∧ v'.basePath = w'.basePath) ?_ ⟨h, rfl, rfl⟩).imp
  · rintro _ v _ v' ⟨hv, hbase, hbase'⟩
    apply Program.couples_bind
    apply (handleAppService_mirrored items hv (usd.firstChildElement appService)).imp
    rintro _ u _ u' ⟨hu, hleft, hright⟩
    rw [hbase] at hleft
    rw [hbase'] at hright
    apply Program.couples_bind
    have hprotocol : (u'.service s₂).deliveryProtocol = (u.service s₁).deliveryProtocol := by
      rw [hu.service]
      rfl
    refine ⟨trivial, ?_⟩
    refine Program.couples_bind ⟨trivial, ?_⟩
    change Mirrored env n s₁ _ _ (setup cfg items (u.service s₁).deliveryProtocol s₁ u.basePath
      (usd.firstChildElement appService) usd) u (setup cfg items (u'.service s₂).deliveryProtocol s₂
        u'.basePath (usd.firstChildElement appService) usd) u'
    rw [hprotocol, hright, ← hleft]
    exact (setup_mirrored items _ hu hnm (usd.firstChildElement appService) usd).and_holds
      (setup_basePath items _ u.basePath (usd.firstChildElement appService) usd u)
  · rintro _ name v v' ⟨hv, hbase, hbase'⟩
    cases name.attributeValue lang with
    | none => exact ⟨hv, hbase, hbase'⟩
    | some language =>
      cases name.getText with
      | none => exact ⟨hv, hbase, hbase'⟩
      | some text =>
        apply (addName_mirrored hv text language).imp
        rintro _ u _ u' ⟨hu, hu₁, hu₁'⟩
        exact ⟨hu, hu₁.trans hbase, hu₁'.trans hbase'⟩

end Descriptions

end ServiceAnnouncement

end MbmsMiddleware
