import MbmsMiddleware.MirroredRuns
import MbmsMiddleware.Session

/-! What is registered under a service id, and what the handling of the user
service description of another service leaves of it. -/

namespace MbmsMiddleware

open ServiceAnnouncementXmlElements

/-- What an announcement says of a content stream. -/
structure StreamView where
  base : Str
  basePath : Str
  playlistPath : Str
  streamType : Str
  streamMcastAddr : Str
  streamMcastPort : Str
  streamFluteTsi : Nat
  cdnEndpoint : Option Str
  deriving DecidableEq

structure ServiceView where
  names : List ((_ : Str) × Str)
  deliveryProtocol : DeliveryProtocol
  manifestPath : Str
  streams : List (Str × StreamView)
  deriving DecidableEq

namespace World

variable {D : Type}

def streamView (s : AnyStream D) : StreamView where
  base := s.content.base
  basePath := s.content.basePath
  playlistPath := s.content.playlistPath
  streamType := s.content.streamType
  streamMcastAddr := s.content.streamMcastAddr
  streamMcastPort := s.content.streamMcastPort
  streamFluteTsi := s.content.streamFluteTsi
  cdnEndpoint := s.asSeamless?.map SeamlessContentStream.cdnEndpoint

def serviceView (w : World D) (service : Nat) : ServiceView where
  names := (w.service service).names.entries
  deliveryProtocol := (w.service service).deliveryProtocol
  manifestPath := (w.service service).manifestPath
  streams := (w.service service).contentStreams.entries.map fun e => (e.1, streamView (w.stream e.2))

/-- What is registered under an id. -/
def view (w : World D) (id : Str) : Option ServiceView := (w.services.find? id).map w.serviceView

/-- Different ids have different services, and what is registered exists. -/
structure Sound (w : World D) : Prop where
  made : ∀ id a, w.services.find? id = some a → a < w.nextService
  distinct : ∀ id id' a, w.services.find? id = some a → w.services.find? id' = some a → id = id'
  streams : ∀ id a, w.services.find? id = some a →
    ∀ e ∈ (w.service a).contentStreams.entries, e.2 < w.nextStream

/-- Nothing has happened to what is registered under the id. -/
structure Spares (id : Str) (w w' : World D) : Prop where
  find : w'.services.find? id = w.services.find? id
  service : ∀ a, w.services.find? id = some a → w'.service a = w.service a
  nextStream : w.nextStream ≤ w'.nextStream
  stream : ∀ a < w.nextStream, w'.stream a = w.stream a

theorem Spares.refl (id : Str) (w : World D) : Spares id w w :=
  ⟨rfl, fun _ _ => rfl, le_rfl, fun _ _ => rfl⟩

theorem Spares.trans {id : Str} {w w' w'' : World D} (h : Spares id w w') (h' : Spares id w' w'') :
    Spares id w w'' where
  find := h'.find.trans h.find
  service a ha := (h'.service a (h.find.trans ha)).trans (h.service a ha)
  nextStream := h.nextStream.trans h'.nextStream
  stream a ha := (h'.stream a (ha.trans_le h.nextStream)).trans (h.stream a ha)

theorem Spares.view_eq {id : Str} {w w' : World D} (h : Spares id w w') (hw : Sound w) :
    w'.view id = w.view id := by
  unfold view
  rw [h.find]
  cases hfind : w.services.find? id with
  | none => rfl
  | some a =>
    have hstreams : ∀ e ∈ (w.service a).contentStreams.entries,
        (e.1, streamView (w'.stream e.2)) = (e.1, streamView (w.stream e.2)) := by
      intro e he
      rw [h.stream e.2 (hw.streams id a hfind e he)]
    simp only [Option.map_some, serviceView, h.service a hfind]
    rw [List.map_congr_left hstreams]

variable (env : Environment D)

/-- The middleware with the service at hand: the other services and all streams
are as before. -/
structure Prepared (w : World D) (id : Str) (v : World D) : Prop where
  services : v.services = w.services
  nextService : w.nextService ≤ v.nextService
  described : w.describedService id < v.nextService
  otherService : ∀ a ≠ w.describedService id, v.service a = w.service a
  nextStream : v.nextStream = w.nextStream
  stream : v.stream = w.stream
  basePath : v.basePath = w.basePath
  old : ∀ a, w.services.find? id = some a → a = w.describedService id ∧ v = w
  fresh : w.services.find? id = none → w.describedService id = w.nextService ∧
    v.service (w.describedService id) = { deliveryProtocol := env.indeterminate.deliveryProtocol }
  made : ∀ e ∈ (v.service (w.describedService id)).contentStreams.entries, e.2 < w.nextStream

section Keeping

variable {env} {w v t : World D} {id : Str} {basePath : Option Str}

theorem Prepared.ne_described (h : Prepared env w id v) (hw : Sound w) {id' : Str} (hid : id' ≠ id)
    {a : Nat} (ha : w.services.find? id' = some a) : a ≠ w.describedService id := by
  rintro rfl
  cases hfind : w.services.find? id with
  | some b =>
    rw [← (h.old b hfind).1] at ha
    exact hid (hw.distinct id' id b ha hfind)
  | none =>
    rw [(h.fresh hfind).1] at ha
    exact lt_irrefl _ (hw.made id' _ ha)

theorem Prepared.sound (h : Prepared env w id v) (hw : Sound w)
    (hk : Kept (w.describedService id) basePath v t) : Sound t where
  made id' a ha := by
    rw [hk.services, h.services] at ha
    rw [hk.nextService]
    exact (hw.made id' a ha).trans_le h.nextService
  distinct id' id'' a ha ha' := by
    rw [hk.services, h.services] at ha ha'
    exact hw.distinct id' id'' a ha ha'
  streams id' a ha e he := by
    rw [hk.services, h.services] at ha
    by_cases ha' : a = w.describedService id
    · subst ha'
      exact (hk.made e he).1
    · rw [hk.otherService a ha', h.otherService a ha'] at he
      have hlt := hw.streams id' a ha e he
      exact hlt.trans_le (h.nextStream.symm.le.trans hk.nextStream)

theorem Prepared.spares (h : Prepared env w id v) (hw : Sound w)
    (hk : Kept (w.describedService id) basePath v t) {id' : Str} (hid : id' ≠ id) :
    Spares id' w t where
  find := by rw [hk.services, h.services]
  service a ha := by
    have hne := h.ne_described hw hid ha
    rw [hk.otherService a hne, h.otherService a hne]
  nextStream := h.nextStream.symm.le.trans hk.nextStream
  stream a ha := by rw [hk.oldStream a (h.nextStream ▸ ha), h.stream]

theorem find?_registerDescribed {id' : Str} (hid : id' ≠ id) :
    (w.registerDescribed id t).services.find? id' = t.services.find? id' := by
  unfold registerDescribed
  split
  · exact OrdMap.find?_set_of_ne _ _ hid
  · rfl

/-- Registering a service touches nothing else. -/
theorem registerDescribed_frame :
    w.registerDescribed id t =
      { t with services := (w.registerDescribed id t).services } := by
  unfold registerDescribed
  split <;> rfl

theorem Prepared.spares_registered (h : Prepared env w id v) (hw : Sound w)
    (hk : Kept (w.describedService id) basePath v t) {id' : Str} (hid : id' ≠ id) :
    Spares id' w (w.registerDescribed id t) := by
  obtain ⟨hfind, hservice, hnext, hstream⟩ := h.spares hw hk hid
  rw [registerDescribed_frame]
  exact ⟨(find?_registerDescribed hid).trans hfind, hservice, hnext, hstream⟩

theorem Prepared.sound_registered (h : Prepared env w id v) (hw : Sound w)
    (hk : Kept (w.describedService id) basePath v t) : Sound (w.registerDescribed id t) := by
  have hsound := h.sound hw hk
  by_cases hnew : w.services.find? id = none ∧
      (t.service (w.describedService id)).contentStreams.size > 0
  · unfold registerDescribed
    rw [if_pos hnew]
    have hfresh := (h.fresh hnew.1).1
    have hold : ∀ id' a, id' ≠ id → (t.services.set id (w.describedService id)).find? id' = some a →
        w.services.find? id' = some a := by
      intro id' a hid ha
      rwa [OrdMap.find?_set_of_ne _ _ hid, hk.services, h.services] at ha
    constructor
    · intro id' a ha
      by_cases hid : id' = id
      · subst hid
        rw [OrdMap.find?_set_self] at ha
        cases ha
        rw [hk.nextService]
        exact h.described
      · rw [OrdMap.find?_set_of_ne _ _ hid] at ha
        exact hsound.made id' a ha
    · intro id' id'' a ha ha'
      by_cases hid : id' = id
      · subst hid
        by_cases hid' : id'' = id'
        · exact hid'.symm
        · rw [OrdMap.find?_set_self] at ha
          cases ha
          have hlt := hw.made id'' _ (hold id'' _ hid' ha')
          omega
      · by_cases hid' : id'' = id
        · subst hid'
          rw [OrdMap.find?_set_self] at ha'
          cases ha'
          have hlt := hw.made id' _ (hold id' _ hid ha)
          omega
        · exact hw.distinct id' id'' a (hold id' a hid ha) (hold id'' a hid' ha')
    · intro id' a ha e he
      by_cases hid : id' = id
      · subst hid
        rw [OrdMap.find?_set_self] at ha
        cases ha
        exact (hk.made e he).1
      · rw [OrdMap.find?_set_of_ne _ _ hid] at ha
        exact hsound.streams id' a ha e he
  · unfold registerDescribed
    rwa [if_neg hnew]

end Keeping

section Twice

variable {env} {n m s₁ s₂ : Nat} {basePath : Option Str} {w w' v v' t t' : World D} {id : Str}

theorem relocate_of_lt {sv : Service D} (h : ∀ e ∈ sv.contentStreams.entries, e.2 < n) :
    sv.relocate (shift n m) = sv := by
  have hentries : sv.contentStreams.entries.map (fun e => (⟨e.1, shift n m e.2⟩ : (_ : Str) × Nat)) =
      sv.contentStreams.entries := by
    refine (List.map_congr_left fun e he => ?_).trans (List.map_id _)
    rw [shift_of_lt (h e he)]
    rfl
  have hmap : sv.contentStreams.map (shift n m) = sv.contentStreams := OrdMap.ext hentries
  simp only [Service.relocate, hmap]

theorem Prepared.mirrors (h : Prepared env w id v) (h' : Prepared env w' id v')
    (hs : Spares id w w') :
    Mirrors w.nextStream w'.nextStream (w.describedService id) (w'.describedService id) basePath
      v v' where
  service := by
    rw [relocate_of_lt h.made]
    cases hfind : w.services.find? id with
    | some a =>
      obtain ⟨rfl, rfl⟩ := h.old a hfind
      have hfind' := hs.find.trans hfind
      obtain ⟨ha, rfl⟩ := h'.old _ hfind'
      rw [← ha, hs.service _ hfind]
    | none => rw [(h.fresh hfind).2, (h'.fresh (hs.find.trans hfind)).2]
  next := by rw [h.nextStream, h'.nextStream, shift_of_le le_rfl, Nat.sub_self, Nat.zero_add]
  le := h.nextStream.symm.le
  made e he := h.nextStream ▸ h.made e he
  old a ha := by rw [h.stream, h'.stream, hs.stream a ha]
  new a ha ha' := by
    rw [h.nextStream] at ha'
    omega

theorem Mirrors.streams_eq (h : Mirrors n m s₁ s₂ basePath t t') :
    (t'.serviceView s₂).streams = (t.service s₁).contentStreams.entries.map fun e =>
      (e.1, streamView (if e.2 < n then t.stream e.2 else (t.stream e.2).rebase basePath)) := by
  simp only [serviceView, h.service, Service.relocate, OrdMap.map, List.map_map]
  refine List.map_congr_left fun e he => ?_
  have hlt := h.made e he
  by_cases hn : e.2 < n
  · simp only [Function.comp_apply, shift_of_lt hn, if_pos hn, h.old e.2 hn]
  · simp only [Function.comp_apply, if_neg hn, h.new e.2 (by omega) hlt]

theorem Mirrors.serviceView_eq (h : Mirrors n m s₁ s₂ basePath t t')
    (hbase : ∀ a, n ≤ a → a < t.nextStream → ∀ b ∈ basePath, (t.stream a).content.basePath = b) :
    t'.serviceView s₂ = t.serviceView s₁ := by
  have hstreams : (t'.serviceView s₂).streams = (t.serviceView s₁).streams := by
    rw [h.streams_eq]
    refine List.map_congr_left fun e he => ?_
    by_cases hn : e.2 < n
    · rw [if_pos hn]
    · have hlt := h.made e he
      rw [if_neg hn, AnyStream.rebase, ContentStream.rebase_of_eq (hbase e.2 (by omega) hlt)]
      cases t.stream e.2 <;> rfl
  have hnames : (t'.serviceView s₂).names = (t.serviceView s₁).names := by
    simp only [serviceView, h.service, Service.relocate]
  have hprotocol : (t'.serviceView s₂).deliveryProtocol = (t.serviceView s₁).deliveryProtocol := by
    simp only [serviceView, h.service, Service.relocate]
  have hpath : (t'.serviceView s₂).manifestPath = (t.serviceView s₁).manifestPath := by
    simp only [serviceView, h.service, Service.relocate]
  cases hview : t'.serviceView s₂
  cases hview' : t.serviceView s₁
  simp_all

/-- Streams that are all new show which base path they were made with. -/
theorem Mirrors.basePath_eq {b₁ b₂ : Str} (h : Mirrors n m s₁ s₂ (some b₂) t t')
    (hnew : ∀ e ∈ (t.service s₁).contentStreams.entries, n ≤ e.2)
    (hbase : ∀ a, n ≤ a → a < t.nextStream → (t.stream a).content.basePath = b₁)
    (hsize : (t.service s₁).contentStreams.size > 0)
    (hview : t'.serviceView s₂ = t.serviceView s₁) : b₂ = b₁ := by
  obtain ⟨e, he⟩ := List.exists_mem_of_length_pos hsize
  have hstreams := congrArg ServiceView.streams hview
  rw [h.streams_eq] at hstreams
  have hmem := List.map_inj_left.mp hstreams e he
  have hn := hnew e he
  rw [if_neg (by omega)] at hmem
  have hpath := congrArg (fun x : Str × StreamView => x.2.basePath) hmem
  simp only [streamView, AnyStream.content_rebase] at hpath
  exact hpath.trans (hbase e.2 hn (h.made e he))

theorem view_registerDescribed (hservices : t.services = w.services) :
    (w.registerDescribed id t).view id =
      if w.services.find? id = none ∧ (t.service (w.describedService id)).contentStreams.size = 0
      then none else some (t.serviceView (w.describedService id)) := by
  have hview : ∀ services : OrdMap Str Nat, ({ t with services := services } : World D).serviceView =
      t.serviceView := fun _ => rfl
  unfold registerDescribed view
  cases hfind : w.services.find? id with
  | some a =>
    have ha : w.describedService id = a := by simp [describedService, hfind]
    simp [hservices, hfind, ha]
  | none =>
    by_cases hsize : (t.service (w.describedService id)).contentStreams.size = 0
    · simp [hsize, hservices, hfind]
    · rw [if_pos ⟨rfl, Nat.pos_of_ne_zero hsize⟩, if_neg (fun h => hsize h.2),
        OrdMap.find?_set_self, hview]
      rfl

end Twice

variable [DoubleText D]

theorem withDescribedService_of_find {w : World D} {id : Str} {a : Nat}
    (h : w.services.find? id = some a) : w.withDescribedService env id = w := by
  simp only [withDescribedService, h]

theorem withDescribedService_of_none {w : World D} {id : Str} (h : w.services.find? id = none) :
    w.withDescribedService env id =
      { w.setService w.nextService { deliveryProtocol := env.indeterminate.deliveryProtocol } with
        nextService := w.nextService + 1 } := by
  simp only [withDescribedService, h]
  rfl

theorem Sound.prepared {w : World D} (hw : Sound w) (id : Str) :
    Prepared env w id (w.withDescribedService env id) := by
  cases hfind : w.services.find? id with
  | some a =>
    have ha : w.describedService id = a := by simp [describedService, hfind]
    rw [withDescribedService_of_find env hfind]
    constructor <;> try rfl
    · rw [ha]
      exact hw.made id a hfind
    · exact fun _ _ => rfl
    · intro b hb
      rw [hfind] at hb
      cases hb
      exact ⟨ha.symm, rfl⟩
    · intro h
      rw [hfind] at h
      cases h
    · rw [ha]
      exact hw.streams id a hfind
  | none =>
    have ha : w.describedService id = w.nextService := by simp [describedService, hfind]
    rw [withDescribedService_of_none env hfind]
    constructor <;> try rfl
    · exact Nat.le_succ _
    · rw [ha]
      exact Nat.lt_succ_self _
    · intro b hb
      rw [ha] at hb
      exact setService_service_of_ne w _ hb
    · intro b hb
      rw [hfind] at hb
      cases hb
    · intro _
      rw [ha]
      exact ⟨rfl, setService_service_self w _ _⟩
    · rw [ha]
      change ∀ e ∈ ((w.setService w.nextService _).service w.nextService).contentStreams.entries, _
      rw [setService_service_self]
      exact fun e he => absurd he (List.not_mem_nil)

end World

end MbmsMiddleware
