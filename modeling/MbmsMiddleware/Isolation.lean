import MbmsMiddleware.DescribedServices

/-! Whether a user service description comes to the same service in a bundle as
on its own. The descriptions before it can stop the bundle or leave a base path
behind, and any of them can end the process. -/

namespace MbmsMiddleware

open ServiceAnnouncementXmlElements ServiceAnnouncement

namespace World

variable {D : Type} [DoubleText D] (env : Environment D) (cfg : Config) (items : List Item)

/-- `_handleMbmbsUserServiceDescriptionBundle` for a parsed document. -/
def handleBundle (doc : XmlDocument) : Action D Unit :=
  catchStdException
    ((ServiceAnnouncement.handleUserServiceDescriptionBundle cfg items env.rest doc).run (perform env))

/-- The worlds between two bundles. -/
inductive Reached : World D → Prop
  | initial : Reached (.initial env)
  | items {w : World D} (h : Reached w) (items : List Item) : Reached { w with items := items }
  | bundle {w : World D} (h : Reached w) (items : List Item) (doc : XmlDocument) :
      Reached (handleBundle env cfg items doc w).state
  | reception {w : World D} (h : Reached w) (address : Nat) (indeterminate : Int) (r : Reception) :
      Reached (w.receive address indeterminate r).1

theorem describeService_kept {w v : World D} {id : Str} (hp : Prepared env w id v) (usd : XmlElement) :
    ((describeService cfg items env.rest usd (w.describedService id)).run (perform env) v).Ensures
      (fun _ t => Kept (w.describedService id) (legacyBasePath cfg (basePathAfter env.rest
        (usd.firstChildElement appService) items v.basePath)) v t)
      (fun _ t => Kept (w.describedService id) (legacyBasePath cfg (basePathAfter env.rest
        (usd.firstChildElement appService) items v.basePath)) v t) := by
  have hmade : ∀ e ∈ (v.service (w.describedService id)).contentStreams.entries,
      e.2 < v.nextStream := by
    rw [hp.nextStream]
    exact hp.made
  have hself : Mirrors v.nextStream v.nextStream (w.describedService id) (w.describedService id)
      (legacyBasePath cfg (basePathAfter env.rest (usd.firstChildElement appService) items
        v.basePath)) v v := by
    constructor
    · rw [relocate_of_lt hmade]
    · rw [shift_of_le le_rfl, Nat.sub_self, Nat.zero_add]
    · exact le_rfl
    · exact hmade
    · exact fun _ _ => rfl
    · intro a ha ha'
      omega
  have hholds := (describeService_mirrored env cfg items usd hself le_rfl).holds
  exact ((hholds.invariant (fun call t ht hcall => ht.perform env hcall) (.refl hmade)).imp
    (fun _ _ h => h.2) (fun _ _ h => h.2)).ensures

/-- Handling a description keeps the middleware sound, and spares the services
of other ids. -/
theorem handleUserServiceDescription_spares {w : World D} (hw : Sound w) (usd : XmlElement) :
    let result := (handleUserServiceDescription cfg items env.rest usd).run (perform env) w
    Sound result.state ∧
      ∀ id, usd.attributeValue serviceId ≠ some id → Spares id w result.state := by
  cases hid : usd.attributeValue serviceId with
  | none =>
    have hrun : (handleUserServiceDescription cfg items env.rest usd).run (perform env) w =
        .error .logicError w := by
      unfold handleUserServiceDescription
      rw [hid]
      rfl
    rw [hrun]
    exact ⟨hw, fun id _ => .refl id w⟩
  | some id' =>
    have hp := hw.prepared env id'
    have hkept := describeService_kept env cfg items hp usd
    have hne : ∀ id, some id' ≠ some id → id ≠ id' := fun id h he => h (congrArg some he.symm)
    rw [run_handleUserServiceDescription env cfg items hid w]
    cases hrun : (describeService cfg items env.rest usd (w.describedService id')).run (perform env)
        (w.withDescribedService env id') with
    | error e t =>
      rw [hrun] at hkept
      exact ⟨hp.sound hw hkept, fun id h => hp.spares hw hkept (hne id h)⟩
    | ok u t =>
      rw [hrun] at hkept
      exact ⟨hp.sound_registered hw hkept, fun id h => hp.spares_registered hw hkept (hne id h)⟩

theorem handleAll_spares {w : World D} (hw : Sound w) (usds : List XmlElement) :
    let result := (usds.forM (handleUserServiceDescription cfg items env.rest)).run (perform env) w
    Sound result.state ∧
      ∀ id, (∀ usd ∈ usds, usd.attributeValue serviceId ≠ some id) → Spares id w result.state := by
  induction usds generalizing w with
  | nil => exact ⟨hw, fun id _ => .refl id w⟩
  | cons usd usds ih =>
    have hforM : (usd :: usds).forM (handleUserServiceDescription (D := D) cfg items env.rest) =
        handleUserServiceDescription cfg items env.rest usd >>= fun _ =>
          usds.forM (handleUserServiceDescription cfg items env.rest) := rfl
    obtain ⟨hsound, hspares⟩ := handleUserServiceDescription_spares env cfg items hw usd
    intro result
    have hresult : result = ((usd :: usds).forM
      (handleUserServiceDescription cfg items env.rest)).run (perform env) w := rfl
    rw [hforM, Program.run_bind] at hresult
    simp only [bind, EStateM.bind] at hresult
    cases hrun : (handleUserServiceDescription cfg items env.rest usd).run (perform env) w with
    | error e t =>
      rw [hrun] at hresult hsound hspares
      rw [hresult]
      exact ⟨hsound, fun id h => hspares id (h usd List.mem_cons_self)⟩
    | ok u t =>
      rw [hrun] at hresult hsound hspares
      rw [hresult]
      obtain ⟨hsound', hspares'⟩ := ih hsound
      refine ⟨hsound', fun id h => ?_⟩
      have h₁ := hspares id (h usd List.mem_cons_self)
      exact h₁.trans (hspares' id fun x hx => h x (List.mem_cons_of_mem usd hx))

theorem handleUserServiceDescription_basePath {w t : World D} (hw : Sound w) {usd : XmlElement}
    (h : (handleUserServiceDescription cfg items env.rest usd).run (perform env) w = .ok () t) :
    t.basePath = basePathAfter env.rest (usd.firstChildElement appService) items w.basePath := by
  cases hid : usd.attributeValue serviceId with
  | none =>
    unfold handleUserServiceDescription at h
    rw [hid] at h
    cases h
  | some id =>
    have hp := hw.prepared env id
    have hrun := (describeService_mirrored env cfg items usd
      (hp.mirrors hp (.refl id w)) le_rfl).run
    rw [run_handleUserServiceDescription env cfg items hid w] at h
    cases hr : (describeService cfg items env.rest usd (w.describedService id)).run (perform env)
        (w.withDescribedService env id) with
    | error e t' =>
      rw [hr] at h
      cases h
    | ok u t' =>
      rw [hr] at h hrun
      cases h
      rw [registerDescribed_frame, ← hp.basePath]
      exact hrun.2

def basePathsAfter (rest : CppRest) (items : List Item) (usds : List XmlElement) (basePath : Str) :
    Str :=
  usds.foldl (fun basePath usd => basePathAfter rest (usd.firstChildElement appService) items basePath)
    basePath

theorem handleAll_basePath {w t : World D} (hw : Sound w) {usds : List XmlElement}
    (h : (usds.forM (handleUserServiceDescription cfg items env.rest)).run (perform env) w =
      .ok () t) : t.basePath = basePathsAfter env.rest items usds w.basePath := by
  induction usds generalizing w with
  | nil =>
    cases h
    rfl
  | cons usd usds ih =>
    have hforM : (usd :: usds).forM (handleUserServiceDescription (D := D) cfg items env.rest) =
        handleUserServiceDescription cfg items env.rest usd >>= fun _ =>
          usds.forM (handleUserServiceDescription cfg items env.rest) := rfl
    have hsound := (handleUserServiceDescription_spares env cfg items hw usd).1
    rw [hforM, Program.run_bind] at h
    simp only [bind, EStateM.bind] at h
    cases hrun : (handleUserServiceDescription cfg items env.rest usd).run (perform env) w with
    | error e t' =>
      rw [hrun] at h
      cases h
    | ok u t' =>
      rw [hrun] at h hsound
      have hbase := handleUserServiceDescription_basePath env cfg items hw hrun
      refine (ih hsound h).trans ?_
      change basePathsAfter env.rest items usds t'.basePath = _
      rw [hbase]
      rfl

theorem view_of_find {w t : World D} (hw : Sound w) {id : Str} {u : XmlElement}
    (hid : u.attributeValue serviceId = some id)
    (hrun : (handleUserServiceDescription cfg items env.rest u).run (perform env) w = .ok () t)
    (hfind : w.services.find? id ≠ none) : (t.view id).isSome = true := by
  have hp := hw.prepared env id
  have hkept := describeService_kept env cfg items hp u
  rw [run_handleUserServiceDescription env cfg items hid w] at hrun
  cases hr : (describeService cfg items env.rest u (w.describedService id)).run (perform env)
      (w.withDescribedService env id) with
  | error e s =>
    rw [hr] at hrun
    cases hrun
  | ok _ s =>
    rw [hr] at hrun hkept
    cases hrun
    rw [view_registerDescribed (hkept.services.trans hp.services), if_neg (fun h => hfind h.1)]
    rfl

/-- One description handled in two middlewares that agree on its service. -/
theorem described_twice {w w' t : World D} (hw : Sound w) (hw' : Sound w') {id : Str}
    (hs : Spares id w w') {u : XmlElement} (hid : u.attributeValue serviceId = some id)
    (hrun : (handleUserServiceDescription cfg items env.rest u).run (perform env) w = .ok () t) :
    ∃ t', (handleUserServiceDescription cfg items env.rest u).run (perform env) w' = .ok () t' ∧
      ((t'.view id).isSome = (t.view id).isSome) ∧
      (legacyBasePath cfg (basePathAfter env.rest (u.firstChildElement appService) items w'.basePath) =
          legacyBasePath cfg (basePathAfter env.rest (u.firstChildElement appService) items w.basePath) →
        t'.view id = t.view id) ∧
      (w.services.find? id = none → (t.view id).isSome = true → t'.view id = t.view id →
        legacyBasePath cfg (basePathAfter env.rest (u.firstChildElement appService) items w'.basePath) =
          legacyBasePath cfg
            (basePathAfter env.rest (u.firstChildElement appService) items w.basePath)) := by
  have hp := hw.prepared env id
  have hp' := hw'.prepared env id
  have hkept := describeService_kept env cfg items hp u
  have hkept' := describeService_kept env cfg items hp' u
  have htwice := (describeService_mirrored env cfg items u
    (hp.mirrors hp' hs) hs.nextStream).run
  rw [run_handleUserServiceDescription env cfg items hid w] at hrun
  rw [run_handleUserServiceDescription env cfg items hid w']
  cases hr : (describeService cfg items env.rest u (w.describedService id)).run (perform env)
      (w.withDescribedService env id) with
  | error e s =>
    rw [hr] at hrun
    cases hrun
  | ok _ s =>
    rw [hr] at hrun htwice hkept
    cases hrun
    cases hr' : (describeService cfg items env.rest u (w'.describedService id)).run (perform env)
        (w'.withDescribedService env id) with
    | error e s' =>
      rw [hr'] at htwice
      exact htwice.elim
    | ok _ s' =>
      rw [hr'] at htwice hkept'
      obtain ⟨hmirror, -⟩ := htwice
      change Kept _ _ _ _ at hkept hkept'
      refine ⟨_, rfl, ?_⟩
      have hservices : s.services = w.services := hkept.services.trans hp.services
      have hservices' : s'.services = w'.services := hkept'.services.trans hp'.services
      have hsize : (s'.service (w'.describedService id)).contentStreams.size =
          (s.service (w.describedService id)).contentStreams.size := by
        rw [hmirror.service]
        exact OrdMap.size_map _ _
      rw [view_registerDescribed hservices, view_registerDescribed hservices', hs.find, hsize]
      rw [hp.basePath] at hkept
      rw [hp'.basePath] at hmirror
      by_cases hnone : w.services.find? id = none ∧
          (s.service (w.describedService id)).contentStreams.size = 0
      · rw [if_pos hnone, if_pos hnone]
        exact ⟨rfl, fun _ => rfl, fun _ h => by cases h⟩
      · rw [if_neg hnone, if_neg hnone]
        refine ⟨rfl, fun hbase => ?_, fun hnew _ hview => ?_⟩
        · rw [hbase] at hmirror
          refine congrArg some (hmirror.serviceView_eq fun a ha ha' => ?_)
          exact hkept.newBasePath a (hp.nextStream ▸ ha) ha'
        · have hview' := Option.some.inj hview
          unfold legacyBasePath at hkept hmirror ⊢
          split at hmirror
          · next hlegacy =>
            simp only [if_pos hlegacy] at hkept ⊢
            have hsize' : (s.service (w.describedService id)).contentStreams.size > 0 :=
              Nat.pos_of_ne_zero fun hzero => hnone ⟨hnew, hzero⟩
            have hfresh : ∀ e ∈ (s.service (w.describedService id)).contentStreams.entries,
                w.nextStream ≤ e.2 := by
              intro e he
              rcases (hkept.made e he).2 with hold | hmade
              · rw [(hp.fresh hnew).2] at hold
                cases hold
              · exact hp.nextStream ▸ hmade
            exact congrArg some (hmirror.basePath_eq hfresh
              (fun a ha ha' => hkept.newBasePath a (hp.nextStream ▸ ha) ha' _ rfl) hsize' hview')
          · next hlegacy => rw [if_neg hlegacy, if_neg hlegacy]

theorem handleAll_fault (usds : List XmlElement) (w : World D) :
    ((usds.forM (handleUserServiceDescription cfg items env.rest)).run (perform env) w).fault? =
      (usds.flatMap (userServiceDescriptionFaults D cfg env.rest items)).head? := by
  refine EStateM.Result.Ensures.head?_fault (Program.Holds.ensures
    (?_ : Handles env (fun _ _ => _ = []) (fun e _ => _ = some e) _ w))
  exact (Program.holds_forM (I := fun _ => True) (J := fun _ => True)
    (fun usd w' _ _ => (handleUserServiceDescription_handles cfg items usd w').imp
      (fun _ _ h => ⟨h, trivial⟩) (fun _ _ h => ⟨h, trivial⟩)) trivial).imp
    (fun _ _ h => h.1) (fun _ _ h => h.1)

/-- A bundle of user service descriptions. -/
def bundleOf (usds : List XmlElement) : XmlDocument := [.mk bundleDescription [] none usds]

theorem run_bundle {doc : XmlDocument} {bundle : XmlElement}
    (h : doc.firstChildElement bundleDescription = some bundle) (w : World D) :
    (ServiceAnnouncement.handleUserServiceDescriptionBundle cfg items env.rest doc).run (perform env)
        w =
      ((bundle.childElements userServiceDescription).forM
        (handleUserServiceDescription cfg items env.rest)).run (perform env) w := by
  unfold ServiceAnnouncement.handleUserServiceDescriptionBundle
  rw [h]
  rfl

theorem handleBundle_state (doc : XmlDocument) (w : World D) :
    (handleBundle env cfg items doc w).state =
      ((ServiceAnnouncement.handleUserServiceDescriptionBundle cfg items env.rest doc).run
        (perform env) w).state := by
  unfold handleBundle catchStdException
  split
  · next hr => rw [hr]
  · next hr =>
    rw [hr]
    split <;> rfl

theorem handleBundle_ok_iff {doc : XmlDocument} {bundle : XmlElement}
    (h : doc.firstChildElement bundleDescription = some bundle) (w : World D) :
    (∃ w', handleBundle env cfg items doc w = .ok () w') ↔
      uncaught ((bundle.childElements userServiceDescription).flatMap
        (userServiceDescriptionFaults D cfg env.rest items)) = [] := by
  have hfault := handleAll_fault env cfg items (bundle.childElements userServiceDescription) w
  rw [← run_bundle env cfg items h] at hfault
  unfold handleBundle catchStdException uncaught
  rw [← hfault]
  cases (ServiceAnnouncement.handleUserServiceDescriptionBundle cfg items env.rest doc).run
      (perform env) w with
  | ok u w' => exact iff_of_true ⟨w', rfl⟩ rfl
  | error e w' =>
    simp only [EStateM.Result.fault?]
    split
    · exact iff_of_true ⟨w', rfl⟩ rfl
    · refine iff_of_false ?_ (by simp)
      rintro ⟨_, hok⟩
      cases hok

theorem Reached.sound {w : World D} (h : Reached env cfg w) : Sound w := by
  induction h with
  | initial =>
    have hnone : ∀ (id : Str) (a : Nat), (World.initial env).services.find? id ≠ some a := by
      intro id a h
      cases h
    exact ⟨fun id a h => absurd h (hnone id a), fun id _ a h => absurd h (hnone id a),
      fun id a h => absurd h (hnone id a)⟩
  | items h items ih => exact ⟨ih.made, ih.distinct, ih.streams⟩
  | @bundle w h items doc ih =>
    rw [handleBundle_state]
    cases hdoc : doc.firstChildElement bundleDescription with
    | none =>
      unfold ServiceAnnouncement.handleUserServiceDescriptionBundle
      rw [hdoc]
      exact ih
    | some bundle =>
      rw [run_bundle env cfg items hdoc]
      exact (handleAll_spares env cfg items ih _).1
  | @reception w h address indeterminate r ih =>
    have hframe : ∃ stream memory, (w.receive address indeterminate r).1 =
        { w with stream := stream, memory := memory } := by
      have hstore : ∀ (isPlaylist : Bool)
          (x : Except Fault (SeamlessContentStream D × Memory D)), ∃ stream memory,
          (w.storeResult address isPlaylist x).1 = { w with stream := stream, memory := memory } := by
        intro isPlaylist x
        cases x with
        | ok st => exact ⟨_, _, rfl⟩
        | error e => exact ⟨w.stream, w.memory, rfl⟩
      unfold receive
      split
      · exact ⟨w.stream, _, rfl⟩
      · exact ⟨w.stream, w.memory, rfl⟩
      · exact hstore _ _
      · split
        · exact hstore _ _
        · exact ⟨w.stream, w.memory, rfl⟩
    obtain ⟨stream, memory, hw⟩ := hframe
    rw [hw]
    exact ⟨ih.made, ih.distinct, ih.streams⟩

/-- Announcements lead from one such world to another. -/
theorem Reached.parseBootstrap {w : World D} (h : Reached env cfg w) (str : Str) :
    (parseBootstrap env cfg str w).Ensures (fun _ w' => Reached env cfg w')
      (fun _ w' => Reached env cfg w') := by
  have hrevalidated : ∀ w' : World D, (w.addServiceAnnouncementItems env str).Revalidated w' →
      Reached env cfg w' := by
    intro w' hw'
    rw [hw'.frame]
    exact h.items w'.items
  apply EStateM.ensures_modify
  apply EStateM.ensures_get
  apply EStateM.ensures_bind
  apply (handleMbmsEnvelopes_ensures env _ _).mono
  · rintro _ w' ⟨-, hw'⟩
    apply EStateM.ensures_get
    apply EStateM.ensures_forM_of_keeps _ (hrevalidated w' hw')
    intro item v hv
    have hbundle := hv.bundle v.items (env.xml item.content)
    have hsame : World.handleUserServiceDescriptionBundle env cfg item v =
        handleBundle env cfg v.items (env.xml item.content) v := by
      simp only [World.handleUserServiceDescriptionBundle, handleBundle, catchStdException]
    rw [hsame]
    cases hr : handleBundle env cfg v.items (env.xml item.content) v with
    | ok u v' =>
      rw [hr] at hbundle
      exact hbundle
    | error e v' =>
      rw [hr] at hbundle
      exact hbundle
  · exact fun _ w' hw' => hrevalidated w' hw'.2

/-- The description comes to the same service in the bundle as on its own. -/
def Isolated (doc : XmlDocument) (u : XmlElement) (id : Str) (w : World D) : Prop :=
  ∃ w', handleBundle env cfg items doc w = .ok () w' ∧
    w'.view id = (handleBundle env cfg items (bundleOf [u]) w).state.view id

/-- On its own, the description leads to a registered service. -/
def Registers (u : XmlElement) (id : Str) (w : World D) : Prop :=
  ((handleBundle env cfg items (bundleOf [u]) w).state.view id).isSome = true

/-- No description ends the process, and if there is a service to be registered,
those before it neither stop the bundle nor leave another base path to it. -/
structure Undisturbed (pre : List XmlElement) (u : XmlElement) (post : List XmlElement) (id : Str)
    (w : World D) : Prop where
  survives : uncaught
    ((pre ++ u :: post).flatMap (userServiceDescriptionFaults D cfg env.rest items)) = []
  reached : Registers env cfg items u id w →
    pre.flatMap (userServiceDescriptionFaults D cfg env.rest items) = []
  basePath : Registers env cfg items u id w →
    legacyBasePath cfg (basePathAfter env.rest (u.firstChildElement appService) items
      (basePathsAfter env.rest items pre w.basePath)) =
    legacyBasePath cfg (basePathAfter env.rest (u.firstChildElement appService) items w.basePath)

theorem run_alone {u : XmlElement} (hu : u.name = userServiceDescription) (w : World D) :
    (ServiceAnnouncement.handleUserServiceDescriptionBundle cfg items env.rest (bundleOf [u])).run
        (perform env) w =
      (handleUserServiceDescription cfg items env.rest u).run (perform env) w := by
  have hchildren : (XmlElement.mk bundleDescription [] none [u]).childElements
      userServiceDescription = [u] := by simp [XmlElement.childElements, hu]
  have hforM : [u].forM (handleUserServiceDescription (D := D) cfg items env.rest) =
      handleUserServiceDescription cfg items env.rest u >>= fun _ => pure () := rfl
  have hdoc : (bundleOf [u]).firstChildElement bundleDescription =
      some (.mk bundleDescription [] none [u]) := rfl
  rw [run_bundle env cfg items hdoc, hchildren, hforM, bind_pure_unit]

/-- A bundle up to one of its descriptions, and behind it. -/
theorem run_split (pre : List XmlElement) (u : XmlElement) (post : List XmlElement) (w : World D) :
    ((pre ++ u :: post).forM (handleUserServiceDescription cfg items env.rest)).run (perform env) w =
      match (pre.forM (handleUserServiceDescription cfg items env.rest)).run (perform env) w with
      | .error e w' => .error e w'
      | .ok _ w' =>
        match (handleUserServiceDescription cfg items env.rest u).run (perform env) w' with
        | .error e w' => .error e w'
        | .ok _ w' =>
          (post.forM (handleUserServiceDescription cfg items env.rest)).run (perform env) w' := by
  have hforM : (pre ++ u :: post).forM (handleUserServiceDescription (D := D) cfg items env.rest) =
      pre.forM (handleUserServiceDescription cfg items env.rest) >>= fun _ =>
        handleUserServiceDescription cfg items env.rest u >>= fun _ =>
          post.forM (handleUserServiceDescription cfg items env.rest) := List.forM_append
  rw [hforM, Program.run_bind]
  simp only [bind, EStateM.bind]
  split
  · next w' hr =>
    rw [hr]
    dsimp only
    change ((handleUserServiceDescription cfg items env.rest u >>= fun _ => _).run (perform env) w') = _
    rw [Program.run_bind]
    simp only [bind, EStateM.bind]
    cases (handleUserServiceDescription cfg items env.rest u).run (perform env) w' <;> rfl
  · next hr => rw [hr]

theorem otherId_of_nodup {pre : List XmlElement} {u : XmlElement} {post : List XmlElement} {id : Str}
    (hids : ((pre ++ u :: post).filterMap (·.attributeValue serviceId)).Nodup)
    (hid : u.attributeValue serviceId = some id) :
    ∀ v, v ∈ pre ∨ v ∈ post → v.attributeValue serviceId ≠ some id := by
  rw [List.filterMap_append, List.filterMap_cons, hid, List.nodup_append] at hids
  obtain ⟨-, hpost, hpre⟩ := hids
  rintro v (hv | hv) hvid
  · exact hpre id (List.mem_filterMap.mpr ⟨v, hv, hvid⟩) id List.mem_cons_self rfl
  · exact (List.nodup_cons.mp hpost).1 (List.mem_filterMap.mpr ⟨v, hv, hvid⟩)

/-- A bundle isolates the description if no exception leaves it and the service
ends up as it does on its own. -/
theorem isolated_iff_view {w t : World D} {doc : XmlDocument} {bundle : XmlElement}
    (hdoc : doc.firstChildElement bundleDescription = some bundle) {usds : List XmlElement}
    (husds : bundle.childElements userServiceDescription = usds) {u : XmlElement} (id : Str)
    (halone : (handleBundle env cfg items (bundleOf [u]) w).state = t) :
    Isolated env cfg items doc u id w ↔
      uncaught (usds.flatMap (userServiceDescriptionFaults D cfg env.rest items)) = [] ∧
      ((usds.forM (handleUserServiceDescription cfg items env.rest)).run
        (perform env) w).state.view id = t.view id := by
  have hok := handleBundle_ok_iff env cfg items hdoc w
  have hstate := handleBundle_state env cfg items doc w
  rw [husds] at hok
  rw [run_bundle env cfg items hdoc, husds] at hstate
  rw [← hok, ← hstate, Isolated, halone]
  constructor
  · rintro ⟨w', hw', hv⟩
    rw [hw']
    exact ⟨⟨w', rfl⟩, hv⟩
  · rintro ⟨⟨w', hw'⟩, hv⟩
    rw [hw'] at hv
    exact ⟨w', hw', hv⟩

/-- A description that leads to no service found none. -/
theorem view_none_of_described_none {w t : World D} (hsound : Sound w) {u : XmlElement} {id : Str}
    (hid : u.attributeValue serviceId = some id)
    (hrun : (handleUserServiceDescription cfg items env.rest u).run (perform env) w = .ok () t)
    (hnone : t.view id = none) : w.view id = none := by
  have hnew : w.services.find? id = none := by
    by_contra hfind
    have hsome := view_of_find env cfg items hsound hid hrun hfind
    rw [hnone] at hsome
    cases hsome
  rw [view, hnew]
  rfl

/-- A description that an exception before it keeps from being handled leaves its
service as it was. -/
theorem view_of_unreached {w w₁ : World D} (hsound : Sound w) {pre : List XmlElement}
    (u : XmlElement) (post : List XmlElement) {id : Str}
    (hothers : ∀ v ∈ pre, v.attributeValue serviceId ≠ some id) {e : Fault}
    (hpre : (pre.forM (handleUserServiceDescription cfg items env.rest)).run (perform env) w =
      .error e w₁) :
    pre.flatMap (userServiceDescriptionFaults D cfg env.rest items) ≠ [] ∧
      (((pre ++ u :: post).forM (handleUserServiceDescription cfg items env.rest)).run
        (perform env) w).state.view id = w.view id := by
  have hfault := handleAll_fault env cfg items pre w
  have hspares := (handleAll_spares env cfg items hsound pre).2 id hothers
  rw [run_split]
  rw [hpre] at hfault hspares ⊢
  constructor
  · intro hnone
    rw [hnone] at hfault
    cases hfault
  · change Spares id w w₁ at hspares
    exact hspares.view_eq hsound

/-- A description that is handled behind others, compared with the same one on
its own: what comes behind it does not matter. -/
theorem view_of_reached {w w₁ t : World D} (hsound : Sound w) {pre : List XmlElement}
    {u : XmlElement} {post : List XmlElement} {id : Str} (hid : u.attributeValue serviceId = some id)
    (hothers : ∀ v, v ∈ pre ∨ v ∈ post → v.attributeValue serviceId ≠ some id)
    (hrun : (handleUserServiceDescription cfg items env.rest u).run (perform env) w = .ok () t)
    (hpre : (pre.forM (handleUserServiceDescription cfg items env.rest)).run (perform env) w =
      .ok () w₁) :
    let s := (((pre ++ u :: post).forM (handleUserServiceDescription cfg items env.rest)).run
      (perform env) w).state
    let samePath := legacyBasePath cfg (basePathAfter env.rest (u.firstChildElement appService) items
        (basePathsAfter env.rest items pre w.basePath)) =
      legacyBasePath cfg (basePathAfter env.rest (u.firstChildElement appService) items w.basePath)
    pre.flatMap (userServiceDescriptionFaults D cfg env.rest items) = [] ∧
      (s.view id).isSome = (t.view id).isSome ∧ (samePath → s.view id = t.view id) ∧
      (w.services.find? id = none → (t.view id).isSome = true → s.view id = t.view id →
        samePath) := by
  intro s samePath
  have hfault := handleAll_fault env cfg items pre w
  obtain ⟨hsound₁, hspares⟩ := handleAll_spares env cfg items hsound pre
  have hspares := hspares id fun v hv => hothers v (.inl hv)
  rw [hpre] at hfault hsound₁ hspares
  change Sound w₁ at hsound₁
  change Spares id w w₁ at hspares
  obtain ⟨t', hrun', htwice⟩ := described_twice env cfg items hsound hsound₁ hspares hid hrun
  have hsound' := (handleUserServiceDescription_spares env cfg items hsound₁ u).1
  rw [hrun'] at hsound'
  change Sound t' at hsound'
  have hs : s.view id = t'.view id := by
    have hpost := (handleAll_spares env cfg items hsound' post).2 id fun v hv => hothers v (.inr hv)
    unfold s
    rw [run_split, hpre]
    dsimp only
    rw [hrun']
    exact hpost.view_eq hsound'
  have hbase := handleAll_basePath env cfg items hsound hpre
  rw [hbase, ← hs] at htwice
  exact ⟨List.head?_eq_none_iff.mp hfault.symm, htwice⟩

theorem isolated_iff {w : World D} (hw : Reached env cfg w) {doc : XmlDocument}
    {bundle : XmlElement} (hdoc : doc.firstChildElement bundleDescription = some bundle)
    {pre : List XmlElement} {u : XmlElement} {post : List XmlElement}
    (husds : bundle.childElements userServiceDescription = pre ++ u :: post)
    (hids : ((pre ++ u :: post).filterMap (·.attributeValue serviceId)).Nodup) {id : Str}
    (hid : u.attributeValue serviceId = some id)
    (halone : ((ServiceAnnouncement.handleUserServiceDescriptionBundle cfg items env.rest
      (bundleOf [u])).run (perform env) w).fault? = none) :
    (Undisturbed env cfg items pre u post id w → Isolated env cfg items doc u id w) ∧
    (w.services.find? id = none →
      Isolated env cfg items doc u id w → Undisturbed env cfg items pre u post id w) := by
  have hsound := hw.sound
  have hu : u.name = userServiceDescription := by
    have hm : u ∈ bundle.childElements userServiceDescription := by simp [husds]
    cases bundle
    simpa using (List.mem_filter.mp hm).2
  have hothers := otherId_of_nodup hids hid
  have halonestate : (handleBundle env cfg items (bundleOf [u]) w).state =
      ((handleUserServiceDescription cfg items env.rest u).run (perform env) w).state := by
    rw [handleBundle_state, run_alone env cfg items hu]
  rw [run_alone env cfg items hu] at halone
  cases hrun : (handleUserServiceDescription cfg items env.rest u).run (perform env) w with
  | error e t =>
    rw [hrun] at halone
    cases halone
  | ok _ t =>
    rw [hrun] at halonestate
    change _ = t at halonestate
    have hregisters : Registers env cfg items u id w ↔ (t.view id).isSome = true := by
      rw [Registers, halonestate]
    rw [isolated_iff_view env cfg items hdoc husds id halonestate]
    cases hpre : (pre.forM (handleUserServiceDescription cfg items env.rest)).run (perform env) w with
    | error e w₁ =>
      obtain ⟨hfaults, hsame⟩ := view_of_unreached env cfg items hsound u post
        (fun v hv => hothers v (.inl hv)) hpre
      rw [hsame]
      constructor
      · rintro ⟨hsurvives, hreached, -⟩
        have hnone : t.view id = none := by
          cases hv : t.view id with
          | none => rfl
          | some _ =>
            exact absurd (hreached (hregisters.mpr (by rw [hv]; rfl))) hfaults
        exact ⟨hsurvives, by rw [hnone, view_none_of_described_none env cfg items hsound hid hrun hnone]⟩
      · rintro hnew ⟨hsurvives, hv⟩
        have hnone : t.view id = none := by
          rw [← hv, view, hnew]
          rfl
        have hno : ¬ Registers env cfg items u id w := by
          rw [hregisters, hnone]
          simp
        exact ⟨hsurvives, fun h => absurd h hno, fun h => absurd h hno⟩
    | ok _ w₁ =>
      obtain ⟨hfaults, hsome, hsame, hsame'⟩ :=
        view_of_reached env cfg items hsound hid hothers hrun hpre
      constructor
      · rintro ⟨hsurvives, -, hpath⟩
        refine ⟨hsurvives, ?_⟩
        cases hv : t.view id with
        | none =>
          rw [hv] at hsome
          exact Option.isNone_iff_eq_none.mp (by simpa using hsome)
        | some sv =>
          rw [← hv]
          exact hsame (hpath (hregisters.mpr (by rw [hv]; rfl)))
      · rintro hnew ⟨hsurvives, hv⟩
        exact ⟨hsurvives, fun _ => hfaults, fun hreg => hsame' hnew (hregisters.mp hreg) hv⟩

section Example

def announcedAs (id manifest sdp : Str) (pattern : XmlElement) : XmlElement :=
  .mk userServiceDescription [(serviceId, id)] none
    [.mk appService [(mimeType, ContentTypeConstants.dash), (appServiceDescriptionUri, manifest)]
      none [],
      .mk deliveryMethod [(sessionDescriptionUri, sdp)] none
        [.mk broadcastAppService [] none [pattern]]]

def dashService : XmlElement :=
  announcedAs "u".toList "e/u.mpd".toList "e/u.sdp".toList
    (.mk basePattern [] (some "e/".toList) [])

def dashNeighbour : XmlElement :=
  announcedAs "v".toList "d/v.mpd".toList "d/v.sdp".toList
    (.mk basePattern [] (some "d/".toList) [])

/-- A base pattern without text. -/
def brokenNeighbour : XmlElement :=
  announcedAs "v".toList "d/v.mpd".toList "d/v.sdp".toList (.mk basePattern [] none [])

def neighbourManifest : Item where
  contentType := ContentTypeConstants.dash
  uri := "d/v.mpd".toList
  content := []

def inFormat (format : Str) : Config where
  bootstrapFormat := some format

theorem isolated_from_neighbour :
    Isolated bareEnvironment (inFormat ServiceAnnouncementFormatConstants.fivegMagBcUc)
      [neighbourManifest] (bundleOf [dashNeighbour, dashService]) dashService "u".toList
      (World.initial bareEnvironment) := by
  have hdoc : (bundleOf [dashNeighbour, dashService]).firstChildElement bundleDescription =
      some (.mk bundleDescription [] none [dashNeighbour, dashService]) := rfl
  have husds : (XmlElement.mk bundleDescription [] none
      [dashNeighbour, dashService]).childElements userServiceDescription =
      [dashNeighbour] ++ dashService :: [] := rfl
  refine (isolated_iff bareEnvironment (inFormat ServiceAnnouncementFormatConstants.fivegMagBcUc)
    [neighbourManifest] .initial hdoc husds (by decide) (by decide) (by decide +kernel)).1 ?_
  exact ⟨by decide +kernel, fun _ => by decide +kernel, fun _ => rfl⟩

/-- A service gets the base path of a service before it in the legacy format, and
is not registered behind a description that cannot be read. -/
theorem neighbours_interfere :
    (∀ format ∈ [ServiceAnnouncementFormatConstants.fivegMagLegacy,
        ServiceAnnouncementFormatConstants.fivegMagBcUc],
      ((ServiceAnnouncement.handleUserServiceDescriptionBundle (inFormat format) [neighbourManifest]
        bareEnvironment.rest (bundleOf [dashService])).run (perform bareEnvironment)
          (World.initial bareEnvironment)).fault? = none) ∧
    ¬ Isolated bareEnvironment (inFormat ServiceAnnouncementFormatConstants.fivegMagLegacy)
      [neighbourManifest] (bundleOf [dashNeighbour, dashService]) dashService "u".toList
      (World.initial bareEnvironment) ∧
    ¬ Isolated bareEnvironment (inFormat ServiceAnnouncementFormatConstants.fivegMagBcUc)
      [neighbourManifest] (bundleOf [brokenNeighbour, dashService]) dashService "u".toList
      (World.initial bareEnvironment) := by
  have hinterfere : ∀ (format : Str) (usds : List XmlElement),
      (handleBundle bareEnvironment (inFormat format) [neighbourManifest] (bundleOf usds)
        (World.initial bareEnvironment)).state.view "u".toList ≠
      (handleBundle bareEnvironment (inFormat format) [neighbourManifest] (bundleOf [dashService])
        (World.initial bareEnvironment)).state.view "u".toList →
      ¬ Isolated bareEnvironment (inFormat format) [neighbourManifest] (bundleOf usds) dashService
        "u".toList (World.initial bareEnvironment) := by
    rintro format usds hne ⟨w', hw', hview⟩
    rw [hw'] at hne
    exact hne hview
  exact ⟨by decide +kernel, hinterfere _ _ (by decide +kernel), hinterfere _ _ (by decide +kernel)⟩

end Example

end World

end MbmsMiddleware
