import MbmsMiddleware.SetupOwners

/-! Whether announcements leave every generated entry with its owner. A new
service has its entry before it is registered, and is registered only if its
description does not fail and it has streams. -/

namespace MbmsMiddleware

open ServiceAnnouncementXmlElements ServiceAnnouncement Registry

namespace World

variable {D : Type} [DoubleText D] {env : Environment D} {services : OrdMap Str Nat}
  {own : Option Nat} {w : World D} {t : World D × List (MiddlewareCall D × World D)} (cfg : Config)
  (items : List Item)

section Descriptions

theorem handleAppService_keeping {service : Nat} (hservice : Serving services own service)
    (appService : Option XmlElement) (h : Owning env services own [] t) :
    Keeping env (fun _ t' => Owning env services own [] t')
      (handleAppService items service env.rest appService) t := by
  unfold handleAppService
  apply Program.yields_bind
  apply Program.yields_ofExcept
  cases appService with
  | none => exact fun _ => ⟨services, own, _, h⟩
  | some app =>
    apply Program.yields_bind
    apply Program.yields_ofExcept
    cases app.attributeValue mimeType with
    | none => exact fun _ => ⟨services, own, _, h⟩
    | some mime =>
      apply Program.yields_bind
      apply (setDeliveryProtocol_keeping h service mime).imp
      · intro _ t₁ ht₁
        refine Program.yields_forM (I := fun _ t' => Owning env services own [] t') ?_ ht₁
        intro item l t' ht'
        apply Program.yields_bind
        apply Program.yields_ofExcept
        cases app.attributeValue appServiceDescriptionUri with
        | none => exact fun _ => ⟨services, own, _, ht'⟩
        | some descriptionUri =>
          change Keeping env _ (if item.uri = descriptionUri then _ else _) t'
          split_ifs
          · cases env.rest.uri item.uri with
            | none => exact fun _ => ⟨services, own, _, ht'⟩
            | some uri =>
              apply Program.yields_bind
              apply (readMasterManifest_keeping ht' hservice item.content (basePathOf uri)).imp
              · intro _ t'' ht''
                apply Program.yields_logged (MiddlewareCall.setBasePath (basePathOf uri))
                exact fun _ => .after ht''.owners ht''.awaited rfl
              · exact fun _ _ he => he
          · exact ht'
      · exact fun _ _ he => he

theorem describeService_keeping {service : Nat} (hservice : Serving services own service)
    (usd : XmlElement) (h : Owning env services own [] t) :
    Keeping env (fun _ t' => Owning env services own [] t')
      (describeService cfg items env.rest usd service) t := by
  unfold describeService
  apply Program.yields_bind
  apply (Program.yields_forM (I := fun _ t' => Owning env services own [] t') ?_ h).imp
  · intro _ t₁ ht₁
    apply Program.yields_bind
    apply (handleAppService_keeping items hservice (usd.firstChildElement appService) ht₁).imp
    · intro _ t₂ ht₂
      apply Program.yields_bind
      apply Program.yields_logged (MiddlewareCall.deliveryProtocol service)
      intro _
      apply Program.yields_bind
      apply Program.yields_logged MiddlewareCall.basePath
      intro _
      exact setup_keeping cfg items _ hservice _ (usd.firstChildElement appService) usd
        ⟨ht₂.owners, by rw [awaited_append, awaited_append]; exact ht₂.awaited⟩
    · exact fun _ _ he => he
  · exact fun _ _ he => he
  · intro name l t' ht'
    split
    · exact addName_keeping ht' service _ _
    · exact ht'

/-- Nothing is left to be registered or added. -/
def Settled (w : World D) : Prop := Owners w.registry.services none [] w.registry

/-- A new service is registered, or given up without having been anyone's owner. -/
theorem registerUsed_keeping {id : Str} {service : Nat} (hid : services.find? id = none)
    (h : Owners services (some service) [] t.1.registry)
    (hnew : ¬ t.1.registry.Registered service) :
    Keeping env (fun _ t' => t'.1.Settled) (registerUsed id service true) t := by
  apply Program.yields_bind
  apply Program.yields_logged (MiddlewareCall.contentStreamCount service)
  intro hkeep
  have hsize := hkeep hnew
  change Keeping env _ (if true = true ∧ (t.1.service service).contentStreams.size > 0 then _ else _) _
  split_ifs with hcount
  · apply Program.yields_logged (MiddlewareCall.setService id service)
    intro _
    have hregistered := h.register hid
    rw [← h.same] at hregistered
    exact hregistered
  · have hempty : (t.1.service service).contentStreams.size = 0 := by
      have hnot : ¬ (t.1.service service).contentStreams.size > 0 := fun hc => hcount ⟨rfl, hc⟩
      omega
    have hnone : ∀ k, (t.1.registry.contentStreams service).find? k = none := by
      intro k
      apply OrdMap.find?_eq_none.mpr
      have hkeys : (t.1.service service).contentStreams.keys = [] := by
        rw [← List.length_eq_zero_iff, ← OrdMap.size_eq_length_keys, hempty]
      change k ∉ (t.1.service service).contentStreams.keys
      rw [hkeys]
      exact List.not_mem_nil
    have hdiscarded := h.discard hnone (fun hg => hcount ⟨rfl, hsize hg⟩)
    rw [← h.same] at hdiscarded
    exact hdiscarded

theorem handleUserServiceDescription_keeping (usd : XmlElement) (h : w.Settled) :
    Keeping env (fun _ t' => t'.1.Settled)
      (handleUserServiceDescription cfg items env.rest usd) (w, []) := by
  cases hid : usd.attributeValue serviceId with
  | none =>
    unfold handleUserServiceDescription
    rw [hid]
    exact fun _ => ⟨_, _, _, h, h.awaited⟩
  | some id =>
    rw [handleUserServiceDescription_eq cfg items env.rest hid]
    apply Program.yields_bind
    apply Program.yields_logged (MiddlewareCall.getService id)
    intro _
    have hcall : perform env (.getService id) w = .ok (w.services.find? id) w := rfl
    rw [hcall]
    cases hfind : w.services.find? id with
    | some service =>
      have hserving : Serving w.registry.services none service := .inr ⟨id, hfind⟩
      have howning : Owning env w.registry.services none [] (w, [(.getService id, w)]) :=
        ⟨h, h.awaited⟩
      apply Program.yields_bind
      apply (describeService_keeping cfg items hserving usd howning).imp
      · intro _ t' ht'
        apply Program.yields_bind
        apply Program.yields_logged (MiddlewareCall.contentStreamCount service)
        intro _
        change Keeping env _ (if false = true ∧ _ then _ else _) _
        rw [if_neg (fun hf => by cases hf.1)]
        have hsettled : Owners t'.1.registry.services none [] t'.1.registry := by
          rw [ht'.owners.same]
          exact ht'.owners
        exact hsettled
      · exact fun _ _ he => he
    | none =>
      apply Program.yields_bind
      apply Program.yields_logged MiddlewareCall.newService
      intro _
      apply (registry_newService env w).mono
      · rintro service w₁ ⟨rfl, hw₁⟩
        have hnew : Owning env w.registry.services (some w.registry.nextService) []
            (w₁, [(.getService id, w), (.newService, w)]) := by
          constructor
          · rw [hw₁]
            exact h.newService _
          · rw [hw₁]
            exact h.awaited.newService h _
        apply Program.yields_bind
        apply (describeService_keeping cfg items (.inl rfl) usd hnew).imp
        · intro _ t' ht'
          refine registerUsed_keeping hfind ht'.owners ?_
          rintro ⟨id', hid'⟩
          rw [ht'.owners.same] at hid'
          exact lt_irrefl _ (h.made _ (.inr ⟨id', hid'⟩))
        · exact fun _ _ he => he
      · exact fun _ _ hf => hf.elim

end Descriptions

section Announcements

variable (env)

/-- The calls of a description keep the owners, and where it fails its calls
have given no entry to an owner that is not registered since. -/
def DescriptionKeepsOwners (usd : XmlElement) (w : World D) : Prop :=
  Program.Holds (Program.logged (perform env)) (fun call t => KeepsOwners env call t.1)
    (fun _ _ => True) (fun e t => e.isStdException = true → awaited env t.2 = [])
    (handleUserServiceDescription cfg items env.rest usd) (w, [])

def descriptions (doc : XmlDocument) : List XmlElement :=
  (doc.firstChildElement bundleDescription).elim [] (·.childElements userServiceDescription)

/-- Every description of a bundle that is reached meets the condition. -/
def BundleKeepsOwners (item : Item) (w : World D) : Prop :=
  EStateM.RoundsMeet
    (fun usd => (handleUserServiceDescription cfg w.items env.rest usd).run (perform env))
    (DescriptionKeepsOwners env cfg w.items) (descriptions (env.xml item.content)) w

/-- The condition on an announcement. -/
def AnnouncementKeepsOwners (str : Str) (w : World D) : Prop :=
  match Session.readAnnouncement env str w with
  | .ok bundles w' => EStateM.RoundsMeet (World.handleUserServiceDescriptionBundle env cfg)
      (BundleKeepsOwners env cfg) bundles w'
  | .error _ _ => True

instance (usd : XmlElement) (w : World D) : Decidable (DescriptionKeepsOwners env cfg items usd w) :=
  inferInstanceAs (Decidable (Program.Holds ..))

instance (item : Item) (w : World D) : Decidable (BundleKeepsOwners env cfg item w) :=
  inferInstanceAs (Decidable (EStateM.RoundsMeet ..))

instance (str : Str) (w : World D) : Decidable (AnnouncementKeepsOwners env cfg str w) := by
  unfold AnnouncementKeepsOwners
  split <;> infer_instance

variable {env}

theorem Settled.handleDescription {usd : XmlElement} (h : w.Settled)
    (hk : DescriptionKeepsOwners env cfg items usd w) :
    ((handleUserServiceDescription cfg items env.rest usd).run (perform env) w).Ensures
      (fun _ w' => w'.Settled) (fun e w' => e.isStdException = true → w'.Settled) := by
  have hrun := (handleUserServiceDescription_keeping cfg items usd h).of_holds hk
  apply Program.ensures_of_logged (l := [])
  apply hrun.mono
  · exact fun _ _ hsettled => hsettled.1
  · rintro e t ⟨howning, hnone⟩ he
    obtain ⟨services, own, pending, ht⟩ := howning he
    have hawaited := ht.awaited
    rw [hnone he] at hawaited
    exact ht.owners.of_awaited hawaited

theorem Settled.handleBundle {item : Item} (h : w.Settled) (hk : BundleKeepsOwners env cfg item w) :
    (World.handleUserServiceDescriptionBundle env cfg item w).Ensures (fun _ w' => w'.Settled)
      (fun _ _ => True) := by
  have hrun : ((ServiceAnnouncement.handleUserServiceDescriptionBundle cfg w.items env.rest
      (env.xml item.content)).run (perform env) w).Ensures (fun _ w' => w'.Settled)
        (fun e w' => e.isStdException = true → w'.Settled) := by
    unfold BundleKeepsOwners descriptions at hk
    unfold ServiceAnnouncement.handleUserServiceDescriptionBundle
    cases hdoc : (env.xml item.content).firstChildElement bundleDescription with
    | none => exact fun _ => h
    | some bundle =>
      rw [hdoc] at hk
      change (Program.run (perform env) ((bundle.childElements userServiceDescription).forM
        (handleUserServiceDescription cfg w.items env.rest)) w).Ensures _ _
      rw [Program.run_forM]
      exact hk.ensures (fun usd w' hw' hkw' => hw'.handleDescription cfg w.items hkw') h
  simp only [World.handleUserServiceDescriptionBundle, catchStdException]
  cases hr : (ServiceAnnouncement.handleUserServiceDescriptionBundle cfg w.items env.rest
      (env.xml item.content)).run (perform env) w with
  | ok u w' =>
    rw [hr] at hrun
    exact hrun
  | error e w' =>
    rw [hr] at hrun
    dsimp only
    split_ifs with he
    · exact hrun he
    · trivial

theorem Settled.parseBootstrap {str : Str} (h : w.Settled)
    (hk : AnnouncementKeepsOwners env cfg str w) :
    (World.parseBootstrap env cfg str w).Ensures (fun _ w' => w'.Settled) (fun _ _ => True) := by
  have hparse : World.parseBootstrap env cfg str =
      Session.readAnnouncement env str >>= fun bundles =>
        bundles.forM (World.handleUserServiceDescriptionBundle env cfg) := by
    simp only [World.parseBootstrap, Session.readAnnouncement, bind_assoc, pure_bind]
  have hread := Session.readAnnouncement_registry env str w
  unfold AnnouncementKeepsOwners at hk
  rw [hparse]
  apply EStateM.ensures_bind
  cases hr : Session.readAnnouncement env str w with
  | ok bundles w' =>
    rw [hr] at hread hk
    apply EStateM.RoundsMeet.ensures (fun item v hv hkv => hv.handleBundle cfg hkv) hk
    change Owners w'.registry.services none [] w'.registry
    rw [(hread : w'.registry = w.registry)]
    exact h
  | error e w' => trivial

omit [DoubleText D] in
variable (env) in
theorem settled_initial [DoubleText D] : (World.initial env).Settled := by
  have hempty : ∀ key owner, ¬ (World.initial env).registry.Generates key owner := by
    rintro key owner ⟨location, receivedAt, hfind⟩
    cases hfind
  constructor
  · rfl
  · intro a ha
    obtain ⟨id, hid⟩ := serving_none.mp ha
    cases hid
  · simp
  · exact fun key a hg => absurd hg (hempty key _)
  · exact fun key a hg => absurd hg (hempty key _)

end Announcements

section Example

/-- A service that can be had from the CDN only. -/
def cdnOnly : XmlElement :=
  .mk userServiceDescription [(serviceId, "u".toList)] none
    [.mk appService [(mimeType, ContentTypeConstants.dash),
        (appServiceDescriptionUri, "/e/u.mpd".toList)] none
      [.mk alternativeContent [] none [.mk basePattern [] (some "/e/s.mpd".toList) []]]]

def cdnEnvironment : Environment Int :=
  { bareEnvironment with
    xml := fun _ => [.mk bundleDescription [] none [cdnOnly]]
    mimeParts := fun _ =>
      [⟨ContentTypeConstants.mbmsUserServiceDescription, some "usd.xml".toList, []⟩,
        ⟨ContentTypeConstants.dash, some "/e/u.mpd".toList, []⟩] }

end Example

end World

end MbmsMiddleware
