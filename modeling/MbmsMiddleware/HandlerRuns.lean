import MbmsMiddleware.HandlerFaults
import MbmsMiddleware.Registry
import MbmsMiddleware.StreamStarts

/-! The handlers of the user service descriptions run into the faults of what
they handle. -/

namespace MbmsMiddleware

open ServiceAnnouncementXmlElements

namespace ServiceAnnouncement

variable {D : Type} [DoubleText D] {env : Environment D} {service n : Nat} (cfg : Config)
  (items : List Item)

theorem DeliveryFormat.run_faults (F : DeliveryFormat env service n) {streams : F.Streams}
    {w : World D} (hn : n ≤ w.ledger.next) (hs : F.Settled streams w.ledger)
    (ds : List XmlElement) :
    Does env service n
      (fun _ _ => deliveryFaults F.faults F.flute (F.older streams w.ledger) ds = [])
      (fun e _ => (deliveryFaults F.faults F.flute (F.older streams w.ledger) ds).head? = some e)
      (ds.foldlM F.step streams) w := by
  induction ds generalizing streams w with
  | nil => exact rfl
  | cons d ds ih =>
    rw [List.foldlM_cons, deliveryFaults]
    refine Program.holds_bind ((F.step_does hn hs d).imp ?_ ?_)
    · rintro streams' w₁ ⟨hf, holder, _, _, hs₁, hnext, _, _, hflute, _⟩
      rw [hf, holder, List.nil_append, if_neg (by simp), ← hflute]
      exact ih (hn.trans hnext) hs₁
    · rintro e w₁ (⟨he, _⟩ | ⟨hf, rfl, holder, _⟩)
      · rw [List.head?_append, he]
        rfl
      · rw [hf, holder]
        rfl

theorem setup_faults (protocol : DeliveryProtocol) (basePath : Str)
    (appService : Option XmlElement) (usd : XmlElement) (w : World D) :
    Does env service w.nextStream
      (fun _ _ => setupFaults D cfg env.rest items protocol appService usd = [])
      (fun e _ => (setupFaults D cfg env.rest items protocol appService usd).head? = some e)
      (setup cfg items protocol service basePath appService usd) w := by
  unfold setup setupFaults
  dsimp only
  split
  · rw [setupBy5GMagConfig,
      deliveryMethodBy5GMagConfig_eq env service w.nextStream cfg items protocol appService]
    exact Program.holds_bind ((DeliveryFormat.run_faults
      (format5GMagConfig env service w.nextStream cfg items protocol appService) le_rfl
      (DeliveryFormat.settled_none _) _).imp (fun _ _ h => h) (fun _ _ h => h))
  · split
    · rw [setupBy5GMagLegacyFormat,
        deliveryMethodByLegacyFormat_eq env service w.nextStream cfg items protocol basePath,
        ← faultsByLegacyFormat_eq cfg items protocol basePath,
        ← fluteByLegacyFormat_eq cfg items protocol basePath]
      exact Program.holds_bind ((DeliveryFormat.run_faults
        (formatLegacy env service w.nextStream cfg items protocol basePath) le_rfl
        (DeliveryFormat.settled_none _) _).imp (fun _ _ h => h) (fun _ _ h => h))
    · exact (setupByAlternativeContentElement_does cfg items protocol appService usd w le_rfl).imp
        (fun _ _ h => h.1) (fun _ _ h => h.1)

section Handlers

abbrev Handles (env : Environment D) {α : Type} (Q : α → World D → Prop) (E : Fault → World D → Prop)
    (p : Handler D α) (w : World D) : Prop :=
  Program.Holds (World.perform env) (fun _ _ => True) Q E p w

theorem call_handles (call : MiddlewareCall D) {Q : call.Result → World D → Prop}
    {E : Fault → World D → Prop} {w : World D} (h : (World.perform env call w).Ensures Q E) :
    Handles env Q E (Program.perform call) w :=
  ⟨trivial, h⟩

theorem forM_handles {f : XmlElement → Handler D Unit}
    (hf : ∀ name w, Handles env (fun _ _ => True) (fun _ _ => False) (f name) w)
    (names : List XmlElement) {α : Type} (r : α) (w : World D) :
    Handles env (fun _ _ => True) (fun _ _ => False) (names.forM f >>= fun _ => pure r) w := by
  refine Program.holds_bind ((Program.holds_forM (F := fun _ => []) (I := fun _ => True)
    (J := fun _ => False) ?_ trivial).imp (fun _ _ _ => trivial) (fun _ _ h => h.2))
  intro name w _ _
  exact (hf name w).imp (fun _ _ _ => ⟨rfl, trivial⟩) (fun _ _ h => h.elim)

theorem registerService_handles (usd : XmlElement) (serviceId : Str) (w : World D) :
    Handles env (fun _ _ => True) (fun _ _ => False) (registerService usd serviceId) w := by
  refine ⟨trivial, ?_⟩
  change Program.Holds _ _ _ _ _ _
  cases w.services.find? serviceId
  case' some service => refine forM_handles ?_ _ (service, false) w
  case' none => refine ⟨trivial, forM_handles ?_ _ (_, true) _⟩
  all_goals
    intro name w
    split
    · exact ⟨trivial, trivial⟩
    · exact trivial

theorem readMasterManifest_handles (manifest basePath : Str) (w : World D) :
    Handles env
      (fun _ w' => manifestFaults (w.service service).deliveryProtocol D manifest basePath = [] ∧
        (w'.service service).deliveryProtocol = (w.service service).deliveryProtocol)
      (fun e _ =>
        (manifestFaults (w.service service).deliveryProtocol D manifest basePath).head? = some e)
      (readMasterManifest service manifest basePath) w := by
  refine call_handles (.readMasterManifest service manifest basePath)
    ((World.registry_readMasterManifest env service manifest basePath w).mono ?_ ?_)
  · rintro _ w' ⟨hf, hr⟩
    exact ⟨hf, congrFun (congrArg Registry.protocol hr) service⟩
  · exact fun e _ h => h.1

theorem handleAppService_handles (appService : Option XmlElement) (w : World D) :
    Handles env
      (fun _ w' => appServiceFaults D env.rest items appService = [] ∧
        (w'.service service).deliveryProtocol = protocolOf appService)
      (fun e _ => (appServiceFaults D env.rest items appService).head? = some e)
      (handleAppService items service env.rest appService) w := by
  unfold appServiceFaults
  refine Program.holds_bind (Program.holds_ofExcept ?_)
  cases appService with
  | none => exact rfl
  | some app =>
    refine Program.holds_bind (Program.holds_ofExcept ?_)
    dsimp only
    cases hm : app.attributeValue mimeType with
    | none => exact rfl
    | some mime =>
      have hprotocol : protocolOf (some app) = Service.deliveryProtocolOfMimeType mime := by
        simp [protocolOf, hm]
      rw [hprotocol]
      dsimp only [stdString, Except.Ensures]
      refine Program.holds_bind (call_handles (.setDeliveryProtocol service mime) ?_)
      refine (Program.holds_forM (F := descriptionFaults D env.rest
          (Service.deliveryProtocolOfMimeType mime) app)
        (I := fun w' : World D => (w'.service service).deliveryProtocol =
          Service.deliveryProtocolOfMimeType mime)
        (J := fun _ => True) ?_ ?_).imp (fun _ _ h => h) (fun _ _ h => h.1)
      · intro item w' _ hw'
        refine Program.holds_bind (Program.holds_ofExcept ?_)
        unfold descriptionFaults
        cases app.attributeValue appServiceDescriptionUri with
        | none => exact ⟨rfl, trivial⟩
        | some descriptionUri =>
          change Handles env _ _ (if item.uri = descriptionUri then _ else _) w'
          dsimp only
          by_cases hu : item.uri = descriptionUri
          · rw [if_pos hu, if_pos hu]
            cases env.rest.uri item.uri with
            | none => exact ⟨rfl, trivial⟩
            | some uri =>
              refine Program.holds_bind ((readMasterManifest_handles item.content (basePathOf uri)
                w').imp ?_ ?_)
              · rintro _ w'' ⟨hf, hw''⟩
                rw [hw'] at hf hw''
                exact call_handles (.setBasePath (basePathOf uri)) ⟨hf, hw''⟩
              · intro e _ he
                rw [hw'] at he
                exact ⟨he, trivial⟩
          · rw [if_neg hu, if_neg hu]
            exact ⟨rfl, hw'⟩
      · simp [World.setService, Service.setDeliveryProtocolFromMimeType]

theorem handleUserServiceDescription_handles (usd : XmlElement) (w : World D) :
    Handles env (fun _ _ => userServiceDescriptionFaults D cfg env.rest items usd = [])
      (fun e _ => (userServiceDescriptionFaults D cfg env.rest items usd).head? = some e)
      (handleUserServiceDescription cfg items env.rest usd) w := by
  unfold userServiceDescriptionFaults
  refine Program.holds_bind (Program.holds_ofExcept ?_)
  cases usd.attributeValue serviceId with
  | none => exact rfl
  | some id =>
    refine Program.holds_bind ((registerService_handles usd id w).imp ?_ (fun _ _ h => h.elim))
    rintro ⟨service, isNewService⟩ w₁ -
    refine Program.holds_bind ((handleAppService_handles items (usd.firstChildElement appService)
      w₁).imp ?_ ?_)
    · rintro _ w₂ ⟨hf, hprotocol⟩
      dsimp only
      rw [hf, List.nil_append]
      refine Program.holds_bind (call_handles (.deliveryProtocol service) ?_)
      refine Program.holds_bind (call_handles .basePath ?_)
      rw [← hprotocol]
      refine Program.holds_bind ((setup_faults cfg items (w₂.service service).deliveryProtocol
        w₂.basePath (usd.firstChildElement appService) usd w₂).mono (fun _ _ _ => trivial) ?_
        (fun _ _ h => h))
      intro _ w₃ hf₃
      refine Program.holds_bind (call_handles (.contentStreamCount service) ?_)
      change Handles env _ _ (if _ then _ else _) w₃
      split
      · exact call_handles (.setService id service) hf₃
      · exact hf₃
    · intro e _ he
      dsimp only
      rw [List.head?_append, he]
      rfl

theorem handleUserServiceDescriptionBundle_handles (doc : XmlDocument) (w : World D) :
    Handles env (fun _ _ => bundleFaults D cfg env.rest items doc = [])
      (fun e _ => (bundleFaults D cfg env.rest items doc).head? = some e)
      (handleUserServiceDescriptionBundle cfg items env.rest doc) w := by
  unfold bundleFaults
  refine Program.holds_bind (Program.holds_ofExcept ?_)
  cases doc.firstChildElement bundleDescription with
  | none => exact rfl
  | some bundle =>
    exact (Program.holds_forM (I := fun _ => True) (J := fun _ => True)
      (fun usd w' _ _ => (handleUserServiceDescription_handles cfg items usd w').imp
        (fun _ _ h => ⟨h, trivial⟩) (fun _ _ h => ⟨h, trivial⟩)) trivial).imp
      (fun _ _ h => h.1) (fun _ _ h => h.1)

end Handlers

end ServiceAnnouncement

end MbmsMiddleware
