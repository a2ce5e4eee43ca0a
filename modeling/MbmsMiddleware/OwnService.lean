import MbmsMiddleware.HandlerRuns

/-! The handling of a user service description works on one service, and on the
streams that it makes itself. -/

namespace MbmsMiddleware

open ServiceAnnouncementXmlElements

namespace ServiceAnnouncement

variable {D : Type} [DoubleText D]

/-- What is done for a user service description once its service is there. -/
def describeService (cfg : Config) (items : List Item) (rest : CppRest) (usd : XmlElement)
    (service : Nat) : Handler D Unit := do
  (usd.childElements nameElement).forM fun name =>
    match name.attributeValue lang, name.getText with
    | some lang, some namestr => addName service namestr lang
    | _, _ => pure ()
  handleAppService items service rest (usd.firstChildElement appService)
  let protocol ← deliveryProtocol service
  let basePath ← basePath
  setup cfg items protocol service basePath (usd.firstChildElement appService) usd

/-- The end of the handling: a new service with streams is registered. -/
def registerUsed (id : Str) (service : Nat) (isNewService : Bool) : Handler D Unit := do
  let count ← contentStreamCount service
  if isNewService ∧ count > 0 then setService service id

theorem handleUserServiceDescription_eq (cfg : Config) (items : List Item) (rest : CppRest)
    {usd : XmlElement} {id : Str} (hid : usd.attributeValue serviceId = some id) :
    handleUserServiceDescription (D := D) cfg items rest usd = (do
      match ← getService id with
      | some service =>
        describeService cfg items rest usd service
        registerUsed id service false
      | none => do
        let service ← newService
        describeService cfg items rest usd service
        registerUsed id service true) := by
  unfold handleUserServiceDescription
  rw [hid]
  change registerService usd id >>= _ = _
  unfold registerService describeService registerUsed
  rw [bind_assoc]
  congr 1
  funext found
  cases found <;> simp only [bind_assoc, pure_bind, -eq_self] <;> rfl

end ServiceAnnouncement

namespace World

variable {D : Type} [DoubleText D] (env : Environment D)

/-- The service that is described under an id. -/
def describedService (w : World D) (id : Str) : Nat := (w.services.find? id).getD w.nextService

/-- The middleware when that service is there. -/
def withDescribedService (w : World D) (id : Str) : World D :=
  match w.services.find? id with
  | some _ => w
  | none => (perform env .newService w).state

/-- A new service with streams is registered. -/
def registerDescribed (w : World D) (id : Str) (w' : World D) : World D :=
  if w.services.find? id = none ∧ (w'.service (w.describedService id)).contentStreams.size > 0 then
    { w' with services := w'.services.set id (w.describedService id) }
  else w'

theorem run_registerUsed (id : Str) (service : Nat) (isNewService : Bool) (w : World D) :
    (ServiceAnnouncement.registerUsed id service isNewService).run (perform env) w =
      .ok () (if isNewService = true ∧ (w.service service).contentStreams.size > 0 then
        { w with services := w.services.set id service } else w) := by
  have hcount : (ServiceAnnouncement.registerUsed id service isNewService).run (perform env) w =
      (if isNewService = true ∧ (w.service service).contentStreams.size > 0 then
        ServiceAnnouncement.setService service id else pure () : Handler D Unit).run
          (perform env) w := Program.run_bind_of_ok (perform env) rfl
  rw [hcount]
  split <;> rfl

open ServiceAnnouncement in
theorem run_handleUserServiceDescription (cfg : Config) (items : List Item) {usd : XmlElement}
    {id : Str} (hid : usd.attributeValue serviceId = some id) (w : World D) :
    (handleUserServiceDescription cfg items env.rest usd).run (perform env) w =
      match (describeService cfg items env.rest usd (w.describedService id)).run (perform env)
        (w.withDescribedService env id) with
      | .ok _ w' => .ok () (w.registerDescribed id w')
      | .error e w' => .error e w' := by
  have hrun : ∀ (service : Nat) (isNewService : Bool) (w₁ : World D),
      (isNewService = true ↔ w.services.find? id = none) → w.describedService id = service →
      (describeService cfg items env.rest usd service >>= fun _ =>
        registerUsed id service isNewService).run (perform env) w₁ =
      match (describeService cfg items env.rest usd service).run (perform env) w₁ with
      | .ok _ w' => .ok () (w.registerDescribed id w')
      | .error e w' => .error e w' := by
    intro service isNewService w₁ hnew hservice
    rw [Program.run_bind]
    simp only [bind, EStateM.bind]
    cases (describeService cfg items env.rest usd service).run (perform env) w₁ with
    | error e w' => rfl
    | ok u w' =>
      refine (run_registerUsed env id service isNewService w').trans ?_
      unfold registerDescribed
      rw [hservice]
      simp only [hnew]
  rw [handleUserServiceDescription_eq cfg items env.rest hid]
  unfold withDescribedService
  cases hfind : w.services.find? id with
  | some service =>
    have hservice : w.describedService id = service := by simp [describedService, hfind]
    rw [hservice]
    have hget : (getService id).run (perform env) w = .ok (some service) w := by
      rw [← hfind]
      rfl
    exact (Program.run_bind_of_ok (perform env) hget).trans
      (hrun service false w (by simp [hfind]) hservice)
  | none =>
    have hservice : w.describedService id = w.nextService := by simp [describedService, hfind]
    rw [hservice]
    have hget : (getService id).run (perform env) w = .ok none w := by
      rw [← hfind]
      rfl
    refine (Program.run_bind_of_ok (perform env) hget).trans ?_
    exact (Program.run_bind_of_ok (perform env) rfl).trans
      (hrun w.nextService true _ (by simp [hfind]) hservice)

/-- The calls of `describeService` in a middleware that had `n` streams before.
In the legacy format the streams are made with one base path. -/
def OwnStep (service n : Nat) (basePath : Option Str) : MiddlewareCall D → World D → Prop
  | .addName s _ _, _ => s = service
  | .setDeliveryProtocol s _, _ => s = service
  | .readMasterManifest s _ _, _ => s = service
  | .newStream s, _ => ∀ b ∈ basePath, s.content.basePath = b
  | .setCdnEndpoint a _, _ => n ≤ a
  | .addAndStartContentStream s a, w => s = service ∧ n ≤ a ∧ a < w.nextStream
  | .getService _, _ | .newService, _ | .setService _ _, _ => False
  | .deliveryProtocol _, _ | .setBasePath _, _ | .basePath, _ | .contentStreamCount _, _ => True

/-- What such calls leave as it was, and what they add. -/
structure Kept (service : Nat) (basePath : Option Str) (w w' : World D) : Prop where
  services : w'.services = w.services
  nextService : w'.nextService = w.nextService
  otherService : ∀ a ≠ service, w'.service a = w.service a
  nextStream : w.nextStream ≤ w'.nextStream
  oldStream : ∀ a < w.nextStream, w'.stream a = w.stream a
  made : ∀ e ∈ (w'.service service).contentStreams.entries, e.2 < w'.nextStream ∧
    (e ∈ (w.service service).contentStreams.entries ∨ w.nextStream ≤ e.2)
  newBasePath : ∀ a, w.nextStream ≤ a → a < w'.nextStream →
    ∀ b ∈ basePath, (w'.stream a).content.basePath = b

omit [DoubleText D] in
theorem Kept.refl {service : Nat} {basePath : Option Str} {w : World D}
    (h : ∀ e ∈ (w.service service).contentStreams.entries, e.2 < w.nextStream) :
    Kept service basePath w w where
  services := rfl
  nextService := rfl
  otherService _ _ := rfl
  nextStream := le_rfl
  oldStream _ _ := rfl
  made e he := ⟨h e he, .inl he⟩
  newBasePath a h h' := by omega

omit [DoubleText D] in
theorem Kept.frame {service : Nat} {basePath : Option Str} {w w' : World D}
    (h : Kept service basePath w w') (memory : Memory D) (announced : Str) (passed : List Nat) :
    Kept service basePath w
      { w' with memory := memory, basePath := announced, passed := passed } where
  services := h.services
  nextService := h.nextService
  otherService := h.otherService
  nextStream := h.nextStream
  oldStream := h.oldStream
  made := h.made
  newBasePath := h.newBasePath

omit [DoubleText D] in
theorem Kept.setService {service : Nat} {basePath : Option Str} {w w' : World D}
    (h : Kept service basePath w w') (sv : Service D)
    (hsv : ∀ e ∈ sv.contentStreams.entries, e.2 < w'.nextStream ∧
      (e ∈ (w.service service).contentStreams.entries ∨ w.nextStream ≤ e.2)) :
    Kept service basePath w (w'.setService service sv) where
  services := h.services
  nextService := h.nextService
  otherService a ha := by rw [setService_service_of_ne w' sv ha, h.otherService a ha]
  nextStream := h.nextStream
  oldStream := h.oldStream
  made := by
    rw [setService_service_self]
    exact hsv
  newBasePath := h.newBasePath

omit [DoubleText D] in
theorem Kept.setStream {service : Nat} {basePath : Option Str} {w w' : World D}
    (h : Kept service basePath w w') {a : Nat} (ha : w.nextStream ≤ a) (s : AnyStream D)
    (hs : a < w'.nextStream → ∀ b ∈ basePath, s.content.basePath = b) :
    Kept service basePath w (w'.setStream a s) where
  services := h.services
  nextService := h.nextService
  otherService := h.otherService
  nextStream := h.nextStream
  oldStream b hb := by rw [setStream_stream_of_ne w' s (by omega), h.oldStream b hb]
  made := h.made
  newBasePath b hb hb' := by
    by_cases hba : b = a
    · subst hba
      rw [setStream_stream_self]
      exact hs hb'
    · rw [setStream_stream_of_ne w' s hba]
      exact h.newBasePath b hb hb'

omit [DoubleText D] in
theorem basePath_setCdnEndpoint (rest : CppRest) (a : Nat) (url : Str)
    (s : SeamlessContentStream D) (cache : Cache) :
    (s.setCdnEndpoint rest a url cache).1.basePath = s.basePath := by
  unfold SeamlessContentStream.setCdnEndpoint
  cases rest.uri url with
  | none => rfl
  | some uri =>
    dsimp only
    split <;> rfl

theorem Kept.newStream {service : Nat} {basePath : Option Str} {w w' : World D}
    (h : Kept service basePath w w') {s : AnyStream D}
    (hs : ∀ b ∈ basePath, s.content.basePath = b) :
    Kept service basePath w (World.perform env (.newStream s) w').state := by
  have hset := h.setStream h.nextStream s (fun hlt => absurd hlt (lt_irrefl _))
  refine ⟨hset.services, hset.nextService, hset.otherService, ?_, hset.oldStream, ?_, ?_⟩
  · exact h.nextStream.trans (Nat.le_succ _)
  · exact fun e he => ⟨(h.made e he).1.trans (Nat.lt_succ_self _), (h.made e he).2⟩
  · intro a ha ha'
    rcases Nat.lt_succ_iff_lt_or_eq.mp ha' with ha' | rfl
    · exact hset.newBasePath a ha ha'
    · change ∀ b ∈ basePath, ((w'.setStream w'.nextStream s).stream w'.nextStream).content.basePath = b
      rw [setStream_stream_self]
      exact hs

theorem Kept.setCdnEndpoint {service : Nat} {basePath : Option Str} {w w' : World D}
    (h : Kept service basePath w w') {a : Nat} (ha : w.nextStream ≤ a) (url : Str) :
    Kept service basePath w (World.perform env (.setCdnEndpoint a url) w').state := by
  simp only [World.perform, callSetCdnEndpoint]
  cases hs : w'.stream a with
  | basic s => exact h
  | seamless s =>
    have hset := h.setStream ha (.seamless (s.setCdnEndpoint env.rest a url w'.memory.cache).1)
      (fun ha' => by
        change ∀ b ∈ basePath, (s.setCdnEndpoint env.rest a url w'.memory.cache).1.basePath = b
        rw [basePath_setCdnEndpoint]
        have hbase := h.newBasePath a ha ha'
        rwa [hs] at hbase)
    simp only [AnyStream.asSeamless?]
    cases (s.setCdnEndpoint env.rest a url w'.memory.cache).2.2 <;> exact hset.frame _ _ _

theorem Kept.addAndStartContentStream {service : Nat} {basePath : Option Str} {w w' : World D}
    (h : Kept service basePath w w') {a : Nat} (ha : w.nextStream ≤ a) (hlt : a < w'.nextStream) :
    Kept service basePath w (World.perform env (.addAndStartContentStream service a) w').state := by
  obtain ⟨r, c, b, f, hm⟩ := (w'.service service).matchStream_eq (w'.stream a).content
  simp only [World.perform, World.addAndStartContentStream]
  generalize hcs : (w'.service service).matchStream (w'.stream a).content = cs
  have hbase : ∀ b ∈ basePath, cs.basePath = b := by
    rw [← hcs, hm]
    exact h.newBasePath a ha hlt
  -- the stream is kept in the service, and then started
  have hset := h.setStream ha ((w'.stream a).setContent cs) (fun _ => by
    rw [AnyStream.content_setContent]
    exact hbase)
  generalize hsv : { w'.service service with
    contentStreams := (w'.service service).contentStreams.set cs.playlistPath a } = sv
  have hmade : ∀ e ∈ sv.contentStreams.entries, e.2 < w'.nextStream ∧
      (e ∈ (w.service service).contentStreams.entries ∨ w.nextStream ≤ e.2) := by
    rw [← hsv]
    intro e he
    rcases OrdMap.mem_set.mp he with rfl | ⟨he, -⟩
    · exact ⟨hlt, .inr ha⟩
    · exact h.made e he
  have hadd := hset.setService sv hmade
  cases hstart : cs.start with
  | error e => exact hadd.frame _ _ _
  | ok cs' =>
    obtain ⟨receiver, rfl⟩ := ContentStream.eq_of_start hstart
    have hstarted := hadd.setStream ha ((w'.stream a).setContent { cs with fluteThread := receiver })
      (fun _ => by
        rw [AnyStream.content_setContent]
        exact hbase)
    obtain ⟨manifest, hmanifest⟩ := recreateManifest_eq env sv
      (((w'.setStream a ((w'.stream a).setContent cs)).setService service sv).setStream a
        ((w'.stream a).setContent { cs with fluteThread := receiver })).stream
    have hend := hstarted.setService { sv with manifest := manifest } hmade
    rw [← hmanifest] at hend
    exact hend.frame _ _ _

theorem Kept.perform {service : Nat} {basePath : Option Str} {w w' : World D}
    (h : Kept service basePath w w') {call : MiddlewareCall D}
    (hcall : OwnStep service w.nextStream basePath call w') :
    Kept service basePath w (World.perform env call w').state := by
  cases call with
  | getService id => exact hcall.elim
  | newService => exact hcall.elim
  | setService id a => exact hcall.elim
  | deliveryProtocol a => exact h
  | basePath => exact h
  | contentStreamCount a => exact h
  | setBasePath b => exact h.frame _ _ _
  | addName a name lang =>
    obtain rfl : a = service := hcall
    exact h.setService _ h.made
  | setDeliveryProtocol a mime =>
    obtain rfl : a = service := hcall
    exact h.setService _ h.made
  | readMasterManifest a manifest bp =>
    obtain rfl : a = service := hcall
    have hread := readMasterManifest_ensures a manifest bp (w'.service a) w'.memory.cache
    simp only [World.perform, callReadMasterManifest]
    cases hr : (w'.service a).readMasterManifest a manifest bp w'.memory.cache with
    | error e => exact h
    | ok r =>
      rw [hr] at hread
      have hset := h.setService r.1 (by rw [hread.2.2.1]; exact h.made)
      exact hset.frame _ _ _
  | newStream s => exact h.newStream env hcall
  | setCdnEndpoint a url => exact h.setCdnEndpoint env hcall url
  | addAndStartContentStream s a =>
    obtain ⟨rfl, ha, hlt⟩ := hcall
    exact h.addAndStartContentStream env ha hlt

end World

end MbmsMiddleware
