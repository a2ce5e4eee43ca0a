import MbmsMiddleware.Session
import MbmsMiddleware.StateViews

/-! The handlers of an announcement, seen through a view of the objects. Where the
view shows the announced items and all that the calls of the handlers read, they
do the same to objects that look alike. -/

namespace MbmsMiddleware

open EStateM ServiceAnnouncementXmlElements

namespace World

variable {D τ : Type}

structure ShowsItems (view : World D → τ) : Prop where
  items : ∀ ⦃w w' : World D⦄, view w = view w' → w.items = w'.items
  setItems : ∀ (l : List Item) ⦃w w' : World D⦄, view w = view w' →
    view { w with items := l } = view { w' with items := l }

variable {view : World D → τ}

theorem respects_liftExcept {α : Type} (x : Except Fault α) :
    Respects view (liftExcept x : Action D α) := by
  cases x with
  | ok a => exact respects_pure a
  | error e => exact respects_throw e

theorem respects_catchStdException {x : Action D Unit} (hx : Respects view x) :
    Respects view (catchStdException x) := by
  intro w w' h
  have hend := hx h
  unfold catchStdException
  cases hw : x w with
  | ok u v =>
    cases hw' : x w' with
    | ok u' v' =>
      rw [hw, hw'] at hend
      exact hend
    | error e v' =>
      rw [hw, hw'] at hend
      cases hend
  | error e v =>
    cases hw' : x w' with
    | ok u v' =>
      rw [hw, hw'] at hend
      cases hend
    | error e' v' =>
      rw [hw, hw'] at hend
      injection hend with he hv
      subst he
      dsimp only
      split_ifs
      · exact congrArg (Result.ok ()) hv
      · exact congrArg (Result.error e) hv

theorem readMasterManifest_cache [DoubleText D] (sv : Service D) (service : Nat)
    (manifest basePath : Str) (cache cache' : Cache) :
    (sv.readMasterManifest service manifest basePath cache).map Prod.fst =
      (sv.readMasterManifest service manifest basePath cache').map Prod.fst := by
  unfold Service.readMasterManifest
  cases hp : sv.deliveryProtocol with
  | hls =>
    cases (HlsPrimaryPlaylist.parse manifest basePath : Except Fault (HlsPrimaryPlaylist D)) <;> rfl
  | dash => rfl
  | rtp => simp only [bind, Except.bind, pure, Except.pure, Except.map]

theorem respects_callReadMasterManifest [DoubleText D] {service : Nat}
    (hservice : ∀ w w' : World D, view w = view w' → w.service = w'.service)
    (hset : ∀ w w' : World D, view w = view w' → ∀ sv cache cache',
      view { w.setService service sv with memory := { w.memory with cache := cache } } =
        view { w'.setService service sv with memory := { w'.memory with cache := cache' } })
    (manifest basePath : Str) :
    Respects view (callReadMasterManifest (D := D) service manifest basePath) := by
  intro w w' h
  have hread := readMasterManifest_cache (w.service service) service manifest basePath
    w.memory.cache w'.memory.cache
  unfold callReadMasterManifest
  rw [← hservice w w' h]
  generalize (w.service service).readMasterManifest service manifest basePath w.memory.cache = x
    at hread ⊢
  generalize (w.service service).readMasterManifest service manifest basePath w'.memory.cache = y
    at hread ⊢
  cases x with
  | error e =>
    cases y with
    | error e' =>
      cases hread
      exact congrArg (Result.error e) h
    | ok r' => cases hread
  | ok r =>
    cases y with
    | error e' => cases hread
    | ok r' =>
      obtain ⟨sv, cache⟩ := r
      obtain ⟨sv', cache'⟩ := r'
      injection hread with hsv
      change sv = sv' at hsv
      subst hsv
      exact congrArg (Result.ok ()) (hset w w' h sv cache cache')

variable (h : ShowsItems view) (env : Environment D)

include h

theorem ShowsItems.modifyItems (g : List Item → List Item) :
    Respects view (modify fun w => { w with items := g w.items } : Action D PUnit) := by
  refine respects_modify fun w w' hw => ?_
  rw [h.items hw]
  exact h.setItems _ hw

theorem respects_handleEnvelopeItem (i : XmlElement) :
    Respects view (handleEnvelopeItem i) := by
  refine respects_get (fun w w' hw => by rw [h.items hw]) fun w => ?_
  refine respects_forM (fun idx => ?_) _
  refine respects_get (fun w w' hw => by rw [h.items hw]) fun w => ?_
  cases w.items[idx]? with
  | none => exact respects_pure ()
  | some ir =>
    refine respects_bind (respects_liftExcept _) fun uri => ?_
    split_ifs
    · refine respects_bind (respects_liftExcept _) fun validFrom => ?_
      refine respects_bind (h.modifyItems _) fun _ => ?_
      refine respects_bind (respects_liftExcept _) fun validUntil => ?_
      refine respects_bind (h.modifyItems _) fun _ => ?_
      exact respects_bind (respects_liftExcept _) fun version => h.modifyItems _
    · exact respects_pure ()

theorem respects_handleMbmsEnvelope (item : Item) :
    Respects view (handleMbmsEnvelope env item) := by
  refine respects_catchStdException (respects_bind (respects_liftExcept _) fun envelope => ?_)
  exact respects_forM (fun i => respects_handleEnvelopeItem h i) _

theorem respects_readAnnouncement (str : Str) : Respects view (Session.readAnnouncement env str) := by
  have hadd : Respects view
      (modify (addServiceAnnouncementItems env · str) : Action D PUnit) := by
    refine respects_modify fun w w' hw => ?_
    simp only [addServiceAnnouncementItems, h.items hw]
    exact h.setItems _ hw
  refine respects_bind hadd fun _ => ?_
  refine respects_get (fun w w' hw => by rw [h.items hw]) fun w => ?_
  refine respects_bind (respects_forM (fun item => respects_handleMbmsEnvelope h env item) _)
    fun _ => ?_
  exact respects_get (fun w w' hw => by rw [h.items hw]) fun w => respects_pure _

end World

namespace Session

variable {D τ : Type}

/-- What is seen of a session through a view of its objects. -/
def seen (view : World D → τ) (s : Session D) : τ × List (Handler D Unit) × Bool :=
  (view s.world, s.handlers, s.running)

variable {view : World D → τ} {s s' : Session D}

theorem seen_mk {w w' : World D} (hw : view w = view w') (l : List (Handler D Unit)) (running : Bool) :
    ((view w, l, running) : τ × List (Handler D Unit) × Bool) = (view w', l, running) := by
  rw [hw]

variable [DoubleText D] (env : Environment D) (cfg : Config)

theorem seen_begin (h : World.ShowsItems view) (hs : s.seen view = s'.seen view) (str : Str) :
    (s.begin env cfg str).seen view = (s'.begin env cfg str).seen view := by
  obtain ⟨hworld, hrest⟩ := Prod.mk.inj hs
  obtain ⟨-, hrunning⟩ := Prod.mk.inj hrest
  have hread := World.respects_readAnnouncement h env str hworld
  unfold begin
  cases hr : readAnnouncement env str s.world with
  | error e w =>
    cases hr' : readAnnouncement env str s'.world with
    | ok bundles w' =>
      rw [hr, hr'] at hread
      cases hread
    | error e' w' =>
      rw [hr, hr'] at hread
      injection hread with _ hw
      exact seen_mk hw [] false
  | ok bundles w =>
    cases hr' : readAnnouncement env str s'.world with
    | error e' w' =>
      rw [hr, hr'] at hread
      cases hread
    | ok bundles' w' =>
      rw [hr, hr'] at hread
      injection hread with hbundles hw
      have hhandlers : bundles.map (handlerOf env cfg w) = bundles'.map (handlerOf env cfg w') := by
        unfold handlerOf
        rw [hbundles, h.items hw]
      simp only [seen, hhandlers, hw, hrunning]

omit [DoubleText D] in
theorem seen_raise (hrunning : s.running = s'.running) (e : Fault) {w w' : World D}
    (hw : view w = view w') (l : List (Handler D Unit)) :
    (s.raise e w l).seen view = (s'.raise e w' l).seen view := by
  unfold raise
  split_ifs
  · simp only [seen, hw, hrunning]
  · exact seen_mk hw [] false

theorem seen_proceed (hperform : ∀ op, Respects view (World.perform env op))
    (hs : s.seen view = s'.seen view) :
    (s.proceed env).seen view = (s'.proceed env).seen view := by
  obtain ⟨hworld, hrest⟩ := Prod.mk.inj hs
  obtain ⟨hhandlers, hrunning⟩ := Prod.mk.inj hrest
  unfold proceed
  rw [← hhandlers]
  cases s.handlers with
  | nil => exact hs
  | cons p rest =>
    cases p with
    | pure u => simp only [seen, hworld, hrunning]
    | throw e => exact seen_raise hrunning e hworld rest
    | call op next =>
      have hend := hperform op hworld
      dsimp only
      cases hop : World.perform env op s.world with
      | ok r w =>
        cases hop' : World.perform env op s'.world with
        | error e w' =>
          rw [hop, hop'] at hend
          cases hend
        | ok r' w' =>
          rw [hop, hop'] at hend
          injection hend with hr hw
          simp only [seen, hr, hw, hrunning]
      | error e w =>
        cases hop' : World.perform env op s'.world with
        | ok r' w' =>
          rw [hop, hop'] at hend
          cases hend
        | error e' w' =>
          rw [hop, hop'] at hend
          injection hend with he hw
          rw [he]
          exact seen_raise hrunning e' hw rest

end Session

end MbmsMiddleware
