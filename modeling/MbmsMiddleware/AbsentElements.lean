import MbmsMiddleware.HandlerRuns

/-! How `parse_bootstrap` ends: with the first fault of the announcement that no
handler catches. -/

namespace MbmsMiddleware

open ServiceAnnouncementXmlElements

theorem map_modify_of_eq {α β : Type} {f : α → α} {g : α → β} (h : ∀ a, g (f a) = g a)
    (l : List α) (idx : Nat) : (l.modify idx f).map g = l.map g := by
  induction l generalizing idx with
  | nil => simp
  | cons a l ih =>
    cases idx with
    | zero => simp [h]
    | succ idx => simp [ih]

theorem flatMap_range_getElem? {α β : Type} (f : α → List β) (l : List α) :
    (List.range l.length).flatMap (fun idx => l[idx]?.elim [] f) = l.flatMap f := by
  induction l using List.reverseRecOn with
  | nil => rfl
  | append_singleton l a ih =>
    rw [List.length_append, List.length_singleton, List.range_succ, List.flatMap_append,
      List.flatMap_append, ← ih]
    congr 1
    · refine List.flatMap_congr fun idx hidx => ?_
      rw [List.getElem?_append_left (List.mem_range.mp hidx)]
    · simp

namespace World

open ServiceAnnouncement

variable {D : Type}

theorem catchStdException_ensures {x : Action D Unit} {w : World D} {F : List Fault}
    {I : World D → Prop}
    (h : (x w).Ensures (fun _ w' => F = [] ∧ I w') (fun e w' => F.head? = some e ∧ I w')) :
    (catchStdException x w).Ensures (fun _ w' => uncaught F = [] ∧ I w')
      (fun e w' => (uncaught F).head? = some e ∧ I w') := by
  unfold catchStdException uncaught
  cases hx : x w with
  | ok u w' =>
    rw [hx] at h
    obtain ⟨rfl, hI⟩ := h
    exact ⟨rfl, hI⟩
  | error e w' =>
    rw [hx] at h
    obtain ⟨he, hI⟩ := h
    rw [he]
    dsimp only
    split <;> exact ⟨rfl, hI⟩

theorem liftExcept_ensures {α : Type} {x : Except Fault α} {w : World D}
    {Q : α → World D → Prop} {E : Fault → World D → Prop} (h : x.Ensures (Q · w) (E · w)) :
    (liftExcept x w).Ensures Q E := by
  cases x <;> exact h

/-- The envelope handlers change nothing but the validity of the items. -/
structure Revalidated (w w' : World D) : Prop where
  frame : w' = { w with items := w'.items }
  items : w'.items.map withoutValidity = w.items.map withoutValidity

theorem Revalidated.refl (w : World D) : w.Revalidated w := ⟨rfl, rfl⟩

theorem Revalidated.trans {w w' w'' : World D} (h : w.Revalidated w') (h' : w'.Revalidated w'') :
    w.Revalidated w'' where
  frame := by
    rw [h'.frame, h.frame]
  items := h'.items.trans h.items

theorem Revalidated.modifyItem {w w' : World D} (h : w.Revalidated w') (idx : Nat)
    {f : Item → Item} (hf : ∀ item, withoutValidity (f item) = withoutValidity item) :
    w.Revalidated (w'.modifyItem idx f) :=
  h.trans ⟨rfl, map_modify_of_eq hf w'.items idx⟩

variable (env : Environment D)

theorem handleEnvelopeItem_ensures (i : XmlElement) (w : World D) :
    (handleEnvelopeItem i w).Ensures
      (fun _ w' => w.items.flatMap (envelopeItemFaults i) = [] ∧
        w.Revalidated w')
      (fun e w' => (w.items.flatMap (envelopeItemFaults i)).head? = some e ∧
        w.Revalidated w') := by
  rw [← flatMap_range_getElem?]
  refine EStateM.ensures_forM
    (I := w.Revalidated)
    (J := w.Revalidated) ?_ (.refl w)
  intro idx w' _ hw'
  have hget : w'.items[idx]?.map withoutValidity = w.items[idx]?.map withoutValidity := by
    rw [← List.getElem?_map, ← List.getElem?_map, hw'.items]
  refine EStateM.ensures_get ?_
  cases hidx' : w'.items[idx]? with
  | none =>
    rw [hidx', Option.map_none, eq_comm, Option.map_eq_none_iff] at hget
    rw [hget]
    exact ⟨rfl, hw'⟩
  | some ir =>
    obtain ⟨item, hidx, heq⟩ : ∃ item, w.items[idx]? = some item ∧
        withoutValidity item = withoutValidity ir := by
      rw [hidx', Option.map_some, eq_comm, Option.map_eq_some_iff] at hget
      exact hget
    have huri : ir.uri = item.uri := (congrArg Item.uri heq).symm
    rw [hidx]
    dsimp only [Option.elim]
    unfold envelopeItemFaults
    refine EStateM.ensures_bind (liftExcept_ensures ?_)
    cases i.attributeValue metadataUri with
    | none => exact ⟨rfl, hw'⟩
    | some uri =>
      dsimp only [deref, Except.Ensures]
      rw [huri]
      by_cases hu : item.uri = uri
      · rw [if_pos hu, if_pos hu]
        unfold validityFaults
        refine EStateM.ensures_bind (liftExcept_ensures ?_)
        cases i.attributeValue validFrom with
        | none => exact ⟨rfl, hw'⟩
        | some from' =>
          refine EStateM.ensures_modify ?_
          have hw₁ := hw'.modifyItem idx
            (f := fun ir => { ir with validFrom := .ofText from' }) (fun _ => rfl)
          refine EStateM.ensures_bind (liftExcept_ensures ?_)
          cases i.attributeValue validUntil with
          | none => exact ⟨rfl, hw₁⟩
          | some until' =>
            refine EStateM.ensures_modify ?_
            have hw₂ := hw₁.modifyItem idx
              (f := fun ir => { ir with validUntil := .ofText until' }) (fun _ => rfl)
            refine EStateM.ensures_bind (liftExcept_ensures ?_)
            dsimp only
            cases i.attributeValue version with
            | none => exact ⟨rfl, hw₂⟩
            | some version =>
              refine ⟨rfl, hw₂.modifyItem idx ?_⟩
              exact fun _ => rfl
      · rw [if_neg hu, if_neg hu]
        exact ⟨rfl, hw'⟩

theorem handleMbmsEnvelope_ensures (item : Item) (w : World D) :
    (handleMbmsEnvelope env item w).Ensures
      (fun _ w' => uncaught (envelopeFaults w.items (env.xml item.content)) = [] ∧
        w.Revalidated w')
      (fun e w' => (uncaught (envelopeFaults w.items (env.xml item.content))).head? = some e ∧
        w.Revalidated w') := by
  refine catchStdException_ensures
    (I := w.Revalidated) ?_
  unfold envelopeFaults
  refine EStateM.ensures_bind (liftExcept_ensures ?_)
  cases XmlDocument.firstChildElement (env.xml item.content) metadataEnvelope with
  | none => exact ⟨rfl, .refl w⟩
  | some envelope =>
    refine EStateM.ensures_forM
      (I := w.Revalidated)
      (J := w.Revalidated) ?_ (.refl w)
    intro i w' _ hw'
    have hmap : ∀ items : List Item, (items.map withoutValidity).flatMap (envelopeItemFaults i) =
        items.flatMap (envelopeItemFaults i) := fun items => by
      rw [List.flatMap_map]
      rfl
    have h := handleEnvelopeItem_ensures i w'
    rw [← hmap w'.items, hw'.items, hmap] at h
    exact h.mono (fun _ _ h => ⟨h.1, hw'.trans h.2⟩) (fun _ _ h => ⟨h.1, hw'.trans h.2⟩)

theorem handleMbmsEnvelopes_ensures (l : List Item) (w : World D) :
    (l.forM (handleMbmsEnvelope env) w).Ensures
      (fun _ w' =>
        l.flatMap (fun item => uncaught (envelopeFaults w.items (env.xml item.content))) = [] ∧
        w.Revalidated w')
      (fun e w' =>
        (l.flatMap fun item => uncaught (envelopeFaults w.items (env.xml item.content))).head? =
          some e ∧ w.Revalidated w') := by
  refine EStateM.ensures_forM (I := w.Revalidated) (J := w.Revalidated) ?_ (.refl w)
  intro item w' _ hw'
  have h := handleMbmsEnvelope_ensures env item w'
  rw [← envelopeFaults_withoutValidity w'.items, hw'.items, envelopeFaults_withoutValidity] at h
  exact h.mono (fun _ _ h => ⟨h.1, hw'.trans h.2⟩) (fun _ _ h => ⟨h.1, hw'.trans h.2⟩)

variable [DoubleText D] (cfg : Config)

theorem perform_items (call : MiddlewareCall D) (w : World D) :
    (perform env call w).state.items = w.items := by
  cases call <;> try rfl
  · simp only [perform, callReadMasterManifest]
    split <;> rfl
  · simp only [perform, callSetCdnEndpoint]
    split
    · rfl
    · split <;> rfl
  · simp only [perform, addAndStartContentStream]
    split <;> rfl

theorem handleUserServiceDescriptionBundle_ensures (item : Item) (w : World D) :
    (handleUserServiceDescriptionBundle env cfg item w).Ensures
      (fun _ w' => uncaught (bundleFaults D cfg env.rest w.items (env.xml item.content)) = [] ∧
        w'.items = w.items)
      (fun e w' =>
        (uncaught (bundleFaults D cfg env.rest w.items (env.xml item.content))).head? = some e ∧
        w'.items = w.items) :=
  catchStdException_ensures ((handleUserServiceDescriptionBundle_handles cfg w.items
    (env.xml item.content) w).invariant (I := fun w' => w'.items = w.items)
      (fun call w' hw' _ => (perform_items env call w').trans hw') rfl).ensures

theorem handleUserServiceDescriptionBundles_ensures (l : List Item) (w : World D) :
    (l.forM (handleUserServiceDescriptionBundle env cfg) w).Ensures
      (fun _ _ => (l.flatMap fun item =>
        uncaught (bundleFaults D cfg env.rest w.items (env.xml item.content))) = [])
      (fun e _ => (l.flatMap fun item =>
        uncaught (bundleFaults D cfg env.rest w.items (env.xml item.content))).head? = some e) := by
  refine (EStateM.ensures_forM (I := fun w' : World D => w'.items = w.items) (J := fun _ => True)
    ?_ rfl).mono (fun _ _ h => h.1) (fun _ _ h => h.1)
  intro item w' _ hw'
  have h := handleUserServiceDescriptionBundle_ensures env cfg item w'
  rw [hw'] at h
  exact h.mono (fun _ _ h => h) (fun _ _ h => ⟨h.1, trivial⟩)

theorem parseBootstrap_ensures (str : Str) (w : World D) :
    (parseBootstrap env cfg str w).Ensures
      (fun _ _ =>
        announcementFaults D cfg (w.addServiceAnnouncementItems env str).items env = [])
      (fun e _ =>
        (announcementFaults D cfg (w.addServiceAnnouncementItems env str).items env).head? =
          some e) := by
  have hflat : ∀ (items : List Item) (contentType : Str) (F : Str → List Fault),
      (items.filter (·.contentType = contentType)).flatMap (fun item => F item.content) =
        (contentsOf items contentType).flatMap F := fun items contentType F => by
    rw [contentsOf, List.flatMap_map]
  refine EStateM.ensures_modify (EStateM.ensures_get ?_)
  generalize w.addServiceAnnouncementItems env str = w₁
  unfold announcementFaults
  refine EStateM.ensures_bind ((handleMbmsEnvelopes_ensures env _ w₁).mono ?_ ?_)
  · rintro _ w₂ ⟨hf, hw₂⟩
    rw [hflat _ _ fun content => uncaught (envelopeFaults w₁.items (env.xml content))] at hf
    rw [hf, List.nil_append]
    have hbundles : ∀ items : List Item, bundleFaults D cfg env.rest (items.map withoutValidity) =
        bundleFaults D cfg env.rest items := fun items => by
      funext doc
      simp only [bundleFaults, userServiceDescriptionFaults_withoutValidity]
    have hsame : (contentsOf w₂.items ContentTypeConstants.mbmsUserServiceDescription).flatMap
          (fun content => uncaught (bundleFaults D cfg env.rest w₂.items (env.xml content))) =
        (contentsOf w₁.items ContentTypeConstants.mbmsUserServiceDescription).flatMap
          fun content => uncaught (bundleFaults D cfg env.rest w₁.items (env.xml content)) := by
      rw [← hbundles w₂.items, ← contentsOf_withoutValidity w₂.items, hw₂.items, hbundles,
        contentsOf_withoutValidity]
    rw [← hsame, ← hflat _ _ fun content => uncaught (bundleFaults D cfg env.rest w₂.items
      (env.xml content))]
    exact EStateM.ensures_get (handleUserServiceDescriptionBundles_ensures env cfg _ w₂)
  · rintro e w₂ ⟨he, _⟩
    rw [hflat _ _ fun content => uncaught (envelopeFaults w₁.items (env.xml content))] at he
    rw [List.head?_append, he]
    rfl

/-- An announcement ends with the first of its faults that no handler catches. -/
theorem parseBootstrap_fault (str : Str) (w : World D) :
    (parseBootstrap env cfg str w).fault? =
      (announcementFaults D cfg (w.addServiceAnnouncementItems env str).items env).head? :=
  (parseBootstrap_ensures env cfg str w).head?_fault

theorem no_absent_element_dereferenced (str : Str) (w : World D) :
    (parseBootstrap env cfg str w).fault? ≠ some .nullDereference ↔
      (announcementFaults D cfg (w.addServiceAnnouncementItems env str).items env).head? ≠
        some .nullDereference := by
  rw [parseBootstrap_fault]

section Example

/-- A service that is delivered over unicast only. -/
def unicastDelivery : XmlElement :=
  .mk userServiceDescription [(serviceId, "s".toList)] none
    [.mk appService [(mimeType, ContentTypeConstants.hls),
        (appServiceDescriptionUri, "a.m3u8".toList)] none
      [.mk alternativeContent [] none [.mk basePattern [] (some "a/".toList) []]],
      .mk deliveryMethod [] none
        [.mk unicastAppService [] none [.mk basePattern [] (some "a/".toList) []]]]

def unicastEnvironment : Environment Int where
  xml _ := [.mk bundleDescription [] none [unicastDelivery]]
  mimeParts _ :=
    [⟨ContentTypeConstants.mbmsUserServiceDescription, some "usd.xml".toList, []⟩]
  rest := bareEnvironment.rest
  indeterminate := bareEnvironment.indeterminate

/-- In the default format a delivery method is taken to have a broadcast part. -/
theorem absent_broadcast_dereferenced :
    (parseBootstrap unicastEnvironment {} [] (World.initial unicastEnvironment)).fault? =
      some .nullDereference := by
  decide +kernel

end Example

end World

end MbmsMiddleware
