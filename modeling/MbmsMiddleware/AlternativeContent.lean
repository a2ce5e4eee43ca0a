import MbmsMiddleware.StreamCreation

/-! The set-up by the `alternativeContent` element: every stream it makes is
started at once, if at all. -/

namespace MbmsMiddleware

open ServiceAnnouncementXmlElements

/-- At most one more stream has been handed over, a new one. -/
def StreamLedger.OneMore (l l' : StreamLedger) : Prop :=
  l.next ≤ l'.next ∧ (l'.passed = l.passed ∨
    ∃ a, l.next ≤ a ∧ a < l'.next ∧ l'.passed = l.passed ++ [a])

theorem StreamLedger.OneMore.refl (l : StreamLedger) : l.OneMore l := ⟨le_rfl, .inl rfl⟩

namespace ServiceAnnouncement

variable {D : Type} [DoubleText D] {env : Environment D} {service n : Nat} (cfg : Config)
  (items : List Item) (protocol : DeliveryProtocol)

theorem readManifestItem_ensures (base : Str) (item : Item) (cs : ContentStream D) :
    (readManifestItem true base item cs).Ensures
      (fun cs' => (if item.uri = base then manifestFaults cs.deliveryProtocol D item.content []
        else []) = [] ∧ cs.Configures cs')
      (fun e => (if item.uri = base then manifestFaults cs.deliveryProtocol D item.content []
        else []).head? = some e) := by
  have hc : ∀ cs', readManifestItem true base item cs = .ok cs' → cs.Configures cs' :=
    fun cs' h => readManifestItem_configures h
  unfold readManifestItem at hc ⊢
  by_cases hu : item.uri = base
  · rw [if_pos hu, if_pos ⟨hu, rfl⟩, ← faultOf_readMasterManifest]
    rw [if_pos ⟨hu, rfl⟩] at hc
    cases hm : cs.readMasterManifest item.content with
    | ok cs' => exact ⟨rfl, hc cs' hm⟩
    | error e => exact rfl
  · rw [if_neg hu, if_neg (fun h => hu h.1)]
    exact ⟨rfl, .refl cs⟩

omit [DoubleText D] in
theorem readSdpItem_ensures (sdpUri : Option Str) (available : Bool) (item : Item)
    (cs : ContentStream D) :
    (readSdpItem sdpUri available item cs).Ensures
      (fun r => sdpItemFaults D sdpUri item = [] ∧ cs.Configures r.1)
      (fun e => (sdpItemFaults D sdpUri item).head? = some e) := by
  unfold readSdpItem sdpItemFaults
  by_cases ht : item.contentType = ContentTypeConstants.sdp
  · rw [if_pos ht, if_pos ht]
    refine Except.ensures_bind ?_
    cases sdpUri with
    | none => exact rfl
    | some sdpUri =>
      dsimp only [deref]
      by_cases hu : item.uri = sdpUri
      · have hc := cs.configure5gbcDeliveryFromSdp_configures item.content
        rw [if_pos hu, ← faultOf_configure5gbcDeliveryFromSdp cs]
        change Except.Ensures _ _ (if item.uri = sdpUri then _ else _)
        rw [if_pos hu]
        refine Except.ensures_bind ?_
        cases (cs.configure5gbcDeliveryFromSdp item.content).2 with
        | ok a => exact ⟨rfl, hc⟩
        | error e => exact rfl
      · rw [if_neg hu]
        change Except.Ensures _ _ (if item.uri = sdpUri then _ else _)
        rw [if_neg hu]
        exact ⟨rfl, .refl cs⟩
  · rw [if_neg ht, if_neg ht]
    exact ⟨rfl, .refl cs⟩

theorem readDeliveryMethod_ensures {cs₀ : ContentStream D} (hp : cs₀.deliveryProtocol = protocol)
    (base : Str) {state : ContentStream D × Bool} (h : cs₀.Configures state.1)
    (deliveryMethod : XmlElement) :
    (readDeliveryMethod items base state deliveryMethod).Ensures
      (fun r => deliveryMethodFaults items protocol D base deliveryMethod = [] ∧
        cs₀.Configures r.1)
      (fun e => (deliveryMethodFaults items protocol D base deliveryMethod).head? = some e) := by
  unfold readDeliveryMethod deliveryMethodFaults
  refine Except.ensures_bind ?_
  cases deliveryMethod.firstChildElement broadcastAppService with
  | none => exact rfl
  | some broadcast =>
    refine Except.ensures_bind ?_
    dsimp only [Option.bind_some]
    cases broadcast.firstChildElement basePattern with
    | none => exact rfl
    | some pattern =>
      refine Except.ensures_bind ?_
      dsimp only
      cases pattern.getText with
      | none => exact rfl
      | some broadcastBasePattern =>
        dsimp only [stdString]
        change Except.Ensures _ _ (if broadcastBasePattern = base then _ else _)
        by_cases hb : broadcastBasePattern = base
        · subst hb
          rw [if_pos rfl, if_pos rfl]
          refine Except.ensures_foldlM (I := fun r : ContentStream D × Bool => cs₀.Configures r.1)
            ?_ h
          rintro ⟨cs, available⟩ item - hcs
          refine Except.ensures_bind ((readManifestItem_ensures broadcastBasePattern item cs).mono
            ?_ ?_)
          · rintro cs' ⟨hf, hcs'⟩
            rw [hcs.deliveryProtocol, hp] at hf
            rw [hf, List.nil_append]
            refine (readSdpItem_ensures _ available item cs').mono ?_ (fun _ he => he)
            exact fun r hr => ⟨hr.1, (hcs.trans hcs').trans hr.2⟩
          · intro e he
            rw [hcs.deliveryProtocol, hp] at he
            rw [List.head?_append, he]
            rfl
        · rw [if_neg hb, if_neg hb]
          exact ⟨rfl, h⟩

omit [DoubleText D] in
theorem identicalContentBase_ensures (base : Str) (identical : XmlElement) :
    (identicalContentBase base identical).Ensures
      (fun _ => (identical.childElements basePattern).flatMap XmlElement.missingText = [])
      (fun e =>
        ((identical.childElements basePattern).flatMap XmlElement.missingText).head? = some e) := by
  refine (Except.ensures_foldlM (F := XmlElement.missingText) (I := fun _ : Bool × Str => True) ?_
    trivial).mono (fun _ h => h.1) (fun _ h => h)
  rintro ⟨matched, found⟩ pattern - -
  refine Except.ensures_bind ?_
  unfold XmlElement.missingText
  cases pattern.getText with
  | none => exact rfl
  | some identicalBase =>
    change Except.Ensures _ _ (if base = identicalBase then _ else _)
    split <;> exact ⟨rfl, trivial⟩

theorem setupUnicastDelivery_does (appService : XmlElement) (base : Str) {a : Nat}
    (available : Bool) {w : World D} (ha : n ≤ a)
    (hs : cfg.seamless = true → (w.ledger.state a).seamless = true) :
    Does env service n
      (fun _ w' => (if cfg.seamless then
          if available then
            (appService.childElements identicalContent).flatMap
              (identicalContentFaults env.rest base)
          else endpointFaults env.rest base
        else []) = [] ∧ w'.ledger = w.ledger)
      (fun e w' => (if cfg.seamless then
          if available then
            (appService.childElements identicalContent).flatMap
              (identicalContentFaults env.rest base)
          else endpointFaults env.rest base
        else []).head? = some e ∧ w'.ledger = w.ledger)
      (setupUnicastDelivery cfg appService base a available) w := by
  unfold setupUnicastDelivery
  cases hseam : cfg.seamless with
  | false => exact ⟨rfl, rfl⟩
  | true =>
    cases available with
    | false =>
      exact Program.holds_bind ((setCdnEndpoint_does ha base (hs hseam)).imp (fun _ _ h => h)
        (fun _ _ h => h))
    | true =>
      refine Program.holds_bind (Program.holds_forM (F := identicalContentFaults env.rest base)
        (I := fun w' : World D => w'.ledger = w.ledger)
        (J := fun w' : World D => w'.ledger = w.ledger) ?_ rfl)
      intro identical w' _ hw'
      have hbase := identicalContentBase_ensures base identical
      refine Program.holds_bind (Program.holds_ofExcept ?_)
      unfold identicalContentFaults
      cases hi : identicalContentBase base identical with
      | error e =>
        rw [hi] at hbase
        exact ⟨by rw [List.head?_append, hbase]; rfl, hw'⟩
      | ok r =>
        obtain ⟨matched, found⟩ := r
        rw [hi] at hbase
        rw [hbase, List.nil_append]
        change Program.Holds _ _ _ _ (if matched = true ∧ found.length ≠ 0 then _ else _) w'
        cases matched with
        | false => exact ⟨rfl, hw'⟩
        | true =>
          by_cases hf : found.length ≠ 0
          · rw [if_pos ⟨rfl, hf⟩]
            dsimp only
            rw [if_pos hf]
            refine (setCdnEndpoint_does ha found ?_).imp ?_ ?_
            · rw [hw']
              exact hs hseam
            · exact fun _ _ h => ⟨h.1, h.2.trans hw'⟩
            · exact fun _ _ h => ⟨h.1, h.2.trans hw'⟩
          · rw [if_neg (fun h => hf h.2)]
            dsimp only
            rw [if_neg hf]
            exact ⟨rfl, hw'⟩

theorem setupBasePattern_does (appService usd pattern : XmlElement) {w : World D}
    (hn : n ≤ w.ledger.next) :
    Does env service n
      (fun _ w' => basePatternFaults cfg items protocol D env.rest appService usd pattern = [] ∧
        w.ledger.OneMore w'.ledger)
      (fun e w' =>
        (basePatternFaults cfg items protocol D env.rest appService usd pattern).head? = some e ∧
        w.ledger.OneMore w'.ledger)
      (setupBasePattern cfg items protocol service appService usd pattern) w := by
  unfold setupBasePattern basePatternFaults
  refine Program.holds_bind (Program.holds_ofExcept ?_)
  cases pattern.getText with
  | none => exact ⟨rfl, .refl _⟩
  | some base =>
    dsimp only [stdString, Except.Ensures]
    have hfold := Except.ensures_foldlM (F := deliveryMethodFaults items protocol D base)
      (I := fun r : ContentStream D × Bool =>
        (newContentStream cfg protocol base : ContentStream D).Configures r.1)
      (fun r d _ hr => readDeliveryMethod_ensures items protocol (by rfl) base hr d)
      (l := usd.childElements deliveryMethod) (b := (newContentStream cfg protocol base, false))
      (.refl _)
    unfold broadcastAvailable
    refine Program.holds_bind (Program.holds_ofExcept ?_)
    cases hr : (usd.childElements deliveryMethod).foldlM (readDeliveryMethod items base)
        ((newContentStream cfg protocol base : ContentStream D), false) with
    | error e =>
      rw [hr] at hfold
      exact ⟨by rw [List.head?_append, hfold]; rfl, .refl _⟩
    | ok r =>
      obtain ⟨cs, available⟩ := r
      rw [hr] at hfold
      obtain ⟨hfaults, hcs⟩ := hfold
      dsimp only [Except.Ensures]
      rw [hfaults, List.nil_append]
      have hstarted : (World.streamState (makeStream cfg cs)).started = false := by
        rw [makeStream_started, hcs.fluteThread]
        rfl
      have hnew : w.ledger.OneMore (w.ledger.create (World.streamState (makeStream cfg cs))) :=
        ⟨Nat.le_succ _, .inl rfl⟩
      refine Program.holds_bind ((newStream_does _ hstarted w).imp ?_ (fun _ _ h => h.elim))
      rintro _ w₁ ⟨rfl, hw₁⟩
      refine Program.holds_bind ((setupUnicastDelivery_does cfg appService base available hn
        ?_).imp ?_ ?_)
      · intro hseam
        simp [hw₁, StreamLedger.create, makeStream, hseam, World.streamState, AnyStream.asSeamless?]
      · rintro unicast w₂ ⟨hf, hw₂⟩
        rw [hf]
        have hl₂ := hw₂.trans hw₁
        by_cases hstart : (unicast || available) = true
        · rw [if_pos hstart]
          refine (addAndStart_does hn w₂).imp ?_ ?_
          · rintro _ w₃ ⟨_, hw₃⟩
            refine ⟨rfl, ?_⟩
            rw [hw₃, hl₂]
            exact ⟨Nat.le_succ _, .inr ⟨w.ledger.next, le_rfl, Nat.lt_succ_self _, rfl⟩⟩
          · rintro e w₃ ⟨_, ⟨_, hb⟩, _⟩
            rw [hl₂] at hb
            simp [StreamLedger.create, hstarted] at hb
        · rw [if_neg hstart]
          exact ⟨rfl, hl₂ ▸ hnew⟩
      · rintro e w₂ ⟨he, hw₂⟩
        exact ⟨he, (hw₂.trans hw₁) ▸ hnew⟩

end ServiceAnnouncement

end MbmsMiddleware
