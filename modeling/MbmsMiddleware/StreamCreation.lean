import MbmsMiddleware.StreamLedger

/-! Making and starting streams: what each part of a set-up does to the streams
of the middleware, and which of the faults of its elements it fails with. -/

namespace MbmsMiddleware

open ServiceAnnouncementXmlElements

namespace ServiceAnnouncement

variable {D : Type} [DoubleText D] (env : Environment D) (service n : Nat)

/-- The calls a set-up of a service makes when it has not touched an address
below `n`: it makes streams, and works on the streams it has made. -/
def OwnCall : MiddlewareCall D → World D → Prop
  | .newStream s, _ => (World.streamState s).started = false
  | .setCdnEndpoint a _, _ => n ≤ a
  | .addAndStartContentStream s a, _ => s = service ∧ n ≤ a
  | _, _ => False

abbrev Does {α : Type} (Q : α → World D → Prop) (E : Fault → World D → Prop)
    (p : Handler D α) (w : World D) : Prop :=
  Program.Holds (World.perform env) (OwnCall service n) Q E p w

variable {env service n}

section Calls

theorem newStream_does (s : AnyStream D) (hs : (World.streamState s).started = false) (w : World D) :
    Does env service n (fun a w' => a = w.ledger.next ∧
      w'.ledger = w.ledger.create (World.streamState s)) (fun _ _ => False) (newStream s) w :=
  Program.holds_perform hs (World.ledger_newStream env s w)

theorem setCdnEndpoint_does {a : Nat} (ha : n ≤ a) (url : Str) {w : World D}
    (hs : (w.ledger.state a).seamless = true) :
    Does env service n (fun _ w' => endpointFaults env.rest url = [] ∧ w'.ledger = w.ledger)
      (fun e w' => (endpointFaults env.rest url).head? = some e ∧ w'.ledger = w.ledger)
      (setCdnEndpoint a url) w :=
  Program.holds_perform ha (World.ledger_setCdnEndpoint env a url w hs)

theorem addAndStart_does {a : Nat} (ha : n ≤ a) (w : World D) :
    Does env service n (fun _ w' => ¬ w.ledger.Blocked a ∧ w'.ledger = w.ledger.start a)
      (fun e w' => e = .terminate ∧ w.ledger.Blocked a ∧ w'.ledger = w.ledger.start a)
      (addAndStartContentStream service a) w :=
  Program.holds_perform ⟨rfl, ha⟩ (World.ledger_addAndStart env service a w)

/-- A sequence of different streams is started up to the first of them that is
running already. -/
theorem startAll_does {l : List Nat} (hl : ∀ a ∈ l, n ≤ a) (hd : l.Nodup) (w : World D) :
    Does env service n
      (fun _ w' => (∀ a ∈ l, ¬ w.ledger.Blocked a) ∧ w'.ledger = l.foldl .start w.ledger)
      (fun e w' => e = .terminate ∧ ∃ pre a, pre ++ [a] <+: l ∧ w.ledger.Blocked a ∧
        w'.ledger = (pre ++ [a]).foldl .start w.ledger)
      (l.forM (addAndStartContentStream service)) w := by
  induction l generalizing w with
  | nil => exact ⟨by simp, rfl⟩
  | cons a l ih =>
    have hforM : (a :: l).forM (addAndStartContentStream (D := D) service) =
        addAndStartContentStream service a >>= fun _ =>
          l.forM (addAndStartContentStream service) := rfl
    obtain ⟨hal, hd⟩ := List.nodup_cons.mp hd
    rw [hforM]
    refine Program.holds_bind
      ((addAndStart_does (hl a (by simp)) w).imp ?_ ?_)
    · rintro _ w' ⟨hb, hw⟩
      have hblocked : ∀ b ∈ l, w'.ledger.Blocked b ↔ w.ledger.Blocked b := by
        intro b hbl
        have hne : b ≠ a := fun h => hal (h ▸ hbl)
        simp only [hw, StreamLedger.Blocked, StreamLedger.start_state_of_ne _ hne]
      refine (ih (fun b hb => hl b (by simp [hb])) hd w').imp ?_ ?_
      · rintro _ w'' ⟨hb', hw'⟩
        refine ⟨?_, by rw [hw', hw, List.foldl_cons]⟩
        intro b hbl
        rcases List.mem_cons.mp hbl with rfl | hbl
        · exact hb
        · exact fun hc => hb' b hbl ((hblocked b hbl).mpr hc)
      · rintro e w'' ⟨rfl, pre, b, hpre, hb', hw'⟩
        have hbl : b ∈ l := hpre.subset (by simp)
        exact ⟨rfl, a :: pre, b, List.cons_prefix_cons.mpr ⟨rfl, hpre⟩, (hblocked b hbl).mp hb',
          by rw [hw', hw, List.cons_append, List.foldl_cons]⟩
    · rintro e w' ⟨rfl, hb, hw⟩
      exact ⟨rfl, [], a, by simp, hb, by rw [hw]; rfl⟩

end Calls

section Broadcast

variable {streamOf : XmlElement → Except Fault (Option (AnyStream D))}

theorem pushBack_does {s : AnyStream D} (hs : (World.streamState s).started = false)
    (streams : List Handle) {w₀ w : World D} {new : List Handle}
    (hw : w₀.ledger.Extends new w.ledger) :
    Does env service n
      (fun streams' w' => ∃ h, streams' = streams ++ [h] ∧ w₀.ledger.Extends (new ++ [h]) w'.ledger ∧
        (new ++ [h]).map (fun h => w'.ledger.state h.address) =
          new.map (fun h => w.ledger.state h.address) ++ [World.streamState s])
      (fun _ _ => False) (pushBack streams s) w := by
  refine Program.holds_bind ((newStream_does s hs w).imp ?_ (fun _ _ h => h))
  rintro a w' ⟨rfl, hw'⟩
  refine ⟨_, rfl, hw' ▸ hw.create hs _, ?_⟩
  rw [hw']
  exact hw.map_state_create _ _

theorem createBroadcastStreams_does (hs : ∀ p s, streamOf p = .ok (some s) →
      (World.streamState s).started = false)
    (streams : List Handle) (deliveryMethod : XmlElement) (w : World D) :
    Does env service n
      (fun streams' w' => patternFaults streamOf deliveryMethod.broadcastPatterns = [] ∧
        ∃ new, streams' = streams ++ new ∧ w.ledger.Extends new w'.ledger ∧
          new.map (fun h => w'.ledger.state h.address) =
            (patternStreams streamOf deliveryMethod.broadcastPatterns).map World.streamState)
      (fun e w' => (patternFaults streamOf deliveryMethod.broadcastPatterns).head? = some e ∧
        ∃ new, w.ledger.Extends new w'.ledger)
      (createBroadcastStreams streamOf streams deliveryMethod) w := by
  simp only [createBroadcastStreams, XmlElement.broadcastPatterns]
  cases deliveryMethod.firstChildElement broadcastAppService with
  | none => exact ⟨rfl, [], by simp, .refl _, rfl⟩
  | some broadcast =>
    refine Program.holds_foldlM (F := fun p => faultOf (streamOf p))
      (I := fun done streams' (w' : World D) => ∃ new, streams' = streams ++ new ∧
        w.ledger.Extends new w'.ledger ∧ new.map (fun h => w'.ledger.state h.address) =
          (patternStreams streamOf done).map World.streamState)
      (J := fun w' : World D => ∃ new, w.ledger.Extends new w'.ledger) ?_
      ⟨[], by rw [List.append_nil], .refl _, rfl⟩
    rintro done _ p w' - ⟨new, rfl, hext, hstate⟩
    cases hp : streamOf p with
    | error e => exact ⟨rfl, new, hext⟩
    | ok s? =>
      cases s? with
      | none =>
        exact ⟨rfl, new, rfl, hext, by simp [hstate, patternStreams, hp, Except.toOption]⟩
      | some s =>
        refine (pushBack_does (hs p s hp) _ hext).imp ?_
          (fun _ _ h => h.elim)
        rintro _ w'' ⟨h, rfl, hext', hstate'⟩
        refine ⟨rfl, new ++ [h], by simp, hext', ?_⟩
        rw [hstate', hstate]
        simp [patternStreams, hp, Except.toOption]

theorem readManifestItem_configures {readManifest : Bool} {manifestUrl : Str} {item : Item}
    {cs cs' : ContentStream D}
    (h : readManifestItem readManifest manifestUrl item cs = .ok cs') : cs.Configures cs' := by
  unfold readManifestItem at h
  split at h
  · exact ContentStream.readMasterManifest_configures h
  · cases h
    exact .refl cs

theorem configureFromItems_configures {items : List Item} {readManifest : Bool}
    {manifestUrl sdpUri : Str} {cs cs' : ContentStream D}
    (h : configureFromItems items readManifest manifestUrl sdpUri cs = .ok cs') :
    cs.Configures cs' := by
  refine Runs.foldlM_ok (fun t item t' _ ht hf => ?_) (.refl cs) h
  obtain ⟨u, hu, hf⟩ := Except.eq_ok_of_bind hf
  have htu := ht.trans (readManifestItem_configures hu)
  split at hf
  · obtain ⟨_, _, hf⟩ := Except.eq_ok_of_bind hf
    cases hf
    exact htu.trans (u.configure5gbcDeliveryFromSdp_configures item.content)
  · cases hf
    exact htu

omit [DoubleText D] in
theorem makeStream_started (cfg : Config) (cs : ContentStream D) :
    (World.streamState (makeStream cfg cs)).started = cs.fluteThread.isSome := by
  unfold makeStream
  split <;> rfl

theorem streamOf5GMagConfig_unstarted (cfg : Config) (items : List Item)
    (protocol : DeliveryProtocol) (sdpUri : Str) (pattern : XmlElement) (s : AnyStream D)
    (h : streamOf5GMagConfig cfg items protocol sdpUri pattern = .ok (some s)) :
    (World.streamState s).started = false := by
  obtain ⟨url, _, h⟩ := Except.eq_ok_of_bind h
  obtain ⟨cs, hcs, h⟩ := Except.eq_ok_of_bind h
  cases h
  rw [makeStream_started, (configureFromItems_configures hcs).fluteThread]
  rfl

theorem streamOfLegacyFormat_unstarted (cfg : Config) (items : List Item)
    (protocol : DeliveryProtocol) (basePath sdpUri : Str) (pattern : XmlElement) (s : AnyStream D)
    (h : streamOfLegacyFormat cfg items protocol basePath sdpUri pattern = .ok (some s)) :
    (World.streamState s).started = false := by
  obtain ⟨url, _, h⟩ := Except.eq_ok_of_bind h
  split at h
  · obtain ⟨cs, hcs, h⟩ := Except.eq_ok_of_bind h
    cases h
    change cs.fluteThread.isSome = false
    rw [(configureFromItems_configures hcs).fluteThread]
    rfl
  · cases h

end Broadcast

section Unicast

/-- What a handle says of its stream is so, and the stream is the set-up's own. -/
structure Known (n : Nat) (l : StreamLedger) (h : Handle) : Prop where
  own : n ≤ h.address
  made : h.address < l.next
  seamless : (l.state h.address).seamless = h.seamless

theorem Known.extends {l l' : StreamLedger} {new : List Handle} {h : Handle} (hk : Known n l h)
    (hext : l.Extends new l') : Known n l' h where
  own := hk.own
  made := hk.made.trans_le hext.next
  seamless := by rw [hext.old _ hk.made, hk.seamless]

theorem Known.of_extends {l l' : StreamLedger} {new : List Handle} {h : Handle}
    (hext : l.Extends new l') (hn : n ≤ l.next) (hh : h ∈ new) : Known n l' h where
  own := hn.trans (hext.range h hh).1
  made := (hext.range h hh).2
  seamless := hext.seamless h hh

theorem identicalContentStream_ensures (broadcastContentStreams : List Handle) (unicastUrl : Str)
    (identical : XmlElement) :
    (identicalContentStream broadcastContentStreams unicastUrl identical).Ensures
      (fun r => (identical.childElements basePattern).flatMap XmlElement.missingText = [] ∧
        ∀ a, r.1 = some a → ∃ h ∈ broadcastContentStreams, h.address = a ∧ h.seamless = true)
      (fun e =>
        ((identical.childElements basePattern).flatMap XmlElement.missingText).head? = some e) := by
  refine Except.ensures_foldlM (F := XmlElement.missingText)
    (I := fun r : Option Nat × Bool => ∀ a, r.1 = some a →
      ∃ h ∈ broadcastContentStreams, h.address = a ∧ h.seamless = true) ?_ (by simp)
  rintro ⟨stream, found⟩ pattern - hr
  refine Except.ensures_bind ?_
  unfold XmlElement.missingText
  cases pattern.getText with
  | none => exact rfl
  | some url =>
    change Except.Ensures _ _ (if unicastUrl = url then _ else _)
    split
    · exact ⟨rfl, hr⟩
    · refine ⟨rfl, ?_⟩
      refine Runs.foldl_invariant_of_mem (I := fun s : Option Nat => ∀ a, s = some a →
        ∃ h ∈ broadcastContentStreams, h.address = a ∧ h.seamless = true) ?_ hr
      intro s h hm hs a ha
      split at ha
      · split at ha
        · next hseam =>
          cases ha
          exact ⟨h, hm, rfl, hseam⟩
        · cases ha
      · exact hs a ha

variable (cfg : Config) (protocol : DeliveryProtocol)

variable (env service) in
theorem newUnicastStream_does (manifestUrl unicastUrl : Str) {streams streams' : List Handle}
    {l : StreamLedger} {P Q : Nat → Prop} {w : World D} (hn : n ≤ l.next)
    (hmade : l.MadeUnicast streams streams' P w.ledger) (hP : ∀ k, P k → Q (k + 1)) :
    Does env service n
      (fun streams' w' => endpointFaults env.rest unicastUrl = [] ∧
        l.MadeUnicast streams streams' Q w'.ledger)
      (fun e w' => (endpointFaults env.rest unicastUrl).head? = some e ∧
        ∃ new, l.Extends new w'.ledger)
      (do
        let cs := newSeamlessContentStream cfg (newContentStream cfg protocol manifestUrl)
        let address ← newStream (.seamless cs)
        setCdnEndpoint address unicastUrl
        pure (streams' ++ [⟨address, manifestUrl, true⟩])) w := by
  have hstate : World.streamState
      (AnyStream.seamless (newSeamlessContentStream cfg
        (newContentStream cfg protocol manifestUrl : ContentStream D))) = ⟨false, false, true⟩ := by
    rfl
  refine Program.holds_bind ((newStream_does _ (by rw [hstate]) w).imp ?_ (fun _ _ h => h.elim))
  rintro _ w' ⟨rfl, hw'⟩
  have hmade' := hmade.create hP manifestUrl
  have hnext : l.next ≤ w.ledger.next := by
    obtain ⟨new, _, hext, _⟩ := hmade
    exact hext.next
  rw [hstate] at hw'
  rw [← hw'] at hmade'
  refine Program.holds_bind ((setCdnEndpoint_does (hn.trans hnext) unicastUrl ?_).imp ?_ ?_)
  · simp [hw', StreamLedger.create]
  · rintro _ w'' ⟨hf, hw''⟩
    exact ⟨hf, by rwa [hw'']⟩
  · rintro e w'' ⟨he, hw''⟩
    obtain ⟨new, _, hext, _⟩ := hmade'
    exact ⟨he, new, hw'' ▸ hext⟩

theorem setupUnicast_does (manifestUrl : Str) (appService : Option XmlElement)
    (broadcastContentStreams unicastContentStreams : List Handle) (pattern : XmlElement)
    {l : StreamLedger} {streams : List Handle} {k : Nat} {w : World D} (hn : n ≤ l.next)
    (hk : ∀ h ∈ broadcastContentStreams, Known n l h)
    (hmade : l.MadeUnicast streams unicastContentStreams
      (fun m => broadcastContentStreams = [] → m = k) w.ledger) :
    Does env service n
      (fun streams' w' => unicastPatternFaults env.rest appService pattern = [] ∧
        l.MadeUnicast streams streams' (fun m => broadcastContentStreams = [] →
          m = k + (appService.elim [] (·.childElements identicalContent)).length) w'.ledger)
      (fun e w' => (unicastPatternFaults env.rest appService pattern).head? = some e ∧
        ∃ new, l.Extends new w'.ledger)
      (setupUnicast cfg protocol manifestUrl appService broadcastContentStreams
        unicastContentStreams pattern) w := by
  have hgrown : ∃ new, l.Extends new w.ledger := by
    obtain ⟨new, _, hext, _⟩ := hmade
    exact ⟨new, hext⟩
  unfold setupUnicast unicastPatternFaults
  cases ht : pattern.getText with
  | none => exact ⟨rfl, hgrown⟩
  | some unicastUrl =>
    cases appService with
    | none => exact ⟨rfl, hgrown⟩
    | some appService =>
      refine Program.holds_foldlM
        (F := fun identical : XmlElement =>
          (identical.childElements basePattern).flatMap XmlElement.missingText ++
            endpointFaults env.rest unicastUrl)
        (I := fun d streams' (w' : World D) => l.MadeUnicast streams streams'
          (fun m => broadcastContentStreams = [] → m = k + d.length) w'.ledger)
        (J := fun w' : World D => ∃ new, l.Extends new w'.ledger) ?_ hmade
      intro d streams' identical w' _ hmade'
      have hnew := newUnicastStream_does env service cfg protocol manifestUrl unicastUrl
        (Q := fun m => broadcastContentStreams = [] → m = k + (d ++ [identical]).length)
        hn hmade' (fun m hm hb => by rw [hm hb, List.length_append, List.length_singleton, Nat.add_assoc])
      obtain ⟨new, _, hext, hflute, hlen⟩ := hmade'
      refine Program.holds_bind (Program.holds_ofExcept
        ((identicalContentStream_ensures broadcastContentStreams unicastUrl identical).mono ?_ ?_))
      · rintro ⟨stream, found⟩ ⟨hmissing, hstream⟩
        rw [hmissing, List.nil_append]
        cases stream with
        | none => exact hnew
        | some a =>
          cases found with
          | false => exact hnew
          | true =>
            obtain ⟨h, hh, rfl, hseam⟩ := hstream a rfl
            have hka := (hk h hh).extends hext
            refine Program.holds_bind ((setCdnEndpoint_does hka.own unicastUrl
              (hka.seamless.trans hseam)).imp ?_ ?_)
            · rintro _ w'' ⟨hf, hw''⟩
              rw [← hw''] at hext hflute
              refine ⟨hf, new, ‹_›, hext, hflute, fun hb => ?_⟩
              rw [hb] at hh
              cases hh
            · rintro e w'' ⟨he, hw''⟩
              exact ⟨he, new, hw'' ▸ hext⟩
      · intro e he
        rw [List.head?_append, he]
        exact ⟨rfl, new, hext⟩

theorem createUnicastStreams_does (manifestUrl : Str) (appService : Option XmlElement)
    (broadcastContentStreams unicastContentStreams : List Handle) (deliveryMethod : XmlElement)
    {w : World D} (hn : n ≤ w.ledger.next)
    (hk : ∀ h ∈ broadcastContentStreams, Known n w.ledger h) :
    Does env service n
      (fun streams' w' => unicastFaults cfg env.rest appService deliveryMethod = [] ∧
        w.ledger.MadeUnicast unicastContentStreams streams' (fun m =>
          broadcastContentStreams = [] →
            (m ≠ 0 ↔ HasUnicast cfg appService deliveryMethod)) w'.ledger)
      (fun e w' => (unicastFaults cfg env.rest appService deliveryMethod).head? = some e ∧
        ∃ new, w.ledger.Extends new w'.ledger)
      (createUnicastStreams cfg protocol manifestUrl appService broadcastContentStreams
        unicastContentStreams deliveryMethod) w := by
  unfold createUnicastStreams unicastFaults HasUnicast XmlElement.unicastPatterns
  cases cfg.seamless with
  | false => exact ⟨rfl, [], by simp, .refl _, by simp, by simp⟩
  | true =>
    cases deliveryMethod.firstChildElement unicastAppService with
    | none => exact ⟨rfl, [], by simp, .refl _, by simp, by simp⟩
    | some unicast =>
      refine (Program.holds_foldlM (F := unicastPatternFaults env.rest appService)
        (I := fun d streams' (w' : World D) => w.ledger.MadeUnicast unicastContentStreams streams'
          (fun m => broadcastContentStreams = [] →
            m = d.length * (appService.elim [] (·.childElements identicalContent)).length) w'.ledger)
        (J := fun w' : World D => ∃ new, w.ledger.Extends new w'.ledger) ?_
        ⟨[], by rw [List.append_nil], .refl _, by simp, by simp⟩).imp ?_ (fun _ _ h => h)
      · intro d streams' pattern w' _ hmade
        refine (setupUnicast_does cfg protocol manifestUrl appService broadcastContentStreams
          streams' pattern hn hk hmade).imp ?_ (fun _ _ h => h)
        rintro _ w'' ⟨hf, hmade'⟩
        simp only [List.length_append, List.length_singleton, Nat.succ_mul]
        exact ⟨hf, hmade'⟩
      · rintro _ w' ⟨hf, new, hnew, hext, hflute, hlen⟩
        refine ⟨hf, new, hnew, hext, hflute, fun hb => ?_⟩
        rw [hlen hb, Nat.mul_ne_zero_iff]
        cases appService <;> simp [List.length_eq_zero_iff]

end Unicast

end ServiceAnnouncement

end MbmsMiddleware
