import MbmsMiddleware.StreamCreation

/-! The two set-ups that walk through the delivery methods: each makes the
streams of a delivery method and then starts all streams it has made so far. -/

namespace MbmsMiddleware

open ServiceAnnouncementXmlElements

namespace ServiceAnnouncement

/-- A set-up by what it keeps, how it makes the streams of a delivery method,
and what can be said of that beforehand. -/
structure DeliveryFormat {D : Type} [DoubleText D] (env : Environment D) (service n : Nat) where
  Streams : Type
  none : Streams
  all : Streams → List Handle
  create : Streams → XmlElement → Handler D Streams
  faults : XmlElement → List Fault
  flute : XmlElement → Bool
  Makes : XmlElement → Prop
  all_none : all none = []
  terminate_notMem : ∀ deliveryMethod, .terminate ∉ faults deliveryMethod
  create_does : ∀ streams deliveryMethod (w : World D), n ≤ w.ledger.next →
    (∀ h ∈ all streams, Known n w.ledger h) →
    Does env service n
      (fun streams' w' => faults deliveryMethod = [] ∧ ∃ new,
        (all streams').Perm (all streams ++ new) ∧ w.ledger.Extends new w'.ledger ∧
        new.any (fun h => (w'.ledger.state h.address).flute) = flute deliveryMethod ∧
        (all streams = [] → (new ≠ [] ↔ Makes deliveryMethod)))
      (fun e w' => (faults deliveryMethod).head? = some e ∧ ∃ new, w.ledger.Extends new w'.ledger)
      (create streams deliveryMethod) w

namespace DeliveryFormat

variable {D : Type} [DoubleText D] {env : Environment D} {service n : Nat}

/-- The body of the loop over the delivery methods. -/
def step (F : DeliveryFormat env service n) (streams : F.Streams) (deliveryMethod : XmlElement) :
    Handler D F.Streams := do
  let streams ← F.create streams deliveryMethod
  ((F.all streams).map Handle.address).forM (addAndStartContentStream service)
  pure streams

end DeliveryFormat

variable {D : Type} [DoubleText D] (env : Environment D) (service n : Nat) (cfg : Config)
  (items : List Item) (protocol : DeliveryProtocol)

theorem any_map_state {l : StreamLedger} {new : List Handle} {made : List StreamState}
    (h : new.map (fun h => l.state h.address) = made) :
    new.any (fun h => (l.state h.address).flute) = made.any StreamState.flute := by
  rw [← h, List.any_map]
  rfl

theorem createBy5GMagConfig_does (appService : Option XmlElement)
    (streams : List Handle × List Handle) (deliveryMethod : XmlElement) (w : World D)
    (hn : n ≤ w.ledger.next) (hk : ∀ h ∈ streams.2 ++ streams.1, Known n w.ledger h) :
    Does env service n
      (fun streams' w' => faultsBy5GMagConfig cfg items protocol (D := D) env.rest appService deliveryMethod = [] ∧
        ∃ new, (streams'.2 ++ streams'.1).Perm (streams.2 ++ streams.1 ++ new) ∧
          w.ledger.Extends new w'.ledger ∧
          new.any (fun h => (w'.ledger.state h.address).flute) =
            (broadcastStreams (streamOf5GMagConfig cfg items protocol (D := D)) deliveryMethod).any
              (World.streamState · |>.flute) ∧
          (streams.2 ++ streams.1 = [] → (new ≠ [] ↔
            broadcastStreams (streamOf5GMagConfig cfg items protocol (D := D)) deliveryMethod ≠ [] ∨
              HasUnicast cfg appService deliveryMethod)))
      (fun e w' =>
        (faultsBy5GMagConfig cfg items protocol (D := D) env.rest appService deliveryMethod).head? = some e ∧
        ∃ new, w.ledger.Extends new w'.ledger)
      (createBy5GMagConfig cfg items protocol appService streams deliveryMethod) w := by
  unfold createBy5GMagConfig faultsBy5GMagConfig broadcastFaults broadcastStreams
  refine Program.holds_bind (Program.holds_ofExcept ?_)
  cases deliveryMethod.attributeValue sessionDescriptionUri with
  | none => exact ⟨rfl, [], .refl _⟩
  | some sdpUri =>
    dsimp only [deref, Except.Ensures]
    refine Program.holds_bind ((createBroadcastStreams_does
      (streamOf5GMagConfig_unstarted cfg items protocol sdpUri) streams.1 deliveryMethod w).imp ?_ ?_)
    · rintro _ w₁ ⟨hf, nb, rfl, hext, hstate⟩
      have hk₁ : ∀ h ∈ streams.1 ++ nb, Known n w₁.ledger h := by
        intro h hh
        rcases List.mem_append.mp hh with hh | hh
        · exact (hk h (by simp [hh])).extends hext
        · exact .of_extends hext hn hh
      rw [hf, List.nil_append]
      refine Program.holds_bind ((createUnicastStreams_does cfg protocol _ appService _ streams.2
        deliveryMethod (hn.trans hext.next) hk₁).imp ?_ ?_)
      · rintro _ w₂ ⟨hf', nu, rfl, hext', hflute, hlen⟩
        have hstate' : nb.map (fun h => w₂.ledger.state h.address) =
            nb.map (fun h => w₁.ledger.state h.address) :=
          List.map_congr_left fun h hh => hext'.old _ (hext.range h hh).2
        refine ⟨hf', nb ++ nu, ?_, hext.trans hext', ?_, ?_⟩
        · simp only [List.append_assoc]
          refine List.Perm.append_left _ ?_
          rw [← List.append_assoc streams.1]
          exact List.perm_append_comm
        · have hnu : nu.any (fun h => (w₂.ledger.state h.address).flute) = false := by
            simpa using hflute
          rw [List.any_append, hnu, Bool.or_false, any_map_state (hstate'.trans hstate), List.any_map]
          rfl
        · intro hnil
          have hstreams : nb = [] ↔ patternStreams (streamOf5GMagConfig (D := D) cfg items protocol
              sdpUri) deliveryMethod.broadcastPatterns = [] := by
            rw [← List.map_eq_nil_iff, hstate, List.map_eq_nil_iff]
          by_cases hb : nb = []
          · have hl := hlen (by rw [hb, (List.append_eq_nil_iff.mp hnil).2, List.append_nil])
            rw [ne_eq, List.length_eq_zero_iff] at hl
            simpa [hb, hstreams.mp hb] using hl
          · simp [hb, mt hstreams.mpr hb]
      · rintro e w₂ ⟨he, nu, hext'⟩
        exact ⟨he, nb ++ nu, hext.trans hext'⟩
    · rintro e w₁ ⟨he, hext⟩
      rw [List.head?_append, he]
      exact ⟨rfl, hext⟩

theorem createByLegacyFormat_does (basePath : Str) (streams : List Handle)
    (deliveryMethod : XmlElement) (w : World D) :
    Does env service n
      (fun streams' w' =>
        broadcastFaults (streamOfLegacyFormat cfg items protocol basePath (D := D))
          deliveryMethod = [] ∧
        ∃ new, streams' = streams ++ new ∧ w.ledger.Extends new w'.ledger ∧
          new.any (fun h => (w'.ledger.state h.address).flute) =
            (broadcastStreams (streamOfLegacyFormat cfg items protocol basePath (D := D))
              deliveryMethod).any (World.streamState · |>.flute) ∧
          (new ≠ [] ↔ broadcastStreams (streamOfLegacyFormat cfg items protocol basePath (D := D))
            deliveryMethod ≠ []))
      (fun e w' =>
        (broadcastFaults (streamOfLegacyFormat cfg items protocol basePath (D := D))
          deliveryMethod).head? = some e ∧ ∃ new, w.ledger.Extends new w'.ledger)
      (createByLegacyFormat cfg items protocol basePath streams deliveryMethod) w := by
  unfold createByLegacyFormat broadcastFaults broadcastStreams
  refine Program.holds_bind (Program.holds_ofExcept ?_)
  cases deliveryMethod.attributeValue sessionDescriptionUri with
  | none => exact ⟨rfl, [], .refl _⟩
  | some sdpUri =>
    dsimp only [deref, Except.Ensures]
    refine (createBroadcastStreams_does
      (streamOfLegacyFormat_unstarted cfg items protocol basePath sdpUri) streams deliveryMethod
      w).imp ?_ (fun _ _ h => h)
    rintro _ w₁ ⟨hf, new, rfl, hext, hstate⟩
    refine ⟨hf, new, rfl, hext, ?_, ?_⟩
    · rw [any_map_state hstate, List.any_map]
      rfl
    · rw [ne_eq, ne_eq, ← List.map_eq_nil_iff, hstate, List.map_eq_nil_iff]

/-- The unicast streams come before the broadcast streams. -/
def format5GMagConfig (appService : Option XmlElement) : DeliveryFormat env service n where
  Streams := List Handle × List Handle
  none := ([], [])
  all streams := streams.2 ++ streams.1
  create := createBy5GMagConfig cfg items protocol appService
  faults := faultsBy5GMagConfig cfg items protocol D env.rest appService
  flute d := (broadcastStreams (streamOf5GMagConfig cfg items protocol (D := D)) d).any
    (World.streamState · |>.flute)
  Makes := MakesBy5GMagConfig cfg items protocol D appService
  all_none := rfl
  terminate_notMem d hm := by
    rcases List.mem_append.mp hm with hm | hm
    · exact terminate_notMem_broadcastFaults
        (fun _ _ _ h => streamOf5GMagConfig_exception cfg items protocol h) d hm
    · exact terminate_notMem_unicastFaults cfg env.rest appService d hm
  create_does := createBy5GMagConfig_does env service n cfg items protocol appService

def formatLegacy (basePath : Str) : DeliveryFormat env service n where
  Streams := List Handle
  none := []
  all streams := streams
  create := createByLegacyFormat cfg items protocol basePath
  faults := faultsByLegacyFormat cfg items protocol D basePath
  flute d := (broadcastStreams (streamOfLegacyFormat cfg items protocol basePath (D := D)) d).any
    (World.streamState · |>.flute)
  Makes := MakesByLegacyFormat cfg items protocol D basePath
  all_none := rfl
  terminate_notMem := terminate_notMem_broadcastFaults
    (fun _ _ _ h => streamOfLegacyFormat_exception cfg items protocol h)
  create_does streams d w _ _ := by
    refine (createByLegacyFormat_does env service n cfg items protocol basePath streams d w).imp ?_
      (fun _ _ h => h)
    rintro _ w' ⟨hf, new, rfl, hext, hflute, hnew⟩
    exact ⟨hf, new, .refl _, hext, hflute, fun _ => hnew⟩

theorem deliveryMethodBy5GMagConfig_eq (appService : Option XmlElement) :
    deliveryMethodBy5GMagConfig (D := D) cfg items protocol service appService =
      (format5GMagConfig env service n cfg items protocol appService).step := by
  funext streams d
  simp only [deliveryMethodBy5GMagConfig, DeliveryFormat.step, format5GMagConfig,
    List.forM_eq_forM, List.map_append, List.forM_append, List.forM_map, bind_assoc]

theorem deliveryMethodByLegacyFormat_eq (basePath : Str) :
    deliveryMethodByLegacyFormat (D := D) cfg items protocol service basePath =
      (formatLegacy env service n cfg items protocol basePath).step := by
  funext streams d
  simp only [deliveryMethodByLegacyFormat, DeliveryFormat.step, formatLegacy, List.forM_eq_forM,
    List.forM_map]

end ServiceAnnouncement

end MbmsMiddleware
