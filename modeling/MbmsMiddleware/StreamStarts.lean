import MbmsMiddleware.AlternativeContent
import MbmsMiddleware.DeliveryFormats

/-! How often the streams of a set-up are started. The vectors of the streams
live across the delivery methods, and all they hold is started after each. -/

namespace MbmsMiddleware

open ServiceAnnouncementXmlElements

/-- No address from `n` on has been added to a list more than once. -/
def AtMostOnce (n : Nat) (before after : List Nat) : Prop :=
  ∀ a, n ≤ a → after.count a ≤ before.count a + 1

theorem not_atMostOnce_append {n a : Nat} {before after pre post : List Nat} (hn : n ≤ a)
    (ha : before.count a + 1 ≤ after.count a) (hpost : a ∈ post) :
    ¬ AtMostOnce n before (after ++ pre ++ post) := by
  intro h
  have hh := h a hn
  have hpos := List.count_pos_iff.mpr hpost
  rw [List.count_append, List.count_append] at hh
  omega

namespace ServiceAnnouncement

/-- The streams of the first delivery method that makes any are started again
after the next delivery method, unless setting that one up fails. -/
def StartsOnce (faults : XmlElement → List Fault) (Makes : XmlElement → Prop) :
    List XmlElement → Prop
  | [] => True
  | d :: ds => faults d = [] →
    (Makes d → ∀ next ∈ ds.head?, faults next ≠ []) ∧ (¬ Makes d → StartsOnce faults Makes ds)

variable {D : Type} [DoubleText D] {env : Environment D} {service n : Nat}

namespace DeliveryFormat

variable (F : DeliveryFormat env service n)

/-- What is known of the streams in the vectors between two delivery methods. -/
structure Settled (streams : F.Streams) (l : StreamLedger) : Prop where
  known : ∀ h ∈ F.all streams, Known n l h
  distinct : ((F.all streams).map Handle.address).Nodup
  started : ∀ h ∈ F.all streams, (l.state h.address).flute = true →
    (l.state h.address).started = true

/-- A stream with a FLUTE session is in the vectors. -/
def older (streams : F.Streams) (l : StreamLedger) : Bool :=
  (F.all streams).any fun h => (l.state h.address).flute

variable {F}

/-- Of the streams in the vectors, those made before the last delivery method
with a FLUTE session are the ones that are running already. -/
theorem Settled.blocked_iff {streams streams' : F.Streams} {l l' : StreamLedger}
    {new : List Handle} (hs : F.Settled streams l)
    (hperm : (F.all streams').Perm (F.all streams ++ new)) (hext : l.Extends new l')
    {h : Handle} (hh : h ∈ F.all streams') :
    l'.Blocked h.address ↔ h ∈ F.all streams ∧ (l.state h.address).flute = true := by
  constructor
  · rintro ⟨hf, hst⟩
    rcases List.mem_append.mp (hperm.subset hh) with hh | hh
    · rw [hext.old _ (hs.known h hh).made] at hf
      exact ⟨hh, hf⟩
    · rw [hext.unstarted h hh] at hst
      cases hst
  · rintro ⟨hh, hf⟩
    rw [StreamLedger.Blocked, hext.old _ (hs.known h hh).made]
    exact ⟨hf, hs.started h hh hf⟩

theorem Settled.distinct_append {streams : F.Streams} {l l' : StreamLedger}
    {new : List Handle} (hs : F.Settled streams l) (hext : l.Extends new l') :
    ((F.all streams ++ new).map Handle.address).Nodup := by
  rw [List.map_append, List.nodup_append]
  refine ⟨hs.distinct, hext.distinct, ?_⟩
  intro a ha b hb
  obtain ⟨x, hx, rfl⟩ := List.mem_map.mp ha
  obtain ⟨y, hy, rfl⟩ := List.mem_map.mp hb
  exact ((hs.known x hx).made.trans_le (hext.range y hy).1).ne

theorem Settled.start {streams streams' : F.Streams} {l l' : StreamLedger}
    {new : List Handle} (hs : F.Settled streams l) (hn : n ≤ l.next)
    (hperm : (F.all streams').Perm (F.all streams ++ new)) (hext : l.Extends new l') :
    F.Settled streams' (((F.all streams').map Handle.address).foldl .start l') where
  known h hh := by
    have hk : Known n l' h := by
      rcases List.mem_append.mp (hperm.subset hh) with hh | hh
      · exact (hs.known h hh).extends hext
      · exact .of_extends hext hn hh
    exact ⟨hk.own, by simpa using hk.made, by simpa using hk.seamless⟩
  distinct := (hperm.map _).nodup_iff.mpr (hs.distinct_append hext)
  started h hh hf := by
    rw [StreamLedger.foldl_start_flute] at hf
    rw [StreamLedger.foldl_start_started, hf, decide_eq_true (List.mem_map_of_mem hh)]
    simp

theorem step_does {streams : F.Streams} {w : World D} (hn : n ≤ w.ledger.next)
    (hs : F.Settled streams w.ledger) (deliveryMethod : XmlElement) :
    Does env service n
      (fun streams' w' => F.faults deliveryMethod = [] ∧ F.older streams w.ledger = false ∧
        ∃ new, (F.all streams').Perm (F.all streams ++ new) ∧ F.Settled streams' w'.ledger ∧
          w.ledger.next ≤ w'.ledger.next ∧ (∀ h ∈ new, w.ledger.next ≤ h.address) ∧
          w'.ledger.passed = w.ledger.passed ++ (F.all streams').map Handle.address ∧
          F.older streams' w'.ledger = F.flute deliveryMethod ∧
          (F.all streams = [] → (new ≠ [] ↔ F.Makes deliveryMethod)))
      (fun e w' => (F.faults deliveryMethod).head? = some e ∧ w'.ledger.passed = w.ledger.passed ∨
        F.faults deliveryMethod = [] ∧ e = .terminate ∧ F.older streams w.ledger = true ∧
          ∃ pre, ∃ h ∈ F.all streams, w'.ledger.passed = w.ledger.passed ++ (pre ++ [h.address]))
      (F.step streams deliveryMethod) w := by
  refine Program.holds_bind ((F.create_does streams deliveryMethod w hn hs.known).imp ?_ ?_)
  · rintro streams' w₁ ⟨hf, new, hperm, hext, hflute, hmakes⟩
    have hsettled := hs.start hn hperm hext
    have hown : ∀ a ∈ (F.all streams').map Handle.address, n ≤ a := by
      intro a ha
      obtain ⟨h, hh, rfl⟩ := List.mem_map.mp ha
      exact (hsettled.known h hh).own
    refine Program.holds_bind ((startAll_does hown hsettled.distinct w₁).imp ?_ ?_)
    · rintro _ w₂ ⟨hb, hw₂⟩
      have holder : F.older streams w.ledger = false := by
        refine List.any_eq_false.mpr fun h hh hfl => ?_
        have hh' := hperm.symm.subset (List.mem_append_left new hh)
        exact hb _ (List.mem_map_of_mem hh') ((hs.blocked_iff hperm hext hh').mpr ⟨hh, hfl⟩)
      refine ⟨hf, holder, new, hperm, hw₂ ▸ hsettled, ?_, fun h hh => (hext.range h hh).1, ?_, ?_,
        hmakes⟩
      · rw [hw₂, StreamLedger.foldl_start_next]
        exact hext.next
      · rw [hw₂, StreamLedger.foldl_start_passed, hext.passed]
      · have hold : (F.all streams).any (fun h => (w₁.ledger.state h.address).flute) =
            F.older streams w.ledger := by
          rw [older, Bool.eq_iff_iff, List.any_eq_true, List.any_eq_true]
          exact exists_congr fun h => and_congr_right fun hh => by
            rw [hext.old _ (hs.known h hh).made]
        simp only [older, hw₂, StreamLedger.foldl_start_flute]
        rw [hperm.any_eq, List.any_append, hflute, hold, holder, Bool.false_or]
    · rintro e w₂ ⟨rfl, pre, a, hpre, hb, hw₂⟩
      obtain ⟨h, hh, rfl⟩ := List.mem_map.mp (hpre.subset (by simp : a ∈ pre ++ [a]))
      have hold := (hs.blocked_iff hperm hext hh).mp hb
      refine .inr ⟨hf, rfl, List.any_eq_true.mpr ⟨h, hold⟩, pre, h, hold.1, ?_⟩
      rw [hw₂, StreamLedger.foldl_start_passed, hext.passed]
  · rintro e w₁ ⟨he, new, hext⟩
    exact .inl ⟨he, hext.passed⟩

theorem run_passed {streams : F.Streams} {w : World D} (hn : n ≤ w.ledger.next)
    (hs : F.Settled streams w.ledger) (ds : List XmlElement) :
    Does env service n (fun _ w' => w.ledger.passed <+: w'.ledger.passed)
      (fun _ w' => w.ledger.passed <+: w'.ledger.passed) (ds.foldlM F.step streams) w := by
  induction ds generalizing streams w with
  | nil => exact List.prefix_rfl
  | cons d ds ih =>
    rw [List.foldlM_cons]
    refine Program.holds_bind ((step_does hn hs d).imp ?_ ?_)
    · rintro streams' w₁ ⟨_, _, _, _, hs₁, hnext, _, hpassed, _⟩
      have hpre : w.ledger.passed <+: w₁.ledger.passed := hpassed ▸ List.prefix_append _ _
      exact (ih (hn.trans hnext) hs₁).imp (fun _ _ h => hpre.trans h) (fun _ _ h => hpre.trans h)
    · rintro e w₁ (⟨_, hpassed⟩ | ⟨_, _, _, _, _, _, hpassed⟩)
      · exact hpassed ▸ List.prefix_rfl
      · exact hpassed ▸ List.prefix_append _ _

/-- Once there are streams in the vectors, only a delivery method that fails
keeps them from being started again. -/
theorem run_again {streams : F.Streams} {w : World D} {before : List Nat}
    (hn : n ≤ w.ledger.next) (hs : F.Settled streams w.ledger) (hne : F.all streams ≠ [])
    (honce : AtMostOnce n before w.ledger.passed)
    (hpassed : ∀ h ∈ F.all streams, before.count h.address + 1 ≤ w.ledger.passed.count h.address)
    (ds : List XmlElement) :
    Does env service n
      (fun _ w' => AtMostOnce n before w'.ledger.passed ↔ ∀ d ∈ ds.head?, F.faults d ≠ [])
      (fun e w' => (AtMostOnce n before w'.ledger.passed ↔ ∀ d ∈ ds.head?, F.faults d ≠ []) ∧
        (e = .terminate → ¬ AtMostOnce n before w'.ledger.passed))
      (ds.foldlM F.step streams) w := by
  cases ds with
  | nil => exact iff_of_true honce (by simp)
  | cons d ds =>
    rw [List.foldlM_cons]
    refine Program.holds_bind ((step_does hn hs d).imp ?_ ?_)
    · rintro streams' w₁ ⟨hf, _, new, hperm, hs₁, hnext, _, hp₁, _⟩
      obtain ⟨h, hh⟩ := List.exists_mem_of_ne_nil _ hne
      have hh' := List.mem_map_of_mem (f := Handle.address)
        (hperm.symm.subset (List.mem_append_left new hh))
      have hnot : ∀ w' : World D, w₁.ledger.passed <+: w'.ledger.passed →
          ¬ AtMostOnce n before w'.ledger.passed := by
        rintro w' ⟨post, hpost⟩
        rw [← hpost, hp₁, List.append_assoc, ← List.append_nil w.ledger.passed]
        exact not_atMostOnce_append (hs.known h hh).own (hpassed h hh) (by simp [hh'])
      have hiff : ¬ ∀ d' ∈ (d :: ds).head?, F.faults d' ≠ [] := by
        simpa using hf
      refine (run_passed (hn.trans hnext) hs₁ ds).imp ?_ ?_
      · exact fun _ w' hw' => iff_of_false (hnot w' hw') hiff
      · exact fun _ w' hw' => ⟨iff_of_false (hnot w' hw') hiff, fun _ => hnot w' hw'⟩
    · rintro e w₁ (⟨he, hp₁⟩ | ⟨hf, rfl, _, pre, h, hh, hp₁⟩)
      · have hfaults : F.faults d ≠ [] := by
          intro hf
          rw [hf] at he
          cases he
        refine ⟨iff_of_true (hp₁ ▸ honce) (by simpa using hfaults), ?_⟩
        rintro rfl
        exact absurd (List.mem_of_head? he) (F.terminate_notMem d)
      · have hnot : ¬ AtMostOnce n before w₁.ledger.passed := by
          rw [hp₁, ← List.append_assoc]
          exact not_atMostOnce_append (hs.known h hh).own (hpassed h hh) (by simp)
        exact ⟨iff_of_false hnot (by simpa using hf), fun _ => hnot⟩

theorem run_once {streams : F.Streams} {w : World D} (hn : n ≤ w.ledger.next)
    (hs : F.Settled streams w.ledger) (hnil : F.all streams = []) (ds : List XmlElement) :
    Does env service n
      (fun _ w' => AtMostOnce n w.ledger.passed w'.ledger.passed ↔ StartsOnce F.faults F.Makes ds)
      (fun e w' => (AtMostOnce n w.ledger.passed w'.ledger.passed ↔ StartsOnce F.faults F.Makes ds) ∧
        (e = .terminate → ¬ AtMostOnce n w.ledger.passed w'.ledger.passed))
      (ds.foldlM F.step streams) w := by
  have hrefl : AtMostOnce n w.ledger.passed w.ledger.passed := fun a _ => Nat.le_succ _
  induction ds generalizing streams w with
  | nil => exact iff_of_true hrefl trivial
  | cons d ds ih =>
    rw [List.foldlM_cons]
    refine Program.holds_bind ((step_does hn hs d).imp ?_ ?_)
    · rintro streams' w₁ ⟨hf, _, new, hperm, hs₁, hnext, _, hp₁, _, hmakes⟩
      rw [hnil, List.nil_append] at hperm
      by_cases hm : F.Makes d
      · have hne : F.all streams' ≠ [] := fun h =>
          (hmakes hnil).mpr hm (List.nil_perm.mp (h ▸ hperm))
        have hiff : StartsOnce F.faults F.Makes (d :: ds) ↔ ∀ next ∈ ds.head?, F.faults next ≠ [] := by
          simp [StartsOnce, hf, hm]
        rw [hiff]
        refine run_again (hn.trans hnext) hs₁ hne ?_ ?_ ds
        · intro a _
          rw [hp₁, List.count_append]
          exact Nat.add_le_add_left (List.nodup_iff_count_le_one.mp hs₁.distinct a) _
        · intro h hh
          rw [hp₁, List.count_append]
          exact Nat.add_le_add_left (List.count_pos_iff.mpr (List.mem_map_of_mem hh)) _
      · have hnew : new = [] := by
          by_contra hne
          exact hm ((hmakes hnil).mp hne)
        have hnil₁ : F.all streams' = [] := by
          rw [hnew] at hperm
          exact List.perm_nil.mp hperm
        have hiff : StartsOnce F.faults F.Makes (d :: ds) ↔ StartsOnce F.faults F.Makes ds := by
          simp [StartsOnce, hf, hm]
        rw [hnil₁, List.map_nil, List.append_nil] at hp₁
        rw [hiff, ← hp₁]
        exact ih (hn.trans hnext) hs₁ hnil₁ (hp₁ ▸ hrefl)
    · rintro e w₁ (⟨he, hp₁⟩ | ⟨_, _, _, _, h, hh, _⟩)
      · have hfaults : F.faults d ≠ [] := by
          intro hf
          rw [hf] at he
          cases he
        refine ⟨iff_of_true (hp₁ ▸ hrefl) (fun hf => absurd hf hfaults), ?_⟩
        rintro rfl
        exact absurd (List.mem_of_head? he) (F.terminate_notMem d)
      · rw [hnil] at hh
        cases hh

theorem settled_none (l : StreamLedger) : F.Settled F.none l := by
  have hnil := F.all_none
  constructor <;> simp [hnil]

theorem setup_does (F : DeliveryFormat env service n) (ds : List XmlElement) {w : World D}
    (hn : n ≤ w.ledger.next) :
    Does env service n
      (fun _ w' => AtMostOnce n w.ledger.passed w'.ledger.passed ↔ StartsOnce F.faults F.Makes ds)
      (fun e w' =>
        (AtMostOnce n w.ledger.passed w'.ledger.passed ↔ StartsOnce F.faults F.Makes ds) ∧
        (e = .terminate → ¬ AtMostOnce n w.ledger.passed w'.ledger.passed))
      (do
        let _ ← ds.foldlM F.step F.none
        pure ()) w :=
  Program.holds_bind ((run_once hn (settled_none w.ledger) F.all_none ds).imp (fun _ _ h => h)
    (fun _ _ h => h))

end DeliveryFormat

theorem setupByAlternativeContentElement_does (cfg : Config) (items : List Item)
    (protocol : DeliveryProtocol) (appService : Option XmlElement) (usd : XmlElement) (w : World D)
    (hn : n ≤ w.ledger.next) :
    Does env service n
      (fun _ w' => alternativeContentFaults cfg items protocol D env.rest appService usd = [] ∧
        AtMostOnce w.ledger.next w.ledger.passed w'.ledger.passed)
      (fun e w' =>
        (alternativeContentFaults cfg items protocol D env.rest appService usd).head? = some e ∧
        AtMostOnce w.ledger.next w.ledger.passed w'.ledger.passed)
      (setupByAlternativeContentElement cfg items protocol service appService usd) w := by
  have hrefl : AtMostOnce w.ledger.next w.ledger.passed w.ledger.passed := fun a _ => Nat.le_succ _
  unfold setupByAlternativeContentElement alternativeContentFaults
  refine Program.holds_bind (Program.holds_ofExcept ?_)
  cases appService with
  | none => exact ⟨rfl, hrefl⟩
  | some appService =>
    dsimp only [deref, Except.Ensures]
    cases appService.firstChildElement alternativeContent with
    | none => exact ⟨rfl, hrefl⟩
    | some alternative =>
      -- addresses that are still free have not been handed over since the start
      have hstep : ∀ w₁ w₂ : World D, w₁.ledger.OneMore w₂.ledger →
          (w.ledger.next ≤ w₁.ledger.next ∧
            AtMostOnce w.ledger.next w.ledger.passed w₁.ledger.passed ∧
            ∀ a, w₁.ledger.next ≤ a → w₁.ledger.passed.count a = w.ledger.passed.count a) →
          (w.ledger.next ≤ w₂.ledger.next ∧
            AtMostOnce w.ledger.next w.ledger.passed w₂.ledger.passed ∧
            ∀ a, w₂.ledger.next ≤ a → w₂.ledger.passed.count a = w.ledger.passed.count a) := by
        rintro w₁ w₂ ⟨hnext, hp⟩ ⟨hw, honce, hfree⟩
        refine ⟨hw.trans hnext, ?_⟩
        rcases hp with hp | ⟨b, hb, hb', hp⟩
        · rw [hp]
          exact ⟨honce, fun a ha => hfree a (hnext.trans ha)⟩
        · rw [hp]
          constructor
          · intro a ha
            rw [List.count_append, List.count_singleton]
            by_cases hab : b = a
            · subst hab
              have hfb := hfree b hb
              simp only [beq_self_eq_true, if_true]
              omega
            · have hoa := honce a ha
              simpa [hab] using hoa
          · intro a ha
            have hab : b ≠ a := (hb'.trans_le ha).ne
            rw [List.count_append, List.count_singleton]
            simpa [hab] using hfree a (hnext.trans ha)
      refine (Program.holds_forM (F := basePatternFaults cfg items protocol D env.rest appService usd)
        (I := fun w₁ : World D => w.ledger.next ≤ w₁.ledger.next ∧
          AtMostOnce w.ledger.next w.ledger.passed w₁.ledger.passed ∧
          ∀ a, w₁.ledger.next ≤ a → w₁.ledger.passed.count a = w.ledger.passed.count a)
        (J := fun w₁ : World D => AtMostOnce w.ledger.next w.ledger.passed w₁.ledger.passed) ?_
        ⟨le_rfl, hrefl, fun _ _ => rfl⟩).imp (fun _ _ h => ⟨h.1, h.2.2.1⟩) (fun _ _ h => h)
      intro pattern w₁ _ hI
      refine (setupBasePattern_does cfg items protocol appService usd pattern
        (hn.trans hI.1)).imp ?_ ?_
      · exact fun _ w₂ h => ⟨h.1, hstep w₁ w₂ h.2 hI⟩
      · exact fun _ w₂ h => ⟨h.1, (hstep w₁ w₂ h.2 hI).2.1⟩

variable (env service)

/-- What a set-up must be like for no stream to be started twice; with the
default format it always is. -/
def SetupStartsOnce (D : Type) [DoubleText D] (rest : CppRest) (cfg : Config) (items : List Item)
    (protocol : DeliveryProtocol) (basePath : Str) (appService : Option XmlElement)
    (usd : XmlElement) : Prop :=
  let format := cfg.bootstrapFormat.getD ServiceAnnouncementFormatConstants.default
  if format = ServiceAnnouncementFormatConstants.fivegMagBcUc then
    StartsOnce (faultsBy5GMagConfig cfg items protocol D rest appService)
      (MakesBy5GMagConfig cfg items protocol D appService) (usd.childElements deliveryMethod)
  else if format = ServiceAnnouncementFormatConstants.fivegMagLegacy then
    StartsOnce (faultsByLegacyFormat cfg items protocol D basePath)
      (MakesByLegacyFormat cfg items protocol D basePath) (usd.childElements deliveryMethod)
  else True

omit [DoubleText D] in
theorem once_iff_of_ensures {n : Nat} {before : List Nat} {S : Prop}
    {result : EStateM.Result Fault (World D) Unit}
    (h : result.Ensures (fun _ w' => AtMostOnce n before w'.ledger.passed ↔ S)
      (fun e w' => (AtMostOnce n before w'.ledger.passed ↔ S) ∧
        (e = .terminate → ¬ AtMostOnce n before w'.ledger.passed))) :
    AtMostOnce n before result.state.passed ∧ result.fault? ≠ some .terminate ↔ S := by
  cases result with
  | ok u w' =>
    exact ⟨fun hr => h.mp hr.1, fun hS => ⟨h.mpr hS, by simp [EStateM.Result.fault?]⟩⟩
  | error e w' =>
    refine ⟨fun hr => h.1.mp hr.1, fun hS => ⟨h.1.mpr hS, fun he => ?_⟩⟩
    exact h.2 (Option.some.inj he) (h.1.mpr hS)

theorem streams_started_at_most_once (cfg : Config) (items : List Item)
    (protocol : DeliveryProtocol) (basePath : Str) (appService : Option XmlElement)
    (usd : XmlElement) (w : World D) :
    let result := (setup cfg items protocol service basePath appService usd).run (World.perform env) w
    AtMostOnce w.nextStream w.passed result.state.passed ∧ result.fault? ≠ some .terminate ↔
      SetupStartsOnce D env.rest cfg items protocol basePath appService usd := by
  dsimp only
  unfold setup SetupStartsOnce
  dsimp only
  refine once_iff_of_ensures (Program.Holds.ensures
    (?_ : Does env service w.nextStream _ _ _ w))
  split
  · rw [setupBy5GMagConfig,
      deliveryMethodBy5GMagConfig_eq env service w.nextStream cfg items protocol appService]
    exact DeliveryFormat.setup_does (format5GMagConfig env service w.nextStream cfg items protocol
      appService) (usd.childElements deliveryMethod) le_rfl
  · split
    · rw [setupBy5GMagLegacyFormat,
        deliveryMethodByLegacyFormat_eq env service w.nextStream cfg items protocol basePath]
      exact DeliveryFormat.setup_does (formatLegacy env service w.nextStream cfg items protocol
        basePath) (usd.childElements deliveryMethod) le_rfl
    · refine (setupByAlternativeContentElement_does cfg items protocol appService usd w
        le_rfl).imp ?_ ?_
      · exact fun _ w' h => iff_of_true h.2 trivial
      · refine fun e w' h => ⟨iff_of_true h.2 trivial, ?_⟩
        rintro rfl
        exact absurd (List.mem_of_head? h.1)
          (terminate_notMem_alternativeContentFaults cfg items protocol env.rest appService usd)

section Example

def broadcastDelivery : XmlElement :=
  .mk deliveryMethod [(sessionDescriptionUri, "a.sdp".toList)] none
    [.mk broadcastAppService [] none [.mk basePattern [] (some "a/".toList) []]]

def sessionDescription : Item where
  contentType := ContentTypeConstants.sdp
  uri := "a.sdp".toList
  content := "c=IN IP4 239.11.4.50\nm=application 9988 FLUTE/UDP\n".toList

def twoDeliveries : XmlElement :=
  .mk userServiceDescription [] none [broadcastDelivery, broadcastDelivery]

def setupTwoDeliveries : EStateM.Result Fault (World Int) Unit :=
  (setup { bootstrapFormat := some ServiceAnnouncementFormatConstants.fivegMagBcUc }
    [sessionDescription] .hls 0 [] none twoDeliveries).run
    (World.perform bareEnvironment) (World.initial bareEnvironment)

/-- With two delivery methods the stream of the first is started twice. -/
theorem streams_started_twice :
    ¬ AtMostOnce (World.initial bareEnvironment).nextStream (World.initial bareEnvironment).passed
      setupTwoDeliveries.state.passed ∧ setupTwoDeliveries.fault? = some .terminate := by
  have hpassed : setupTwoDeliveries.state.passed = [0, 0] := by decide +kernel
  refine ⟨fun h => ?_, by decide +kernel⟩
  have hcount := h 0 (Nat.zero_le _)
  rw [hpassed] at hcount
  exact absurd hcount (by decide)

end Example

end ServiceAnnouncement

end MbmsMiddleware
