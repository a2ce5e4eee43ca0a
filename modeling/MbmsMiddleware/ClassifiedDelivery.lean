import MbmsMiddleware.BroadcastMethods
import MbmsMiddleware.PairingRuns

/-! The default format: by which delivery methods the stream of a base pattern
is configured, whether it is registered, and which CDN endpoint it gets. -/

namespace MbmsMiddleware

open ServiceAnnouncementXmlElements

namespace ServiceAnnouncement

variable {D : Type} [DoubleText D] {env : Environment D} (cfg : Config) (items : List Item)
  (protocol : DeliveryProtocol) (service : Nat)

section Endpoints

/-- The last other base pattern of an `identicalContent` element that contains
the base, unless it is empty. -/
def endpointIn (base : Str) (identical : XmlElement) : Option Str :=
  if base ∈ identical.identicalTexts then
    (identical.identicalTexts.filter (· ≠ base)).getLast?.filter (· ≠ [])
  else none

/-- Another base pattern of an `identicalContent` element that contains the base. -/
def Alternative (ics : List XmlElement) (base u : Str) : Prop := u ≠ base ∧ Identical ics base u

theorem alternative_of_endpointIn {ics : List XmlElement} {base u : Str} {identical : XmlElement}
    (hm : identical ∈ ics) (h : endpointIn base identical = some u) : Alternative ics base u := by
  unfold endpointIn at h
  split at h
  · next hbase =>
    obtain ⟨hlast, -⟩ := Option.filter_eq_some_iff.mp h
    obtain ⟨hu, hne⟩ := List.mem_filter.mp (List.mem_of_getLast? hlast)
    exact ⟨by simpa using hne, identical, hm, hbase, hu⟩
  · cases h

theorem identicalContentBase_eq (base : Str) {identical : XmlElement}
    (h : ∀ pattern ∈ identical.childElements basePattern, pattern.getText ≠ none) :
    identicalContentBase base identical = .ok (decide (base ∈ identical.identicalTexts),
      (identical.identicalTexts.filter (· ≠ base)).getLast?.getD []) := by
  unfold identicalContentBase XmlElement.identicalTexts
  generalize identical.childElements basePattern = patterns at h
  induction patterns using List.reverseRecOn with
  | nil => rfl
  | append_singleton patterns pattern ih =>
    obtain ⟨t, ht⟩ := Option.ne_none_iff_exists'.mp (h pattern (by simp))
    rw [List.foldlM_append, ih fun x hx => h x (by simp [hx]), texts_concat patterns ht]
    simp only [bind, Except.bind, List.foldlM_cons, List.foldlM_nil, ht, stdString]
    by_cases hbase : base = t
    · subst hbase
      simp [pure, Except.pure]
    · have hbase' : t ≠ base := Ne.symm hbase
      simp [pure, Except.pure, hbase, hbase']

theorem missingText_eq_nil_iff {patterns : List XmlElement} :
    patterns.flatMap XmlElement.missingText = [] ↔ ∀ pattern ∈ patterns, pattern.getText ≠ none := by
  rw [List.flatMap_eq_nil_iff]
  refine forall₂_congr fun pattern _ => ?_
  unfold XmlElement.missingText
  cases pattern.getText <;> simp [stdString]

/-- What the loop over an `identicalContent` element finds is the endpoint in it. -/
theorem endpointIn_of_ok {base : Str} {identical : XmlElement} {r : Bool × Str}
    (h : identicalContentBase base identical = .ok r) :
    endpointIn base identical = if r.1 = true ∧ r.2.length ≠ 0 then some r.2 else none := by
  have hpresent := identicalContentBase_ensures base identical
  rw [h] at hpresent
  rw [identicalContentBase_eq base (missingText_eq_nil_iff.mp hpresent)] at h
  cases h
  unfold endpointIn
  by_cases hbase : base ∈ identical.identicalTexts
  · rw [decide_eq_true hbase, if_pos hbase]
    cases (identical.identicalTexts.filter (· ≠ base)).getLast? with
    | none => rfl
    | some u => by_cases hu : u = [] <;> simp [hu]
  · rw [decide_eq_false hbase, if_neg hbase]
    rfl

theorem identicalContentFaults_eq_nil_iff {rest : CppRest} {base : Str} {identical : XmlElement} :
    identicalContentFaults rest base identical = [] ↔
      (∀ pattern ∈ identical.childElements basePattern, pattern.getText ≠ none) ∧
        ∀ u ∈ endpointIn base identical, endpointFaults rest u = [] := by
  unfold identicalContentFaults
  rw [List.append_eq_nil_iff, missingText_eq_nil_iff]
  refine and_congr_right fun hpresent => ?_
  have hbase := identicalContentBase_eq base hpresent
  rw [endpointIn_of_ok hbase, hbase]
  cases decide (base ∈ identical.identicalTexts) with
  | false => simp
  | true =>
    simp only [true_and]
    split <;> simp

/-- The endpoints that are set, one after the other. -/
def cdnEndpoints (appService : XmlElement) (base : Str) (available : Bool) : List Str :=
  if cfg.seamless then
    if available then (appService.childElements identicalContent).filterMap (endpointIn base)
    else [base]
  else []

end Endpoints

section Calls

def cdnEndpoint? : MiddlewareCall D → Option Str
  | .setCdnEndpoint _ url => some url
  | _ => none

/-- What is asked of the middleware for the stream of a base pattern. -/
def streamCalls (a : Nat) (s : AnyStream D) (endpoints : List Str) (registers : Bool) :
    List (MiddlewareCall D) :=
  .newStream s :: endpoints.map (.setCdnEndpoint a) ++
    if registers then [.addAndStartContentStream service a] else []

theorem setupUnicastDelivery_calls (appService : XmlElement) (base : Str) (a : Nat)
    (available : Bool) (t : Logged D) :
    Logs env (fun unicast t' => unicast = (cfg.seamless && !available) ∧ Program.calls t' =
        Program.calls t ++ (cdnEndpoints cfg appService base available).map (.setCdnEndpoint a))
      (setupUnicastDelivery cfg appService base a available) t := by
  unfold setupUnicastDelivery cdnEndpoints
  cases cfg.seamless with
  | false => exact ⟨rfl, (List.append_nil _).symm⟩
  | true =>
    cases available with
    | false =>
      apply Program.holds_bind
      apply (Program.perform_calls (MiddlewareCall.setCdnEndpoint a base) t).imp
      · exact fun _ t' ht' => ⟨rfl, ht'.2⟩
      · exact fun _ _ h => h
    | true =>
      apply Program.holds_bind
      apply (Program.forM_calls
        (g := fun identical => ((endpointIn base identical).map (.setCdnEndpoint a)).toList) ?_ t).imp
      · intro _ t' ht'
        refine ⟨rfl, ?_⟩
        rw [ht', if_pos rfl, if_pos rfl, List.map_filterMap, List.filterMap_eq_flatMap_toList]
      · exact fun _ _ h => h
      · intro identical _ t
        refine Program.holds_bind (Program.holds_ofExcept ?_)
        cases hi : identicalContentBase base identical with
        | error e => exact trivial
        | ok r =>
          obtain ⟨matched, found⟩ := r
          rw [endpointIn_of_ok hi]
          change Program.Holds _ _ _ _
            (if matched = true ∧ found.length ≠ 0 then setCdnEndpoint a found else pure ()) t
          by_cases hfound : matched = true ∧ found.length ≠ 0
          · rw [if_pos hfound, if_pos hfound]
            apply (Program.perform_calls (MiddlewareCall.setCdnEndpoint a found) t).imp
            · exact fun _ t' ht' => ht'.2
            · exact fun _ _ h => h
          · rw [if_neg hfound, if_neg hfound]
            exact (List.append_nil _).symm

theorem setupBasePattern_calls (env : Environment D) (appService : XmlElement)
    {usd pattern : XmlElement} {base : Str}
    (htext : pattern.getText = some base) {cs : ContentStream D} {available : Bool}
    (hread : (usd.childElements deliveryMethod).foldlM (readDeliveryMethod items base)
      (newContentStream cfg protocol base, false) = .ok (cs, available)) (t : Logged D) :
    Logs env (fun _ t' => Program.calls t' = Program.calls t ++
        streamCalls service t.1.nextStream (makeStream cfg cs)
          (cdnEndpoints cfg appService base available) (available || cfg.seamless))
      (setupBasePattern cfg items protocol service appService usd pattern) t := by
  unfold setupBasePattern streamCalls
  rw [htext]
  apply Program.holds_bind
  apply Program.holds_ofExcept
  dsimp only [stdString, Except.Ensures]
  rw [hread]
  apply Program.holds_bind
  apply Program.holds_ofExcept
  dsimp only [Except.Ensures]
  apply Program.holds_bind
  apply (Program.perform_calls (MiddlewareCall.newStream (makeStream cfg cs)) t).imp
  · rintro a t₁ ⟨hnew, ht₁⟩
    injection hnew with ha
    subst ha
    apply Program.holds_bind
    apply (setupUnicastDelivery_calls cfg appService base t.1.nextStream available t₁).imp
    · rintro unicast t₂ ⟨rfl, ht₂⟩
      have hregisters : (cfg.seamless && !available || available) = (available || cfg.seamless) := by
        cases cfg.seamless <;> cases available <;> rfl
      rw [hregisters]
      rw [ht₁, List.append_assoc, List.singleton_append] at ht₂
      by_cases hr : (available || cfg.seamless) = true
      · rw [if_pos hr, if_pos hr]
        apply (Program.perform_calls
          (MiddlewareCall.addAndStartContentStream service t.1.nextStream) t₂).imp
        · rintro _ t₃ ⟨-, ht₃⟩
          rw [ht₃, ht₂, List.append_assoc]
        · exact fun _ _ h => h
      · rw [if_neg hr, if_neg hr, List.append_nil]
        exact ht₂
    · exact fun _ _ h => h
  · exact fun _ _ h => h

omit [DoubleText D] in
theorem makeStream_content (cs : ContentStream D) : (makeStream cfg cs).content = cs := by
  unfold makeStream
  split <;> rfl

omit [DoubleText D] in
theorem streamCalls_inj {a : Nat} {s s' : AnyStream D} {endpoints endpoints' : List Str}
    {registers registers' : Bool} (h : streamCalls service a s endpoints registers =
      streamCalls service a s' endpoints' registers') : s = s' ∧ endpoints = endpoints' := by
  unfold streamCalls at h
  rw [List.cons_append, List.cons_append] at h
  injection h with hs hrest
  injection hs with hs
  refine ⟨hs, ?_⟩
  have hurls := congrArg (List.filterMap cdnEndpoint?) hrest
  have hnone : ∀ b : Bool, (if b then [MiddlewareCall.addAndStartContentStream (D := D) service a]
      else []).filterMap cdnEndpoint? = [] := by
    intro b
    cases b <;> rfl
  simpa [List.filterMap_append, hnone, List.filterMap_map, Function.comp_def, cdnEndpoint?] using hurls

end Calls

section Patterns

/-- The delivery methods of a description that list a base pattern. -/
def listing (usd : XmlElement) (base : Str) : List XmlElement :=
  (usd.childElements deliveryMethod).filter (·.Lists base)

/-- A stream without broadcast gets the base itself as its endpoint, one with
broadcast gets another base pattern with the same content, if there is one. -/
def RightEndpoints (appService : XmlElement) (base : Str) (succeeded : Bool)
    (endpoints : List Str) : Prop :=
  if cfg.seamless then
    if succeeded then
      (∀ u ∈ endpoints, Alternative (appService.childElements identicalContent) base u) ∧
        ((∃ u, Alternative (appService.childElements identicalContent) base u) → endpoints ≠ [])
    else endpoints = [base]
  else endpoints = []

/-- The round for a base pattern, with its calls. -/
def runBasePattern (env : Environment D) (appService usd pattern : XmlElement) (w : World D) :
    EStateM.Result Fault (Logged D) Unit :=
  (setupBasePattern cfg items protocol service appService usd pattern).run
    (Program.logged (World.perform env)) (w, [])

/-- What the round for a base pattern has to do: the stream is configured by the
delivery methods that list it, registered if that succeeds or with seamless
switching, and given the right endpoints. Neither the order of the delivery
methods nor those that do not list it matter. -/
structure Classified (env : Environment D) (appService usd pattern : XmlElement) (base : Str)
    (w : World D) : Prop where
  listed : ∀ d ∈ usd.childElements deliveryMethod, ∀ state : ContentStream D × Bool,
    readDeliveryMethod items base state d =
      if d.Lists base then readMethodItems items base state d else .ok state
  outcome : ∃ cs endpoints t, (listing usd base).foldlM (configureByMethod items base)
      (newContentStream cfg protocol base) = .ok cs ∧
    runBasePattern cfg items protocol service env appService usd pattern w = .ok () t ∧
    Program.calls t = streamCalls service w.nextStream (makeStream cfg cs) endpoints
      (cs.sdpComplete || cfg.seamless) ∧
    RightEndpoints cfg appService base cs.sdpComplete endpoints
  independent : ∀ usd' : XmlElement, (listing usd' base).Perm (listing usd base) →
    (∀ d ∈ usd'.childElements deliveryMethod, ¬ d.Lists base →
      d.Broadcasts items ∧ ∀ p ∈ d.broadcastPatterns, p.getText ≠ none) →
    runBasePattern cfg items protocol service env appService usd' pattern w =
      runBasePattern cfg items protocol service env appService usd pattern w

/-- An endpoint can be taken from the `identicalContent` elements. -/
structure OffersEndpoint (rest : CppRest) (appService : XmlElement) (base : Str) : Prop where
  present : ∀ identical ∈ appService.childElements identicalContent,
    ∀ pattern ∈ identical.childElements basePattern, pattern.getText ≠ none
  accepted : ∀ identical ∈ appService.childElements identicalContent,
    ∀ u ∈ endpointIn base identical, endpointFaults rest u = []
  found : (∃ u, Alternative (appService.childElements identicalContent) base u) →
    ∃ identical ∈ appService.childElements identicalContent, endpointIn base identical ≠ none

/-- A delivery method that lists the base pattern lists it first, and its items
can be read; these methods agree, and the endpoint that is needed is there. -/
structure Classifiable (D : Type) [DoubleText D] (rest : CppRest) (appService usd : XmlElement)
    (base : Str) : Prop where
  first : ∀ d ∈ usd.childElements deliveryMethod,
    ∃ t, d.firstPattern = some t ∧ (d.Lists base → t = base)
  readable : ∀ d ∈ listing usd base, Readable items protocol D base d
  agree : DescriptionsAgree items (listing usd base)
  endpoint : cfg.seamless = true →
    (Announce items (listing usd base) → OffersEndpoint rest appService base) ∧
      (¬ Announce items (listing usd base) → endpointFaults rest base = [])

variable {cfg items protocol service} {appService usd pattern : XmlElement} {base : Str}

theorem mem_listing {d : XmlElement} :
    d ∈ listing usd base ↔ d ∈ usd.childElements deliveryMethod ∧ d.Lists base := by
  rw [listing, List.mem_filter, decide_eq_true_eq]

/-- A stream that is not configured and is passed for one that is shows whether
a delivery method is passed over. -/
theorem not_passed_over {d : XmlElement} (hd : d.Broadcasts items) {cs : ContentStream D}
    (hcs : cs.sdpComplete = false) : readMethodItems items base (cs, true) d ≠ .ok (cs, true) := by
  intro h
  have havailable := readMethodItems_available items hd h
  rw [hcs] at havailable
  cases havailable

theorem readDeliveryMethod_listed (hd : ∀ d ∈ usd.childElements deliveryMethod, d.Broadcasts items) :
    (∀ d ∈ usd.childElements deliveryMethod, ∃ t, d.firstPattern = some t ∧ (d.Lists base → t = base)) ↔
      (∀ d ∈ usd.childElements deliveryMethod, d.firstPattern ≠ none) ∧
        ∀ d ∈ usd.childElements deliveryMethod, ∀ state : ContentStream D × Bool,
          readDeliveryMethod items base state d =
            if d.Lists base then readMethodItems items base state d else .ok state := by
  rw [← forall₂_and]
  refine forall₂_congr fun d hm => ?_
  cases hfirst : d.firstPattern with
  | none => simp
  | some t =>
    simp only [Option.some.injEq, exists_eq_left', ne_eq, reduceCtorEq, not_false_eq_true, true_and]
    have hread := readDeliveryMethod_of_firstPattern (D := D) items hfirst base
    simp only [hread]
    by_cases ht : t = base
    · subst ht
      simp [XmlElement.lists_of_firstPattern hfirst]
    · simp only [ht, imp_false, if_false]
      constructor
      · intro hnot state
        rw [if_neg hnot]
      · intro h hlists
        have hstate := h ({ deliveryProtocol := .hls, base := [] }, true)
        rw [if_pos hlists] at hstate
        exact not_passed_over (hd d hm) (by rfl) hstate.symm

theorem rightEndpoints_iff {succeeded : Bool} :
    RightEndpoints cfg appService base succeeded (cdnEndpoints cfg appService base succeeded) ↔
      (cfg.seamless = true → succeeded = true →
        (∃ u, Alternative (appService.childElements identicalContent) base u) →
          ∃ identical ∈ appService.childElements identicalContent, endpointIn base identical ≠ none) := by
  unfold RightEndpoints cdnEndpoints
  cases cfg.seamless with
  | false => simp
  | true =>
    cases succeeded with
    | false => simp
    | true =>
      have halternative : ∀ u ∈ (appService.childElements identicalContent).filterMap (endpointIn base),
          Alternative (appService.childElements identicalContent) base u := by
        intro u hu
        obtain ⟨identical, hm, hend⟩ := List.mem_filterMap.mp hu
        exact alternative_of_endpointIn hm hend
      have hne : (appService.childElements identicalContent).filterMap (endpointIn base) ≠ [] ↔
          ∃ identical ∈ appService.childElements identicalContent,
            endpointIn base identical ≠ none := by
        rw [ne_eq, List.filterMap_eq_nil_iff]
        push Not
        rfl
      simp only [if_true, true_imp_iff]
      rw [hne]
      exact and_iff_right halternative

/-- What the loop over the delivery methods comes to. -/
theorem foldlM_readDeliveryMethod_eq (cfg : Config)
    (hd : ∀ d ∈ usd.childElements deliveryMethod, d.Broadcasts items)
    (hfirst : ∀ d ∈ usd.childElements deliveryMethod,
      ∃ t, d.firstPattern = some t ∧ (d.Lists base → t = base))
    (hr : ∀ d ∈ listing usd base, Readable items protocol D base d) :
    let cs : ContentStream D :=
      configured items protocol base (listing usd base) (newContentStream cfg protocol base)
    (usd.childElements deliveryMethod).foldlM (readDeliveryMethod items base)
      ((newContentStream cfg protocol base : ContentStream D), false) = .ok (cs, cs.sdpComplete) := by
  intro cs
  have hp : (newContentStream cfg protocol base : ContentStream D).deliveryProtocol = protocol := rfl
  have hlisting : ∀ d ∈ listing usd base, d.Broadcasts items :=
    fun d hm => hd d (mem_listing.mp hm).1
  have hconfigured := foldlM_configureByMethod items protocol
    (fun d hm => ⟨hlisting d hm, hr d hm⟩) hp
  rw [foldlM_readDeliveryMethod items ((readDeliveryMethod_listed hd).mp hfirst).2]
  rw [← listing]
  exact (foldlM_readMethodItems items hlisting _).trans (congrArg _ hconfigured)

theorem basePatternFaults_eq_nil_iff (cfg : Config) {rest : CppRest}
    (htext : pattern.getText = some base)
    (hd : ∀ d ∈ usd.childElements deliveryMethod, d.Broadcasts items)
    (hfirst : ∀ d ∈ usd.childElements deliveryMethod,
      ∃ t, d.firstPattern = some t ∧ (d.Lists base → t = base)) :
    basePatternFaults cfg items protocol D rest appService usd pattern = [] ↔
      (∀ d ∈ listing usd base, Readable items protocol D base d) ∧ (cfg.seamless = true →
        (Announce items (listing usd base) →
          ∀ identical ∈ appService.childElements identicalContent,
            (∀ p ∈ identical.childElements basePattern, p.getText ≠ none) ∧
              ∀ u ∈ endpointIn base identical, endpointFaults rest u = []) ∧
        (¬ Announce items (listing usd base) → endpointFaults rest base = [])) := by
  have hmethods : (usd.childElements deliveryMethod).flatMap
      (deliveryMethodFaults items protocol D base) = [] ↔
        ∀ d ∈ listing usd base, Readable items protocol D base d := by
    rw [List.flatMap_eq_nil_iff]
    constructor
    · intro h d hm
      obtain ⟨hmethod, hlists⟩ := mem_listing.mp hm
      obtain ⟨t, ht, hread⟩ :=
        (deliveryMethodFaults_eq_nil_iff items protocol (hd d hmethod)).mp (h d hmethod)
      obtain ⟨t', ht', hbase⟩ := hfirst d hmethod
      cases ht.symm.trans ht'
      exact hread (hbase hlists)
    · intro h d hmethod
      obtain ⟨t, ht, -⟩ := hfirst d hmethod
      refine (deliveryMethodFaults_eq_nil_iff items protocol (hd d hmethod)).mpr ⟨t, ht, ?_⟩
      rintro rfl
      exact h d (mem_listing.mpr ⟨hmethod, XmlElement.lists_of_firstPattern ht⟩)
  unfold basePatternFaults
  rw [htext]
  dsimp only
  rw [List.append_eq_nil_iff, hmethods]
  refine and_congr_right fun hr => ?_
  have havailable : broadcastAvailable cfg items protocol D usd base = true ↔
      Announce items (listing usd base) := by
    unfold broadcastAvailable
    rw [foldlM_readDeliveryMethod_eq cfg hd hfirst hr]
    exact configured_sdpComplete cfg items protocol (listing usd base)
  cases hs : cfg.seamless with
  | false => simp
  | true =>
    rw [if_pos rfl, forall_prop_of_true rfl]
    by_cases ha : Announce items (listing usd base)
    · rw [if_pos (havailable.mpr ha), List.flatMap_eq_nil_iff]
      simp only [identicalContentFaults_eq_nil_iff, ha, not_true_eq_false, true_imp_iff,
        false_imp_iff, and_true]
    · rw [if_neg fun h => ha (havailable.mp h)]
      simp only [ha, not_false_eq_true, true_imp_iff, false_imp_iff, true_and]

variable (cfg items protocol service) in
theorem runBasePattern_ensures (env : Environment D) (appService usd pattern : XmlElement)
    (w : World D) :
    (runBasePattern cfg items protocol service env appService usd pattern w).Ensures
      (fun _ _ => basePatternFaults cfg items protocol D env.rest appService usd pattern = [])
      (fun e _ =>
        (basePatternFaults cfg items protocol D env.rest appService usd pattern).head? = some e) :=
  ((setupBasePattern_does (n := 0) cfg items protocol appService usd pattern
    (Nat.zero_le _)).logged []).ensures.mono (fun _ _ h => h.1) (fun _ _ h => h.1)

theorem basePatternFaults_of_returns {w : World D} {t : Logged D}
    (h : runBasePattern cfg items protocol service env appService usd pattern w = .ok () t) :
    basePatternFaults cfg items protocol D env.rest appService usd pattern = [] := by
  have hensures := runBasePattern_ensures cfg items protocol service env appService usd pattern w
  rwa [h] at hensures

variable (service) in
theorem runBasePattern_returns
    (h : basePatternFaults cfg items protocol D env.rest appService usd pattern = [])
    (w : World D) :
    ∃ t, runBasePattern cfg items protocol service env appService usd pattern w = .ok () t := by
  have hensures := runBasePattern_ensures cfg items protocol service env appService usd pattern w
  cases hrun : runBasePattern cfg items protocol service env appService usd pattern w with
  | ok u t => exact ⟨t, rfl⟩
  | error e t =>
    rw [hrun] at hensures
    change (basePatternFaults cfg items protocol D env.rest appService usd pattern).head? = some e
      at hensures
    rw [h] at hensures
    cases hensures

theorem runBasePattern_calls {w : World D} (htext : pattern.getText = some base)
    (hd : ∀ d ∈ usd.childElements deliveryMethod, d.Broadcasts items)
    (hfirst : ∀ d ∈ usd.childElements deliveryMethod,
      ∃ t, d.firstPattern = some t ∧ (d.Lists base → t = base))
    (hr : ∀ d ∈ listing usd base, Readable items protocol D base d) {t : Logged D}
    (h : runBasePattern cfg items protocol service env appService usd pattern w = .ok () t) :
    let cs : ContentStream D :=
      configured items protocol base (listing usd base) (newContentStream cfg protocol base)
    Program.calls t = streamCalls service w.nextStream (makeStream cfg cs)
      (cdnEndpoints cfg appService base cs.sdpComplete) (cs.sdpComplete || cfg.seamless) := by
  intro cs
  have hcalls := (setupBasePattern_calls cfg items protocol service env appService htext
    (foldlM_readDeliveryMethod_eq cfg hd hfirst hr) (w, [])).ensures
  unfold runBasePattern at h
  rw [h] at hcalls
  exact hcalls

theorem runBasePattern_congr {usd' : XmlElement} (htext : pattern.getText = some base)
    (h : (usd'.childElements deliveryMethod).foldlM (readDeliveryMethod items base)
        ((newContentStream cfg protocol base : ContentStream D), false) =
      (usd.childElements deliveryMethod).foldlM (readDeliveryMethod items base)
        (newContentStream cfg protocol base, false)) (w : World D) :
    runBasePattern cfg items protocol service env appService usd' pattern w =
      runBasePattern cfg items protocol service env appService usd pattern w := by
  have hbind : ∀ f : Str → Handler D Unit, Program.ofExcept (.ok base) >>= f = f base :=
    fun _ => rfl
  unfold runBasePattern setupBasePattern
  rw [htext]
  dsimp only [stdString]
  rw [hbind, hbind, h]

theorem exists_firstPattern {rest : CppRest} (htext : pattern.getText = some base)
    (hd : ∀ d ∈ usd.childElements deliveryMethod, d.Broadcasts items)
    (h : basePatternFaults cfg items protocol D rest appService usd pattern = []) :
    ∀ d ∈ usd.childElements deliveryMethod, d.firstPattern ≠ none := by
  intro d hm
  unfold basePatternFaults at h
  rw [htext] at h
  have hmethods := List.flatMap_eq_nil_iff.mp (List.append_eq_nil_iff.mp h).1
  obtain ⟨t, ht, -⟩ :=
    (deliveryMethodFaults_eq_nil_iff items protocol (hd d hm)).mp (hmethods d hm)
  rw [ht]
  exact Option.some_ne_none t

/-- A description with nothing but delivery methods. -/
def ofMethods (l : List XmlElement) : XmlElement := .mk userServiceDescription [] none l

theorem name_of_mem_childElements {e d : XmlElement} {childName : Str}
    (h : d ∈ e.childElements childName) : d.name = childName := by
  cases e
  exact of_decide_eq_true (List.mem_filter.mp h).2

theorem childElements_ofMethods {l : List XmlElement} (h : ∀ d ∈ l, d.name = deliveryMethod) :
    (ofMethods l).childElements deliveryMethod = l :=
  List.filter_eq_self.mpr fun d hd => decide_eq_true (h d hd)

theorem agree_of_classified {w : World D} (htext : pattern.getText = some base)
    (hd : ∀ d ∈ usd.childElements deliveryMethod, d.Broadcasts items)
    (hfirst : ∀ d ∈ usd.childElements deliveryMethod,
      ∃ t, d.firstPattern = some t ∧ (d.Lists base → t = base))
    (hr : ∀ d ∈ listing usd base, Readable items protocol D base d)
    (h : Classified cfg items protocol service env appService usd pattern base w) :
    DescriptionsAgree items (listing usd base) := by
  obtain ⟨-, -, t, -, hrun, -, -⟩ := h.outcome
  refine (configured_perm_iff items protocol base (fun d hm => hd d (mem_listing.mp hm).1)
    (newContentStream cfg protocol base : ContentStream D)).mp fun l' hl' => ?_
  have hmem : ∀ d ∈ l', d ∈ usd.childElements deliveryMethod ∧ d.Lists base :=
    fun d hm => mem_listing.mp (hl'.mem_iff.mp hm)
  have hmethods : (ofMethods l').childElements deliveryMethod = l' :=
    childElements_ofMethods fun d hm => name_of_mem_childElements (hmem d hm).1
  have hlisting : listing (ofMethods l') base = l' := by
    rw [listing, hmethods]
    exact List.filter_eq_self.mpr fun d hm => decide_eq_true (hmem d hm).2
  -- the description with these methods alone, in this order
  have hrun' := h.independent (ofMethods l') (by rwa [hlisting]) (fun d hm hno =>
    absurd (hmem d (hmethods ▸ hm)).2 hno)
  rw [hrun] at hrun'
  have hcalls := runBasePattern_calls htext hd hfirst hr hrun
  have hcalls' := runBasePattern_calls htext (fun d hm => hd d (hmem d (hmethods ▸ hm)).1)
    (fun d hm => hfirst d (hmem d (hmethods ▸ hm)).1)
    (fun d hm => hr d (mem_listing.mpr (hmem d (hlisting ▸ hm)))) hrun'
  rw [hlisting] at hcalls'
  have hstream := congrArg AnyStream.content (streamCalls_inj service (hcalls'.symm.trans hcalls)).1
  rwa [makeStream_content, makeStream_content] at hstream

theorem classifiable_of_classified {w : World D} (htext : pattern.getText = some base)
    (hd : ∀ d ∈ usd.childElements deliveryMethod, d.Broadcasts items)
    (h : Classified cfg items protocol service env appService usd pattern base w) :
    Classifiable cfg items protocol D env.rest appService usd base := by
  obtain ⟨cs, endpoints, t, hcs, hrun, hcalls, hright⟩ := h.outcome
  have hfaults := basePatternFaults_of_returns hrun
  have hfirst := (readDeliveryMethod_listed hd).mpr
    ⟨exists_firstPattern htext hd hfaults, h.listed⟩
  obtain ⟨hr, hendpoint⟩ := (basePatternFaults_eq_nil_iff cfg htext hd hfirst).mp hfaults
  have hconfigured := foldlM_configureByMethod items protocol
    (fun d hm => ⟨hd d (mem_listing.mp hm).1, hr d hm⟩)
    (rfl : (newContentStream cfg protocol base : ContentStream D).deliveryProtocol = protocol)
  obtain rfl := Except.ok.inj (hcs.symm.trans hconfigured)
  obtain ⟨-, rfl⟩ := streamCalls_inj service
    (hcalls.symm.trans (runBasePattern_calls htext hd hfirst hr hrun))
  refine ⟨hfirst, hr, agree_of_classified htext hd hfirst hr h, fun hs => ⟨fun ha => ?_, ?_⟩⟩
  · have hoffers := (hendpoint hs).1 ha
    refine ⟨fun identical hm => (hoffers identical hm).1, fun identical hm => (hoffers identical hm).2, ?_⟩
    exact rightEndpoints_iff.mp hright hs
      ((configured_sdpComplete cfg items protocol (listing usd base)).mpr ha)
  · exact (hendpoint hs).2

theorem firstPattern_of_texts {d : XmlElement} (hd : d.Broadcasts items)
    (h : ∀ p ∈ d.broadcastPatterns, p.getText ≠ none) : ∃ t, d.firstPattern = some t := by
  obtain ⟨p, rest, hp⟩ := List.exists_cons_of_ne_nil hd.patterns
  obtain ⟨t, ht⟩ := Option.ne_none_iff_exists'.mp (h p (by simp [hp]))
  exact ⟨t, by rw [XmlElement.firstPattern, hp, List.head?_cons, Option.bind_some, ht]⟩

theorem faults_of_classifiable {rest : CppRest} (htext : pattern.getText = some base)
    (hd : ∀ d ∈ usd.childElements deliveryMethod, d.Broadcasts items)
    (h : Classifiable cfg items protocol D rest appService usd base) :
    basePatternFaults cfg items protocol D rest appService usd pattern = [] := by
  refine (basePatternFaults_eq_nil_iff cfg htext hd h.first).mpr ⟨h.readable, fun hs => ⟨?_, ?_⟩⟩
  · intro ha identical hm
    have hoffers := (h.endpoint hs).1 ha
    exact ⟨hoffers.present identical hm, hoffers.accepted identical hm⟩
  · exact (h.endpoint hs).2

theorem classified_of_classifiable (service : Nat) {w : World D} (htext : pattern.getText = some base)
    (hd : ∀ d ∈ usd.childElements deliveryMethod, d.Broadcasts items)
    (h : Classifiable cfg items protocol D env.rest appService usd base) :
    Classified cfg items protocol service env appService usd pattern base w := by
  have hread := foldlM_readDeliveryMethod_eq cfg hd h.first h.readable
  obtain ⟨t, hrun⟩ := runBasePattern_returns service (faults_of_classifiable htext hd h) w
  refine ⟨((readDeliveryMethod_listed hd).mp h.first).2, ⟨_, _, t, ?_, hrun,
    runBasePattern_calls htext hd h.first h.readable hrun, rightEndpoints_iff.mpr ?_⟩, ?_⟩
  · exact foldlM_configureByMethod items protocol
      (fun d hm => ⟨hd d (mem_listing.mp hm).1, h.readable d hm⟩) rfl
  · intro hs hsucceeded
    exact ((h.endpoint hs).1
      ((configured_sdpComplete cfg items protocol (listing usd base)).mp hsucceeded)).found
  · intro usd' hperm hother
    have hlists : ∀ d ∈ usd'.childElements deliveryMethod, d.Lists base →
        d ∈ usd.childElements deliveryMethod := fun d hm hl =>
      (mem_listing.mp (hperm.mem_iff.mp (mem_listing.mpr ⟨hm, hl⟩))).1
    have hd' : ∀ d ∈ usd'.childElements deliveryMethod, d.Broadcasts items := by
      intro d hm
      by_cases hl : d.Lists base
      · exact hd d (hlists d hm hl)
      · exact (hother d hm hl).1
    have hfirst' : ∀ d ∈ usd'.childElements deliveryMethod,
        ∃ t, d.firstPattern = some t ∧ (d.Lists base → t = base) := by
      intro d hm
      by_cases hl : d.Lists base
      · exact h.first d (hlists d hm hl)
      · obtain ⟨t, ht⟩ := firstPattern_of_texts (hd' d hm) (hother d hm hl).2
        exact ⟨t, ht, fun hl' => absurd hl' hl⟩
    have hread' := foldlM_readDeliveryMethod_eq cfg hd' hfirst'
      (fun d hm => h.readable d (hperm.mem_iff.mp hm))
    have hsame := (configured_perm_iff items protocol base
      (fun d hm => hd d (mem_listing.mp hm).1)
      (newContentStream cfg protocol base : ContentStream D)).mpr h.agree _ hperm
    apply runBasePattern_congr htext
    rw [hread', hread, hsame]

end Patterns

section SetUp

/-- The base patterns that `alternativeContent` lists. -/
def alternativePatterns (appService : XmlElement) : List XmlElement :=
  (appService.firstChildElement alternativeContent).elim [] (·.childElements basePattern)

/-- The set-up returns, and the round for each base pattern does what it has to. -/
structure DeliveryClassified (env : Environment D) (appService usd : XmlElement) (w : World D) :
    Prop where
  returns : ∃ w', (setupByAlternativeContentElement cfg items protocol service (some appService)
    usd).run (World.perform env) w = .ok () w'
  rounds : ∀ pre pattern post, alternativePatterns appService = pre ++ pattern :: post →
    ∃ w' base, (pre.forM (setupBasePattern cfg items protocol service appService usd)).run
        (World.perform env) w = .ok () w' ∧
      pattern.getText = some base ∧
      Classified cfg items protocol service env appService usd pattern base w'

theorem setupByAlternativeContentElement_eq (appService usd : XmlElement) :
    setupByAlternativeContentElement (D := D) cfg items protocol service (some appService) usd =
      (alternativePatterns appService).forM
        (setupBasePattern cfg items protocol service appService usd) := by
  have hbind : ∀ f : XmlElement → Handler D Unit,
      Program.ofExcept (.ok appService) >>= f = f appService := fun _ => rfl
  unfold setupByAlternativeContentElement alternativePatterns
  dsimp only [deref]
  rw [hbind]
  cases appService.firstChildElement alternativeContent <;> rfl

theorem forM_setupBasePattern_returns (env : Environment D) {appService usd : XmlElement}
    {patterns : List XmlElement}
    (h : ∀ p ∈ patterns, basePatternFaults cfg items protocol D env.rest appService usd p = [])
    (w : World D) :
    ∃ w', (patterns.forM (setupBasePattern cfg items protocol service appService usd)).run
      (World.perform env) w = .ok () w' := by
  have hdoes : Does env service 0
      (fun _ _ => patterns.flatMap
        (basePatternFaults cfg items protocol D env.rest appService usd) = [] ∧ True)
      (fun e _ => (patterns.flatMap
        (basePatternFaults cfg items protocol D env.rest appService usd)).head? = some e ∧ True)
      (patterns.forM (setupBasePattern cfg items protocol service appService usd)) w := by
    refine Program.holds_forM (I := fun _ => True) (J := fun _ => True) ?_ trivial
    intro p w' _ _
    apply (setupBasePattern_does cfg items protocol appService usd p (Nat.zero_le _)).imp
    · exact fun _ _ h => ⟨h.1, trivial⟩
    · exact fun _ _ h => ⟨h.1, trivial⟩
  have hensures := hdoes.ensures
  cases hrun : (patterns.forM (setupBasePattern cfg items protocol service appService usd)).run
      (World.perform env) w with
  | ok u w' => exact ⟨w', rfl⟩
  | error e w' =>
    rw [hrun, List.flatMap_eq_nil_iff.mpr h] at hensures
    cases hensures.1

end SetUp

section Example

/-- A session description that announces a broadcast. -/
def announcedSdp : Item where
  contentType := ContentTypeConstants.sdp
  uri := "a.sdp".toList
  content := "c=IN IP4 239.1.1.1\nm=application 9000 FLUTE/UDP\n".toList

/-- The base pattern `b/` in second position. -/
def listedSecond : XmlElement :=
  .mk deliveryMethod [(sessionDescriptionUri, "a.sdp".toList)] none
    [.mk broadcastAppService [] none
      [.mk basePattern [] (some "a/".toList) [], .mk basePattern [] (some "b/".toList) []]]

def alternativeB : XmlElement :=
  .mk appService [] none
    [.mk alternativeContent [] none [.mk basePattern [] (some "b/".toList) []]]

theorem listedSecond_broadcasts :
    ∀ d ∈ (ofMethods [listedSecond]).childElements deliveryMethod, d.Broadcasts [announcedSdp] := by
  intro d hd
  obtain rfl := List.mem_singleton.mp hd
  exact ⟨List.ne_nil_of_length_pos (by decide), by decide⟩

/-- The base pattern `b/` in first position, with other content that is identical. -/
def listedFirst : XmlElement :=
  .mk deliveryMethod [(sessionDescriptionUri, "a.sdp".toList)] none
    [.mk broadcastAppService [] none
      [.mk basePattern [] (some "b/".toList) [], .mk basePattern [] (some "a/".toList) []]]

def alternativeBWithIdentical : XmlElement :=
  .mk appService [] none
    [.mk alternativeContent [] none [.mk basePattern [] (some "b/".toList) []],
     .mk identicalContent [] none
      [.mk basePattern [] (some "b/".toList) [], .mk basePattern [] (some "http://cdn/b".toList) []]]

theorem listedFirst_broadcasts :
    ∀ d ∈ (ofMethods [listedFirst]).childElements deliveryMethod, d.Broadcasts [announcedSdp] := by
  intro d hd
  obtain rfl := List.mem_singleton.mp hd
  exact ⟨List.ne_nil_of_length_pos (by decide), by decide⟩

end Example

end ServiceAnnouncement

end MbmsMiddleware
