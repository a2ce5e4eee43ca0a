import MbmsMiddleware.Middleware
import MbmsMiddleware.OnlyCalls
import MbmsMiddleware.Runs

/-! The calls that the handlers of an announcement can come to make, whatever
they find: new streams are empty, and every URL is a base pattern of the
announcement. -/

namespace MbmsMiddleware

open ServiceAnnouncementXmlElements

/-- `root` itself and the elements below it. -/
inductive XmlElement.Within (root : XmlElement) : XmlElement → Prop
  | root : Within root root
  | child {e c : XmlElement} {name : Str} (h : Within root e) (hc : c ∈ e.childElements name) :
      Within root c

theorem XmlElement.Within.trans {a b c : XmlElement} (h : a.Within b) (h' : b.Within c) :
    a.Within c := by
  induction h' with
  | root => exact h
  | child _ hc ih => exact .child ih hc

theorem XmlElement.within_of_firstChildElement {e c : XmlElement} {name : Str}
    (h : e.firstChildElement name = some c) : e.Within c :=
  .child .root (List.mem_of_mem_head? h)

/-- The text of a base pattern below an element. -/
def XmlElement.BasePattern (root : XmlElement) (url : Str) : Prop :=
  ∃ e pattern, root.Within e ∧ pattern ∈ e.childElements basePattern ∧ pattern.getText = some url

theorem XmlElement.BasePattern.of_within {a b : XmlElement} {url : Str} (h : a.Within b) :
    b.BasePattern url → a.BasePattern url := by
  rintro ⟨e, pattern, he, hpattern, htext⟩
  exact ⟨e, pattern, h.trans he, hpattern, htext⟩

def XmlDocument.BasePattern (doc : XmlDocument) (url : Str) : Prop :=
  ∃ root ∈ doc, root.BasePattern url

theorem eq_some_of_stdString {s : Option Str} {t : Str} (h : stdString s = .ok t) : s = some t := by
  cases s with
  | none => cases h
  | some s =>
    cases h
    rfl

theorem eq_some_of_deref {α : Type} {x : Option α} {a : α} (h : deref x = .ok a) : x = some a := by
  cases x with
  | none => cases h
  | some x =>
    cases h
    rfl

namespace ServiceAnnouncement

variable {D : Type} (cfg : Config)

/-- A seamless stream as its constructor leaves it. -/
def Fresh : AnyStream D → Prop
  | .basic _ => True
  | .seamless s => s = newSeamlessContentStream cfg s.toContentStream

/-- What is known of a call of the handlers of an announcement with these base
patterns. -/
def Announced (pattern : Str → Prop) : MiddlewareCall D → Prop
  | .newStream s => Fresh cfg s
  | .setCdnEndpoint _ url => pattern url
  | _ => True

theorem Announced.mono {cfg : Config} {pattern pattern' : Str → Prop}
    (h : ∀ url, pattern url → pattern' url) {op : MiddlewareCall D}
    (hop : Announced cfg pattern op) : Announced cfg pattern' op := by
  cases op with
  | setCdnEndpoint address url => exact h url hop
  | newStream s => exact hop
  | _ => trivial

theorem fresh_makeStream (cs : ContentStream D) : Fresh cfg (makeStream cfg cs) := by
  unfold makeStream
  split
  · rfl
  · trivial

variable {cfg} {pattern : Str → Prop}

abbrev Announces (cfg : Config) (pattern : Str → Prop) {α : Type} (p : Handler D α) : Prop :=
  Program.Only (Announced cfg pattern) p

theorem pushBack_announces (streams : List Handle) {s : AnyStream D} (hs : Fresh cfg s) :
    Announces cfg pattern (pushBack streams s) :=
  Program.only_bind (Program.only_perform hs) fun _ => Program.only_pure _

theorem createBroadcastStreams_announces
    {streamOf : XmlElement → Except Fault (Option (AnyStream D))}
    (hfresh : ∀ e s, streamOf e = .ok (some s) → Fresh cfg s) (streams : List Handle)
    (deliveryMethod : XmlElement) :
    Announces cfg pattern (createBroadcastStreams streamOf streams deliveryMethod) := by
  unfold createBroadcastStreams
  split
  · refine Program.only_foldlM (fun streams e _ => Program.only_bind_ofExcept fun s? hs => ?_) streams
    cases s? with
    | none => exact Program.only_pure _
    | some s => exact pushBack_announces streams (hfresh e s hs)
  · exact Program.only_pure _

theorem setupUnicast_announces (protocol : DeliveryProtocol) (manifestUrl : Str)
    (appService : Option XmlElement) (broadcast unicast : List Handle) {e : XmlElement}
    (he : ∀ url, e.getText = some url → pattern url) :
    Announces (D := D) cfg pattern
      (setupUnicast cfg protocol manifestUrl appService broadcast unicast e) := by
  refine Program.only_bind_ofExcept fun url hurl => Program.only_bind_ofExcept fun app _ => ?_
  have hcall : ∀ address, Announces (D := D) cfg pattern (setCdnEndpoint address url) :=
    fun address => Program.only_perform (he url (eq_some_of_stdString hurl))
  refine Program.only_foldlM (fun unicast identical _ => Program.only_bind_ofExcept ?_) unicast
  rintro ⟨stream, found⟩ _
  have hnew : Announces (D := D) cfg pattern (do
      let cs := newSeamlessContentStream cfg (newContentStream cfg protocol manifestUrl)
      let address ← newStream (.seamless cs)
      setCdnEndpoint address url
      pure (unicast ++ [⟨address, manifestUrl, true⟩])) :=
    Program.only_bind (Program.only_perform rfl) fun address =>
      Program.only_bind (hcall address) fun _ => Program.only_pure _
  cases stream with
  | none => exact hnew
  | some address =>
    cases found with
    | false => exact hnew
    | true => exact Program.only_bind (hcall address) fun _ => Program.only_pure _

theorem createUnicastStreams_announces (protocol : DeliveryProtocol) (manifestUrl : Str)
    (appService : Option XmlElement) (broadcast unicast : List Handle) {deliveryMethod : XmlElement}
    (he : ∀ url, deliveryMethod.BasePattern url → pattern url) :
    Announces (D := D) cfg pattern
      (createUnicastStreams cfg protocol manifestUrl appService broadcast unicast deliveryMethod) := by
  unfold createUnicastStreams
  split
  · split
    · rename_i element helement
      refine Program.only_foldlM (fun unicast e hmem => ?_) unicast
      exact setupUnicast_announces protocol manifestUrl appService broadcast unicast fun url hurl =>
        he url ⟨element, e, XmlElement.within_of_firstChildElement helement, hmem, hurl⟩
    · exact Program.only_pure _
  · exact Program.only_pure _

theorem addAll_announces (service : Nat) (streams : List Handle) :
    Announces (D := D) cfg pattern (streams.forM (addAndStartContentStream service ·.address)) :=
  Program.only_forM fun _ _ => Program.only_perform trivial

variable [DoubleText D]

theorem setupBy5GMagConfig_announces (items : List Item) (protocol : DeliveryProtocol)
    (service : Nat) (appService : Option XmlElement) {usd : XmlElement}
    (he : ∀ url, usd.BasePattern url → pattern url) :
    Announces (D := D) cfg pattern
      (setupBy5GMagConfig cfg items protocol service appService usd) := by
  refine Program.only_bind (Program.only_foldlM (fun streams e hmem => ?_) ([], []))
    fun _ => Program.only_pure _
  refine Program.only_bind (Program.only_bind_ofExcept fun sdpUri _ => ?_) ?_
  · refine Program.only_bind (createBroadcastStreams_announces (fun pattern s hs => ?_) _ e)
      fun broadcast => ?_
    · obtain ⟨url, -, hs⟩ := Except.eq_ok_of_bind hs
      obtain ⟨cs, -, hs⟩ := Except.eq_ok_of_bind hs
      cases hs
      exact fresh_makeStream cfg cs
    · refine Program.only_bind (createUnicastStreams_announces protocol _ appService broadcast _ ?_)
        fun _ => Program.only_pure _
      exact fun url hurl => he url (hurl.of_within (.child .root hmem))
  · rintro ⟨broadcast, unicast⟩
    exact Program.only_bind (addAll_announces service unicast) fun _ =>
      Program.only_bind (addAll_announces service broadcast) fun _ => Program.only_pure _

theorem setupBy5GMagLegacyFormat_announces (items : List Item) (protocol : DeliveryProtocol)
    (service : Nat) (basePath : Str) (usd : XmlElement) :
    Announces (D := D) cfg pattern
      (setupBy5GMagLegacyFormat cfg items protocol service basePath usd) := by
  refine Program.only_bind (Program.only_foldlM (fun streams e _ => ?_) []) fun _ => Program.only_pure _
  refine Program.only_bind (Program.only_bind_ofExcept fun sdpUri _ => ?_) fun streams =>
    Program.only_bind (addAll_announces service streams) fun _ => Program.only_pure _
  refine createBroadcastStreams_announces (fun pattern s hs => ?_) streams e
  obtain ⟨url, -, hs⟩ := Except.eq_ok_of_bind hs
  dsimp only at hs
  split at hs
  · obtain ⟨cs, -, hs⟩ := Except.eq_ok_of_bind hs
    cases hs
    trivial
  · cases hs

omit [DoubleText D] in
theorem setupUnicastDelivery_announces {app : XmlElement} {base : Str} (address : Nat)
    (available : Bool) (hbase : pattern base) (happ : ∀ url, app.BasePattern url → pattern url) :
    Announces (D := D) cfg pattern (setupUnicastDelivery cfg app base address available) := by
  unfold setupUnicastDelivery
  split
  · split
    · exact Program.only_bind (Program.only_perform hbase) fun _ => Program.only_pure _
    · refine Program.only_bind (Program.only_forM fun identical hidentical => ?_) fun _ =>
        Program.only_pure _
      refine Program.only_bind_ofExcept ?_
      rintro ⟨matched, found⟩ hfound
      have hpattern : found.length ≠ 0 → pattern found := by
        have hlast : ((matched, found).2 = [] ∨ app.BasePattern (matched, found).2) := by
          refine Runs.foldlM_ok (I := fun state => state.2 = [] ∨ app.BasePattern state.2)
            (l := identical.childElements basePattern) ?_ (.inl rfl) hfound
          rintro ⟨m, f⟩ e s' he hs hstep
          obtain ⟨url, hurl, hstep⟩ := Except.eq_ok_of_bind hstep
          split at hstep
          · cases hstep
            exact hs
          · cases hstep
            exact .inr ⟨identical, e, .child .root hidentical, he, eq_some_of_stdString hurl⟩
        intro hne
        rcases hlast with hnil | hurl
        · exact absurd (congrArg List.length hnil) hne
        · exact happ found hurl
      change Announces cfg pattern (if matched ∧ found.length ≠ 0 then _ else _)
      split
      · rename_i hcall
        exact Program.only_perform (hpattern hcall.2)
      · exact Program.only_pure _
  · exact Program.only_pure _

theorem setupByAlternativeContentElement_announces (items : List Item)
    (protocol : DeliveryProtocol) (service : Nat) {appService : Option XmlElement}
    (usd : XmlElement) (he : ∀ app ∈ appService, ∀ url, app.BasePattern url → pattern url) :
    Announces (D := D) cfg pattern
      (setupByAlternativeContentElement cfg items protocol service appService usd) := by
  refine Program.only_bind_ofExcept fun app happ => ?_
  have hurls := he app (eq_some_of_deref happ)
  split
  · rename_i alternative halternative
    refine Program.only_forM fun e hmem => Program.only_bind_ofExcept fun base hbase =>
      Program.only_bind_ofExcept ?_
    rintro ⟨cs, available⟩ _
    refine Program.only_bind (Program.only_perform (fresh_makeStream cfg cs)) fun address => ?_
    refine Program.only_bind (setupUnicastDelivery_announces address available ?_ hurls)
      fun unicast => ?_
    · exact hurls base ⟨alternative, e, XmlElement.within_of_firstChildElement halternative, hmem,
        eq_some_of_stdString hbase⟩
    · split
      · exact Program.only_perform trivial
      · exact Program.only_pure _
  · exact Program.only_pure _

theorem setup_announces (items : List Item) (protocol : DeliveryProtocol) (service : Nat)
    (basePath : Str) {usd : XmlElement} (he : ∀ url, usd.BasePattern url → pattern url) :
    Announces (D := D) cfg pattern
      (setup cfg items protocol service basePath (usd.firstChildElement appService) usd) := by
  unfold setup
  dsimp only
  split_ifs
  · exact setupBy5GMagConfig_announces items protocol service _ he
  · exact setupBy5GMagLegacyFormat_announces items protocol service basePath usd
  · refine setupByAlternativeContentElement_announces items protocol service usd fun app happ url hurl => ?_
    exact he url (hurl.of_within (XmlElement.within_of_firstChildElement happ))

omit [DoubleText D] in
theorem registerService_announces (usd : XmlElement) (id : Str) :
    Announces (D := D) cfg pattern (registerService usd id) := by
  refine Program.only_bind (Program.only_perform trivial) fun found => ?_
  cases found
  case' some service => refine Program.only_bind (Program.only_pure (service, false)) ?_
  case' none =>
    refine Program.only_bind (Program.only_perform trivial) fun service =>
      Program.only_bind (Program.only_pure (service, true)) ?_
  all_goals
    rintro ⟨service, isNew⟩
    refine Program.only_bind (Program.only_forM fun name _ => ?_) fun _ => Program.only_pure _
    split
    · exact Program.only_perform trivial
    · exact Program.only_pure _

omit [DoubleText D] in
theorem handleAppService_announces (items : List Item) (service : Nat) (rest : CppRest)
    (appService : Option XmlElement) :
    Announces (D := D) cfg pattern (handleAppService items service rest appService) := by
  refine Program.only_bind_ofExcept fun app _ => Program.only_bind_ofExcept fun mime _ =>
    Program.only_bind (Program.only_perform trivial) fun _ => Program.only_forM fun item _ =>
      Program.only_bind_ofExcept fun uri _ => ?_
  split
  · split
    · trivial
    · exact Program.only_bind (Program.only_perform trivial) fun _ => Program.only_perform trivial
  · exact Program.only_pure _

theorem handleUserServiceDescription_announces (items : List Item) (rest : CppRest)
    {usd : XmlElement} (he : ∀ url, usd.BasePattern url → pattern url) :
    Announces (D := D) cfg pattern (handleUserServiceDescription cfg items rest usd) := by
  refine Program.only_bind_ofExcept fun id _ => Program.only_bind (registerService_announces usd id) ?_
  rintro ⟨service, isNew⟩
  refine Program.only_bind (handleAppService_announces items service rest _) fun _ =>
    Program.only_bind (Program.only_perform trivial) fun protocol =>
      Program.only_bind (Program.only_perform trivial) fun basePath =>
        Program.only_bind (setup_announces items protocol service basePath he) fun _ =>
          Program.only_bind (Program.only_perform trivial) fun count => ?_
  split
  · exact Program.only_perform trivial
  · exact Program.only_pure _

theorem handleUserServiceDescriptionBundle_announces (items : List Item) (rest : CppRest)
    (doc : XmlDocument) :
    Announces (D := D) cfg doc.BasePattern
      (handleUserServiceDescriptionBundle cfg items rest doc) := by
  refine Program.only_bind_ofExcept fun bundle hbundle => Program.only_forM fun usd husd => ?_
  refine handleUserServiceDescription_announces items rest fun url hurl => ?_
  exact ⟨bundle, List.mem_of_find?_eq_some (eq_some_of_deref hbundle),
    hurl.of_within (.child .root husd)⟩

end ServiceAnnouncement

end MbmsMiddleware
