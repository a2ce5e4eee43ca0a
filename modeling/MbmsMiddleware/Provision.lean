import MbmsMiddleware.HandlerViews

/-! What the announcements provide: the services, and the streams as they are
set up. What streams receive has no part in it, so that no reception changes it
and no call of a handler reads anything else. -/

namespace MbmsMiddleware

variable {D : Type}

namespace SeamlessContentStream

/-- The stream without what it has received. -/
def unplayed (s : SeamlessContentStream D) : SeamlessContentStream D :=
  { s with playlist := [], segments := .empty, fluteFiles := .empty }

theorem unplayed_insertSegment (st : SeamlessContentStream D × Memory D)
    (x : HlsMediaPlaylist.Segment D) : (insertSegment st x).1.unplayed = st.1.unplayed := by
  rw [insertSegment_frame st.1 st.2 x]
  rfl

theorem unplayed_insertLoop (count idx : Nat) (l : List (HlsMediaPlaylist.Segment D))
    (st : SeamlessContentStream D × Memory D) :
    (insertLoop count idx l st).1.unplayed = st.1.unplayed := by
  induction l generalizing idx st with
  | nil => rfl
  | cons x l ih =>
    simp only [insertLoop]
    split_ifs
    · exact unplayed_insertSegment st x
    · exact (ih (idx + 1) _).trans (unplayed_insertSegment st x)

theorem unplayed_dropOldest (st : SeamlessContentStream D × Memory D) :
    (dropOldest st).1.unplayed = st.1.unplayed := by
  unfold dropOldest
  dsimp only
  cases st.1.segments.entries <;> rfl

theorem unplayed_dropLoop (fuel : Nat) (st : SeamlessContentStream D × Memory D) :
    (dropLoop fuel st).1.unplayed = st.1.unplayed := by
  induction fuel generalizing st with
  | zero => rfl
  | succ fuel ih =>
    simp only [dropLoop]
    split_ifs
    · exact (ih _).trans (unplayed_dropOldest st)
    · rfl

theorem unplayed_setCdnEndpoint (rest : CppRest) (self : Nat) (cdnEpt : Str)
    {s s' : SeamlessContentStream D} (h : s.unplayed = s'.unplayed) (cache cache' : Cache) :
    (s.setCdnEndpoint rest self cdnEpt cache).1.unplayed =
        (s'.setCdnEndpoint rest self cdnEpt cache').1.unplayed ∧
      (s.setCdnEndpoint rest self cdnEpt cache).2.2 =
        (s'.setCdnEndpoint rest self cdnEpt cache').2.2 := by
  have hset : ∀ (s : SeamlessContentStream D) (cache : Cache),
      (s.setCdnEndpoint rest self cdnEpt cache).1.unplayed =
          (s.unplayed.setCdnEndpoint rest self cdnEpt .empty).1 ∧
        (s.setCdnEndpoint rest self cdnEpt cache).2.2 =
          (s.unplayed.setCdnEndpoint rest self cdnEpt .empty).2.2 := by
    intro s cache
    unfold setCdnEndpoint
    cases rest.uri cdnEpt with
    | none => exact ⟨rfl, rfl⟩
    | some uri =>
      dsimp only
      split_ifs <;> exact ⟨rfl, rfl⟩
  rw [(hset s cache).1, (hset s cache).2, h, (hset s' cache').1, (hset s' cache').2]
  exact ⟨rfl, rfl⟩

variable [DoubleText D] {st st' : SeamlessContentStream D × Memory D}

theorem unplayed_handlePlaylist {indeterminate : Int} {content : Str} {source : ItemSource}
    (h : handlePlaylist indeterminate content source st = .ok st') :
    st'.1.unplayed = st.1.unplayed := by
  unfold handlePlaylist at h
  cases hp : (HlsMediaPlaylist.parse indeterminate content : Except Fault (HlsMediaPlaylist D)) with
  | error e =>
    rw [hp] at h
    cases h
  | ok playlist =>
    rw [hp] at h
    cases h
    exact (unplayed_dropLoop _ _).trans (unplayed_insertLoop _ _ _ st)

theorem unplayed_fluteFileReceived {indeterminate : Int} {file : FluteFile}
    (h : fluteFileReceived indeterminate file st = .ok st') :
    st'.1.unplayed = st.1.unplayed := by
  unfold fluteFileReceived at h
  split_ifs at h
  · exact unplayed_handlePlaylist h
  · cases h
    rfl
  · cases h
    rfl

end SeamlessContentStream

namespace AnyStream

def unplayed : AnyStream D → AnyStream D
  | .basic s => .basic s
  | .seamless s => .seamless s.unplayed

theorem content_unplayed (s : AnyStream D) : s.unplayed.content = s.content := by
  cases s <;> rfl

theorem unplayed_setContent (c : ContentStream D) (s : AnyStream D) :
    (s.setContent c).unplayed = s.unplayed.setContent c := by
  cases s <;> rfl

variable {s s' : AnyStream D}

theorem content_congr (h : s.unplayed = s'.unplayed) : s.content = s'.content := by
  rw [← content_unplayed s, h, content_unplayed]

theorem setContent_congr (h : s.unplayed = s'.unplayed) (c : ContentStream D) :
    (s.setContent c).unplayed = (s'.setContent c).unplayed := by
  rw [unplayed_setContent, h, unplayed_setContent]

end AnyStream

structure Provision (D : Type) where
  stream : Nat → AnyStream D
  nextStream : Nat
  service : Nat → Service D
  nextService : Nat
  services : OrdMap Str Nat
  items : List Item
  basePath : Str
  passed : List Nat

namespace World

def provision (w : World D) : Provision D where
  stream a := (w.stream a).unplayed
  nextStream := w.nextStream
  service := w.service
  nextService := w.nextService
  services := w.services
  items := w.items
  basePath := w.basePath
  passed := w.passed

/-- Objects that look alike are the same but for their memory and for what their
streams have received. -/
theorem eq_of_provision {w w' : World D} (h : w.provision = w'.provision) :
    ∃ m f, w' = { w with memory := m, stream := f } ∧
      ∀ a, (w.stream a).unplayed = (f a).unplayed := by
  obtain ⟨m, stream, nextStream, service, nextService, services, items, basePath, passed⟩ := w
  obtain ⟨m', stream', nextStream', service', nextService', services', items', basePath',
    passed'⟩ := w'
  unfold provision at h
  injection h with hstream h₁ h₂ h₃ h₄ h₅ h₆ h₇
  subst h₁ h₂ h₃ h₄ h₅ h₆ h₇
  exact ⟨m', stream', rfl, congrFun hstream⟩

theorem showsItems_provision : ShowsItems (provision (D := D)) where
  items _ _ h := (congrArg Provision.items h :)
  setItems l _ _ h := congrArg (fun p => { p with items := l }) h

theorem provision_setStream {w : World D} {a : Nat} {s : AnyStream D}
    (h : s.unplayed = (w.stream a).unplayed) : (w.setStream a s).provision = w.provision := by
  have hstream : (fun b => (Function.update w.stream a s b).unplayed) =
      fun b => (w.stream b).unplayed := by
    rw [apply_update AnyStream.unplayed, h]
    exact Function.update_eq_self a (fun b => (w.stream b).unplayed)
  simp only [provision, setStream, hstream]

variable [DoubleText D] (env : Environment D)

omit [DoubleText D] in
theorem unplayed_update {f g : Nat → AnyStream D} (h : ∀ a, (f a).unplayed = (g a).unplayed)
    (a : Nat) {s s' : AnyStream D} (hs : s.unplayed = s'.unplayed) (b : Nat) :
    (Function.update f a s b).unplayed = (Function.update g a s' b).unplayed := by
  by_cases hb : b = a
  · subst hb
    rw [Function.update_self, Function.update_self]
    exact hs
  · rw [Function.update_of_ne hb, Function.update_of_ne hb]
    exact h b

omit [DoubleText D] in
theorem provision_congr (w : World D) {m m' : Memory D} {f g : Nat → AnyStream D}
    (h : ∀ a, (f a).unplayed = (g a).unplayed) :
    World.provision { w with memory := m, stream := f } =
      World.provision { w with memory := m', stream := g } :=
  congrArg (fun stream => { w.provision with stream := stream }) (funext h)

omit [DoubleText D] in
theorem provision_callSetCdnEndpoint (address : Nat) (cdnEpt : Str) :
    EStateM.Respects provision (callSetCdnEndpoint (D := D) env.rest address cdnEpt) := by
  intro w w' h
  obtain ⟨m, f, rfl, hf⟩ := eq_of_provision h
  have hstream := hf address
  unfold callSetCdnEndpoint
  dsimp only
  cases hs : w.stream address with
  | basic cs =>
    cases hs' : f address with
    | basic cs' => exact congrArg (EStateM.Result.error _) h
    | seamless s' =>
      rw [hs, hs'] at hstream
      cases hstream
  | seamless s =>
    cases hs' : f address with
    | basic cs' =>
      rw [hs, hs'] at hstream
      cases hstream
    | seamless s' =>
      rw [hs, hs'] at hstream
      injection hstream with hstream
      obtain ⟨hset, hfault⟩ :=
        SeamlessContentStream.unplayed_setCdnEndpoint env.rest address cdnEpt hstream
          w.memory.cache m.cache
      dsimp only [AnyStream.asSeamless?]
      generalize s.setCdnEndpoint env.rest address cdnEpt w.memory.cache = x at hset hfault ⊢
      generalize s'.setCdnEndpoint env.rest address cdnEpt m.cache = y at hset hfault ⊢
      obtain ⟨t, cache, fault⟩ := x
      obtain ⟨t', cache', fault'⟩ := y
      cases hfault
      have hend : (AnyStream.seamless t).unplayed = (AnyStream.seamless t').unplayed :=
        congrArg AnyStream.seamless hset
      have hupdate := unplayed_update hf address hend
      cases fault with
      | none => simp only [EStateM.Result.mapState, provision, setStream, hupdate]
      | some e => simp only [EStateM.Result.mapState, provision, setStream, hupdate]

theorem recreateManifest_congr (indeterminate : Indeterminate D) (sv : Service D)
    {f g : Nat → AnyStream D} (h : ∀ a, (f a).unplayed = (g a).unplayed) :
    sv.recreateManifest indeterminate f = sv.recreateManifest indeterminate g := by
  unfold Service.recreateManifest
  simp only [fun a => AnyStream.content_congr (h a)]

theorem provision_addAndStartContentStream (service address : Nat) :
    EStateM.Respects provision (addAndStartContentStream env service address) := by
  intro w w' h
  obtain ⟨m, f, rfl, hf⟩ := eq_of_provision h
  unfold addAndStartContentStream
  dsimp only
  rw [← AnyStream.content_congr (hf address)]
  have hadd := unplayed_update hf address (AnyStream.setContent_congr (hf address)
    ((w.service service).matchStream (w.stream address).content))
  cases ((w.service service).matchStream (w.stream address).content).start with
  | error e =>
    simp only [EStateM.Result.mapState, provision, setStream, setService, hadd]
  | ok cs =>
    have hstart := unplayed_update hadd address (AnyStream.setContent_congr (hf address) cs)
    simp only [EStateM.Result.mapState, provision, setStream, setService, hstart,
      recreateManifest_congr env.indeterminate _ hstart]

theorem provision_perform (op : MiddlewareCall D) :
    EStateM.Respects provision (perform env op) := by
  cases op with
  | readMasterManifest service manifest basePath =>
    refine respects_callReadMasterManifest (fun w w' h => ?_) (fun w w' h sv cache cache' => ?_)
      manifest basePath
    · obtain ⟨m, f, rfl, -⟩ := eq_of_provision h
      rfl
    · obtain ⟨m, f, rfl, hf⟩ := eq_of_provision h
      exact provision_congr (w.setService service sv) hf
  | newStream s =>
    intro w w' h
    obtain ⟨m, f, rfl, hf⟩ := eq_of_provision h
    have hnew := unplayed_update hf w.nextStream (s := s) rfl
    simp only [perform, EStateM.Result.mapState, provision, setStream, hnew]
  | setCdnEndpoint address cdnEpt => exact provision_callSetCdnEndpoint env address cdnEpt
  | addAndStartContentStream service address =>
    exact provision_addAndStartContentStream env service address
  | _ =>
    intro w w' h
    obtain ⟨m, f, rfl, hf⟩ := eq_of_provision h
    simp only [perform, EStateM.Result.mapState, provision, setService, hf]

theorem provision_receive (address : Nat) (indeterminate : Int) (r : Reception) (w : World D) :
    (w.receive address indeterminate r).1.provision = w.provision := by
  have hstore : ∀ (s : SeamlessContentStream D) (isPlaylist : Bool)
      (x : Except Fault (SeamlessContentStream D × Memory D)), w.stream address = .seamless s →
      (∀ st, x = .ok st → st.1.unplayed = s.unplayed) →
      (w.storeResult address isPlaylist x).1.provision = w.provision := by
    intro s isPlaylist x hs hx
    cases x with
    | error e => rfl
    | ok st =>
      change (w.setStream address (.seamless st.1)).provision = w.provision
      refine provision_setStream ?_
      rw [hs]
      exact congrArg AnyStream.seamless (hx st rfl)
  unfold receive
  cases hs : w.stream address with
  | basic cs => cases r <;> rfl
  | seamless s =>
    cases r with
    | fluteFile file =>
      exact hstore s _ _ hs fun st hst => SeamlessContentStream.unplayed_fluteFileReceived hst
    | cdnPlaylist content =>
      dsimp only
      split_ifs
      · exact hstore s _ _ hs fun st hst => SeamlessContentStream.unplayed_handlePlaylist hst
      · rfl

end World

end MbmsMiddleware
