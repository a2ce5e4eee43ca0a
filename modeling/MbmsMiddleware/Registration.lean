import MbmsMiddleware.CallLog
import MbmsMiddleware.HandlerRuns

/-! Which streams of a set-up are registered with the service when it is over.
They are kept under their playlist paths, so it depends on which of them come
to the same path. -/

namespace MbmsMiddleware

/-- The registered streams before some streams are added, and the streams in the
order in which they are added, each with its path. -/
structure Additions where
  before : OrdMap Str Nat
  added : List (Str × Nat)

namespace Additions

def after (r : Additions) : OrdMap Str Nat := r.added.foldl (fun m x => m.set x.1 x.2) r.before

/-- Every stream is there in the end, and none is put in the place of a stream
with another base. -/
def AllKept (r : Additions) (base : Nat → Str) : Prop :=
  (∀ x ∈ r.added, ∃ k, r.after.find? k = some x.2) ∧
  ∀ pre x post, r.added = pre ++ x :: post →
    ∀ b, (after ⟨r.before, pre⟩).find? x.1 = some b → base b = base x.2

/-- Every stream is the last one under one of its paths, or was registered under
a path that no stream is added under. -/
def HasPlace (r : Additions) : Prop :=
  ∀ x ∈ r.added, (∃ y ∈ r.added, OrdMap.lastAt r.added y.1 = some x.2) ∨
    ∃ k, (∀ y ∈ r.added, y.1 ≠ k) ∧ r.before.find? k = some x.2

/-- Streams that share a path share the base. -/
structure SameBase (r : Additions) (base : Nat → Str) : Prop where
  added : ∀ x ∈ r.added, ∀ y ∈ r.added, x.1 = y.1 → base x.2 = base y.2
  before : ∀ x ∈ r.added, ∀ b, r.before.find? x.1 = some b → base b = base x.2

theorem find?_after (r : Additions) (k : Str) :
    r.after.find? k = (OrdMap.lastAt r.added k).or (r.before.find? k) :=
  OrdMap.find?_foldl_set r.added r.before k

theorem hasPlace_iff (r : Additions) :
    (∀ x ∈ r.added, ∃ k, r.after.find? k = some x.2) ↔ r.HasPlace := by
  refine forall₂_congr fun x _ => ?_
  constructor
  · rintro ⟨k, hk⟩
    rw [find?_after] at hk
    cases hlast : OrdMap.lastAt r.added k with
    | none =>
      rw [hlast] at hk
      exact .inr ⟨k, OrdMap.lastAt_eq_none.mp hlast, hk⟩
    | some a =>
      rw [hlast] at hk
      cases hk
      exact .inl ⟨(k, x.2), OrdMap.mem_of_lastAt hlast, hlast⟩
  · rintro (⟨y, -, hy⟩ | ⟨k, hk, hb⟩)
    · exact ⟨y.1, by rw [find?_after, hy]; rfl⟩
    · exact ⟨k, by rw [find?_after, OrdMap.lastAt_eq_none.mpr hk]; exact hb⟩

/-- Looking at each addition as it is made is looking at all of them at once. -/
theorem sameBase_iff (before : OrdMap Str Nat) (base : Nat → Str) (l : List (Str × Nat)) :
    (∀ pre x post, l = pre ++ x :: post →
      ∀ b, (after ⟨before, pre⟩).find? x.1 = some b → base b = base x.2) ↔
    SameBase ⟨before, l⟩ base := by
  induction l using List.reverseRecOn with
  | nil => exact ⟨fun _ => ⟨by simp, by simp⟩, by simp⟩
  | append_singleton l x ih =>
    rw [Runs.forall_splits_concat (P := fun pre (x : Str × Nat) =>
      ∀ b, (after ⟨before, pre⟩).find? x.1 = some b → base b = base x.2), ih]
    constructor
    · rintro ⟨hs, hx⟩
      have hlast : ∀ y ∈ l, y.1 = x.1 → base y.2 = base x.2 := by
        intro y hy hyx
        cases hz : OrdMap.lastAt l x.1 with
        | none => exact absurd hyx (OrdMap.lastAt_eq_none.mp hz y hy)
        | some b =>
          have hb := hx b (by rw [find?_after, hz]; rfl)
          exact (hs.added y hy (x.1, b) (OrdMap.mem_of_lastAt hz) hyx).trans hb
      constructor
      · intro y hy z hz hyz
        rcases List.mem_append.mp hy with hyl | hyx
        · rcases List.mem_append.mp hz with hzl | hzx
          · exact hs.added y hyl z hzl hyz
          · obtain rfl := List.mem_singleton.mp hzx
            exact hlast y hyl hyz
        · obtain rfl := List.mem_singleton.mp hyx
          rcases List.mem_append.mp hz with hzl | hzx
          · exact (hlast z hzl hyz.symm).symm
          · rw [List.mem_singleton.mp hzx]
      · intro y hy b hb
        rcases List.mem_append.mp hy with hy | hy
        · exact hs.before y hy b hb
        · obtain rfl := List.mem_singleton.mp hy
          cases hz : OrdMap.lastAt l y.1 with
          | none => exact hx b (by rw [find?_after, hz]; exact hb)
          | some c =>
            have hm := OrdMap.mem_of_lastAt hz
            exact (hs.before (y.1, c) hm b hb).trans (hlast (y.1, c) hm rfl)
    · rintro ⟨hadded, hbefore⟩
      refine ⟨⟨fun y hy z hz => hadded y (by simp [hy]) z (by simp [hz]),
        fun y hy => hbefore y (by simp [hy])⟩, fun b hb => ?_⟩
      rw [find?_after] at hb
      cases hz : OrdMap.lastAt l x.1 with
      | none =>
        rw [hz] at hb
        exact hbefore x (by simp) b hb
      | some c =>
        rw [hz] at hb
        cases hb
        exact hadded (x.1, b) (by simp [OrdMap.mem_of_lastAt hz]) x (by simp) rfl

theorem allKept_iff (r : Additions) (base : Nat → Str) :
    r.AllKept base ↔ r.HasPlace ∧ r.SameBase base :=
  and_congr r.hasPlace_iff (sameBase_iff r.before base r.added)

end Additions

namespace ServiceAnnouncement

variable {D : Type} [DoubleText D] (env : Environment D)

/-- The stream that a call adds, under the path it has then. -/
def addition : MiddlewareCall D × World D → Option (Str × Nat)
  | (.addAndStartContentStream _ address, w) => some ((w.stream address).content.playlistPath, address)
  | _ => none

def register (m : OrdMap Str Nat) (c : MiddlewareCall D × World D) : OrdMap Str Nat :=
  (addition c).elim m fun x => m.set x.1 x.2

omit [DoubleText D] in
theorem foldl_register (log : List (MiddlewareCall D × World D)) (m : OrdMap Str Nat) :
    log.foldl register m = (Additions.mk m (log.filterMap addition)).after := by
  induction log generalizing m with
  | nil => rfl
  | cons c log ih =>
    rw [List.foldl_cons, ih, Additions.after, Additions.after, List.filterMap_cons, register]
    cases addition c <;> rfl

theorem contentStreams_perform {service n : Nat} {call : MiddlewareCall D} {w : World D}
    (h : OwnCall service n call w) :
    ((World.perform env call w).state.service service).contentStreams =
      register (w.service service).contentStreams (call, w) := by
  cases call with
  | newStream s => rfl
  | setCdnEndpoint address url =>
    simp only [World.perform, World.callSetCdnEndpoint]
    split
    · rfl
    · split <;> rfl
  | addAndStartContentStream s address =>
    obtain ⟨rfl, -⟩ := h
    obtain ⟨r, c, b, f, hm⟩ := (w.service s).matchStream_eq (w.stream address).content
    have hpath : ((w.service s).matchStream (w.stream address).content).playlistPath =
        (w.stream address).content.playlistPath := by rw [hm]
    simp only [World.perform, World.addAndStartContentStream, hpath]
    split
    · simp [EStateM.Result.state, World.setService, register, addition]
    · unfold Service.recreateManifest
      dsimp only
      split <;> simp [EStateM.Result.state, World.setService, register, addition]
  | _ => exact h.elim

/-- The streams that a set-up adds. -/
def additions (service : Nat) (w : World D) (log : List (MiddlewareCall D × World D)) : Additions :=
  ⟨(w.service service).contentStreams, log.filterMap addition⟩

/-- After the set-up every stream it has added is registered, and when it added
one, there was no stream with another base under the path. -/
structure StreamsKept (service : Nat) (w : World D) (log : List (MiddlewareCall D × World D)) :
    Prop where
  registered : ∀ c ∈ log, ∀ x ∈ addition c,
    ∃ k, (w.service service).contentStreams.find? k = some x.2
  undisplaced : ∀ c ∈ log, ∀ x ∈ addition c,
    ∀ b, (c.2.service service).contentStreams.find? x.1 = some b →
      (w.stream b).content.base = (w.stream x.2).content.base

/-- No stream that a set-up adds is lost exactly when each of them is the last
one under one of its paths and streams that share a path share the base. -/
theorem streams_kept_registered (cfg : Config) (items : List Item) (protocol : DeliveryProtocol)
    (service : Nat) (basePath : Str) (appService : Option XmlElement) (usd : XmlElement)
    (w : World D) :
    let result := ((setup cfg items protocol service basePath appService usd).run
      (Program.logged (World.perform env)) (w, [])).state
    StreamsKept service result.1 result.2 ↔
      (additions service w result.2).HasPlace ∧
      (additions service w result.2).SameBase fun a => (result.1.stream a).content.base := by
  have hsetup : Does env service w.nextStream _ _
      (setup cfg items protocol service basePath appService usd) w :=
    setup_faults cfg items protocol basePath appService usd w
  obtain ⟨log, hrun, hend, hlog⟩ := hsetup.replay (fun v => (v.service service).contentStreams)
    register (fun _ _ h => contentStreams_perform env h) []
  generalize (setup cfg items protocol service basePath appService usd).run (World.perform env) w =
    result at hrun hend
  dsimp only
  rw [hrun, List.nil_append, ← Additions.allKept_iff]
  rw [foldl_register] at hend
  constructor
  · rintro ⟨hreg, hdis⟩
    constructor
    · intro x hx
      obtain ⟨c, hc, hcx⟩ := List.mem_filterMap.mp hx
      have hh := hreg c hc x hcx
      rwa [hend] at hh
    · intro pre x post he b hb
      obtain ⟨l₁, l₂, hsplit, hl₁, hl₂⟩ := List.filterMap_eq_append_iff.mp he
      obtain ⟨l₃, c, l₄, rfl, hnone, hcx, -⟩ := List.filterMap_eq_cons_iff.mp hl₂
      have hview := (hlog (l₁ ++ l₃) c l₄ (hsplit.trans (List.append_assoc ..).symm)).2
      have hmem : c ∈ log := by
        change log = _ at hsplit
        rw [hsplit]
        simp
      have hpre : (l₁ ++ l₃).filterMap addition = pre := by
        rw [List.filterMap_append, hl₁, List.filterMap_eq_nil_iff.mpr hnone, List.append_nil]
      rw [foldl_register, hpre] at hview
      exact hdis c hmem x hcx b (by rw [hview]; exact hb)
  · rintro ⟨hreg, hdis⟩
    constructor
    · intro c hc x hcx
      rw [hend]
      exact hreg x (List.mem_filterMap.mpr ⟨c, hc, hcx⟩)
    · intro c hc x hcx b hb
      obtain ⟨pre, post, rfl⟩ := List.append_of_mem hc
      have hview := (hlog pre c post rfl).2
      rw [foldl_register] at hview
      rw [hview] at hb
      refine hdis (pre.filterMap addition) x (post.filterMap addition) ?_ b hb
      rw [additions, List.filterMap_append, List.filterMap_cons, hcx]

section Example

/-- Two base patterns of a DASH service, whose streams get no playlist path. -/
def twoPatterns : XmlElement :=
  .mk ServiceAnnouncementXmlElements.userServiceDescription [] none
    [.mk ServiceAnnouncementXmlElements.deliveryMethod
      [(ServiceAnnouncementXmlElements.sessionDescriptionUri, "a.sdp".toList)] none
      [.mk ServiceAnnouncementXmlElements.broadcastAppService [] none
        [.mk ServiceAnnouncementXmlElements.basePattern [] (some "a/".toList) [],
          .mk ServiceAnnouncementXmlElements.basePattern [] (some "b/".toList) []]]]

def dashWorld : World Int :=
  (World.initial bareEnvironment).setService 0 { deliveryProtocol := .dash }

def setupTwoPatterns : World Int × List (MiddlewareCall Int × World Int) :=
  ((setup { bootstrapFormat := some ServiceAnnouncementFormatConstants.fivegMagLegacy } [] .dash 0 []
    none twoPatterns).run (Program.logged (World.perform bareEnvironment)) (dashWorld, [])).state

theorem second_stream_displaces_first :
    setupTwoPatterns.2.filterMap addition = [([], 0), ([], 1)] ∧
    ¬ StreamsKept 0 setupTwoPatterns.1 setupTwoPatterns.2 := by
  have hadded : setupTwoPatterns.2.filterMap addition = [([], 0), ([], 1)] := by
    decide +kernel
  have hentries : (setupTwoPatterns.1.service 0).contentStreams.entries = [⟨[], 1⟩] := by
    decide +kernel
  refine ⟨hadded, fun h => ?_⟩
  have hfirst : ([], 0) ∈ setupTwoPatterns.2.filterMap addition := by
    rw [hadded]
    exact List.mem_cons_self
  obtain ⟨c, hc, hx⟩ := List.mem_filterMap.mp hfirst
  obtain ⟨k, hk⟩ := h.registered c hc _ hx
  have hm := OrdMap.find?_eq_some.mp hk
  rw [hentries] at hm
  simp at hm

end Example

end ServiceAnnouncement

end MbmsMiddleware
