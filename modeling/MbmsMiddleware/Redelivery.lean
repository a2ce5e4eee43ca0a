import MbmsMiddleware.AbsentElements
import MbmsMiddleware.AnnouncementReception

/-! Announcements that follow one another: what the items hold after the second,
and which of the received files are parsed. -/

namespace MbmsMiddleware

namespace World

open ServiceAnnouncement

variable {D : Type} (env : Environment D)

/-- The items that a text adds. -/
def announcedItems (str : Str) : List Item :=
  (env.mimeParts str).filterMap fun part =>
    let location := part.contentLocation.getD []
    if location ≠ [] then
      some { contentType := part.contentType, uri := location, content := Text.trimLeft part.content }
    else none

theorem addServiceAnnouncementItems_items (w : World D) (str : Str) :
    (w.addServiceAnnouncementItems env str).items = w.items ++ announcedItems env str := rfl

variable [DoubleText D] (cfg : Config)

theorem parseBootstrap_items (str : Str) (w : World D) :
    (parseBootstrap env cfg str w).state.items.map withoutValidity =
      (w.items ++ announcedItems env str).map withoutValidity := by
  have hbundles : ∀ (l : List Item) (w₁ : World D),
      (l.forM (handleUserServiceDescriptionBundle env cfg) w₁).Ensures
        (fun _ w₂ => w₂.items = w₁.items) (fun _ w₂ => w₂.items = w₁.items) := by
    intro l
    induction l with
    | nil => exact fun w₁ => rfl
    | cons item l ih =>
      intro w₁
      apply EStateM.ensures_bind
      apply (handleUserServiceDescriptionBundle_ensures env cfg item w₁).mono
      · intro _ w₂ h
        exact (ih w₂).mono (fun _ _ h' => h'.trans h.2) (fun _ _ h' => h'.trans h.2)
      · exact fun _ w₂ h => h.2
  have h : (parseBootstrap env cfg str w).Ensures
      (fun _ w' => w'.items.map withoutValidity =
        (w.items ++ announcedItems env str).map withoutValidity)
      (fun _ w' => w'.items.map withoutValidity =
        (w.items ++ announcedItems env str).map withoutValidity) := by
    apply EStateM.ensures_modify
    apply EStateM.ensures_get
    apply EStateM.ensures_bind
    apply (handleMbmsEnvelopes_ensures env _ _).mono
    · intro _ w₁ h₁
      apply EStateM.ensures_get
      apply (hbundles _ w₁).mono
      · intro _ w₂ h₂
        rw [h₂]
        exact h₁.2.items
      · intro _ w₂ h₂
        rw [h₂]
        exact h₁.2.items
    · exact fun _ w₁ h₁ => h₁.2.items
  cases hr : parseBootstrap env cfg str w <;> rw [hr] at h <;> exact h

theorem parseBootstrap_of_nothing_announced {str : Str} {w : World D} (hw : w.items = [])
    (h : announcedItems env str = []) : parseBootstrap env cfg str w = .ok () w := by
  have hadd : w.addServiceAnnouncementItems env str = w := by
    obtain ⟨memory, stream, nextStream, service, nextService, services, items, basePath, passed⟩ := w
    subst hw
    have hi := addServiceAnnouncementItems_items env
      (⟨memory, stream, nextStream, service, nextService, services, [], basePath, passed⟩ : World D) str
    rw [h] at hi
    simpa [addServiceAnnouncementItems] using hi
  have hnil : ∀ f : Item → Action D Unit, ([] : List Item).forM f w = .ok () w := fun f => rfl
  rw [parseBootstrap_eq, hadd]
  simp only [EStateM.bind, hw, List.filter_nil, hnil]

/-- The middleware's state with a new `ServiceAnnouncement`. -/
def withFreshAnnouncement (w : World D) : World D := { w with items := [], basePath := [] }

/-- The items of an announcement are those of its text alone exactly when its
predecessor had none. -/
theorem items_replaced_iff (str str' : Str) (w : World D) (hw : w.items = []) :
    (parseBootstrap env cfg str' (parseBootstrap env cfg str w).state).state.items =
        (parseBootstrap env cfg str' w).state.items ↔
      announcedItems env str = [] := by
  constructor
  · intro h
    have hfirst := congrArg List.length (parseBootstrap_items env cfg str w)
    have hboth := congrArg List.length
      (parseBootstrap_items env cfg str' (parseBootstrap env cfg str w).state)
    have halone := congrArg List.length (parseBootstrap_items env cfg str' w)
    rw [h] at hboth
    simp only [List.length_map, List.length_append, hw, List.length_nil] at hfirst hboth halone
    rw [← List.length_eq_zero_iff]
    omega
  · intro h
    rw [parseBootstrap_of_nothing_announced env cfg hw h]
    rfl

end World

/-- The reception of announcements. `parsed` records the TOIs of the files that
`parse_bootstrap` was called for, the latest first. -/
structure AnnouncementRun (D : Type) where
  announcement : ServiceAnnouncement
  world : World D
  running : Bool := true
  parsed : List Nat := []

namespace AnnouncementRun

open ServiceAnnouncement

variable {D : Type} [DoubleText D] (env : ReceptionEnvironment D) (cfg : Config)

def receive (r : AnnouncementRun D) (file : FluteFile) : AnnouncementRun D :=
  if r.running then
    let (sa, result) := fluteFileReceived env cfg file r.announcement r.world
    { announcement := sa
      world := result.state
      running := result.fault?.isNone
      parsed := match (textToParse env file r.announcement).2 with
        | .ok (some _) => file.toi :: r.parsed
        | _ => r.parsed }
  else r

def initial (tmgi : Str) (tsi : Nat) (iface : Str) (w : World D) : AnnouncementRun D where
  announcement := { tmgi := tmgi, tsi := tsi, iface := iface }
  world := w.withFreshAnnouncement

/-- A file with the TOI of the announcement processed last is not parsed. -/
def Ignored (r : AnnouncementRun D) (file : FluteFile) : Prop :=
  r.parsed.head? = some file.toi → (r.receive env cfg file).parsed = r.parsed

/-- The file's TOI is another than that of the announcement processed last,
unless nothing is parsed any more. -/
def NewToi (r : AnnouncementRun D) (file : FluteFile) : Prop :=
  r.running = true → (contentOf env file).isOk = true → r.parsed.head? ≠ some file.toi

omit [DoubleText D] in
theorem bootstrapped_textToParse (file : FluteFile) (sa : ServiceAnnouncement) :
    (textToParse env file sa).1.bootstrapped = sa.bootstrapped := by
  unfold textToParse
  split
  · cases contentOf env file <;> rfl
  · rfl

theorem bootstrapped_receive (r : AnnouncementRun D) (file : FluteFile) :
    (r.receive env cfg file).announcement.bootstrapped = r.announcement.bootstrapped := by
  have h := bootstrapped_textToParse env file r.announcement
  unfold receive fluteFileReceived
  by_cases hr : r.running
  · rw [if_pos hr, ← h]
    rcases textToParse env file r.announcement with ⟨sa, _ | _ | str⟩ <;> rfl
  · rw [if_neg hr]

/-- `_bootstrapped` is never set, so every file that can be read is parsed. -/
theorem parsed_receive_of_not_bootstrapped {r : AnnouncementRun D}
    (hb : r.announcement.bootstrapped = false) (file : FluteFile) :
    (r.receive env cfg file).parsed =
      if r.running = true ∧ (contentOf env file).isOk = true then file.toi :: r.parsed
      else r.parsed := by
  unfold receive
  by_cases hr : r.running
  · rw [if_pos hr, textToParse, hb]
    cases contentOf env file <;> simp [hr, Except.isOk, Except.toBool]
  · rw [if_neg hr, if_neg fun h => hr h.1]

theorem ignored_iff_newToi {r : AnnouncementRun D} (hb : r.announcement.bootstrapped = false)
    (file : FluteFile) : r.Ignored env cfg file ↔ r.NewToi env file := by
  unfold Ignored NewToi
  rw [parsed_receive_of_not_bootstrapped env cfg hb]
  by_cases h : r.running = true ∧ (contentOf env file).isOk = true
  · rw [if_pos h]
    have hne : file.toi :: r.parsed ≠ r.parsed := List.cons_ne_self _ _
    constructor
    · exact fun hi _ _ heq => hne (hi heq)
    · exact fun hn heq => absurd heq (hn h.1 h.2)
  · rw [if_neg h]
    exact ⟨fun _ hr hc => absurd ⟨hr, hc⟩ h, fun _ _ => rfl⟩

theorem stepsMeet_ignored_iff {r : AnnouncementRun D} (hb : r.announcement.bootstrapped = false)
    (files : List FluteFile) :
    Runs.StepsMeet (receive env cfg) (Ignored env cfg) r files ↔
      Runs.StepsMeet (receive env cfg) (NewToi env) r files := by
  induction files generalizing r with
  | nil => rfl
  | cons file files ih =>
    have hb' : (r.receive env cfg file).announcement.bootstrapped = false := by
      rw [bootstrapped_receive, hb]
    exact and_congr (ignored_iff_newToi env cfg hb file) (ih hb')

/-- An announcement replaces its predecessor exactly when that had no items, and
the files of a run that repeat the announcement before them are left alone
exactly when there are none. -/
theorem announcement_replaces_predecessor (w : World D) (str str' : Str) (tmgi : Str) (tsi : Nat)
    (iface : Str) (files : List FluteFile) :
    ((World.parseBootstrap env.toEnvironment cfg str'
          (World.parseBootstrap env.toEnvironment cfg str w.withFreshAnnouncement).state).state.items =
        (World.parseBootstrap env.toEnvironment cfg str' w.withFreshAnnouncement).state.items ↔
      World.announcedItems env.toEnvironment str = []) ∧
    (Runs.StepsMeet (receive env cfg) (Ignored env cfg) (initial tmgi tsi iface w) files ↔
      Runs.StepsMeet (receive env cfg) (NewToi env) (initial tmgi tsi iface w) files) :=
  ⟨World.items_replaced_iff env.toEnvironment cfg str str' _ rfl,
    stepsMeet_ignored_iff env cfg rfl files⟩

section Example

/-- Every announcement has one item. -/
def sdpEnvironment : ReceptionEnvironment Int where
  toEnvironment :=
    { bareEnvironment with
      mimeParts := fun _ => [⟨ContentTypeConstants.sdp, some "a.sdp".toList, []⟩] }
  decompress s := .ok s
  behind _ := ['\x00']

def announcementFile : FluteFile where
  contentLocation := "sa.multipart".toList
  toi := 1
  contentType := []
  buffer := "sa".toList
  receivedAt := 1000
  complete := true

/-- An announcement that is received again is parsed again, and its items are
added again. -/
theorem redelivered_announcement_parsed :
    (World.parseBootstrap sdpEnvironment.toEnvironment {} []
        (World.parseBootstrap sdpEnvironment.toEnvironment {} []
          (World.initial sdpEnvironment.toEnvironment)).state).state.items ≠
      (World.parseBootstrap sdpEnvironment.toEnvironment {} []
        (World.initial sdpEnvironment.toEnvironment)).state.items ∧
    ¬ Runs.StepsMeet (receive sdpEnvironment {}) (Ignored sdpEnvironment {})
      (initial [] 0 [] (World.initial sdpEnvironment.toEnvironment))
      [announcementFile, announcementFile] := by
  constructor
  · decide
  · intro h
    exact absurd (h.2.1 (by decide)) (by decide)

end Example

end AnnouncementRun

end MbmsMiddleware
