import MbmsMiddleware.Registry

/-! The generated manifest of an HLS service against what is announced: which
attributes its entries carry after any order of playlists read and streams
added. -/

namespace MbmsMiddleware

open HlsPrimaryPlaylist (Stream)

inductive ServiceCall (D : Type) where
  | readMasterManifest (manifest basePath : Str)
  | addAndStartContentStream (s : AnyStream D)

/-- The attributes that a constructed stream has, and no receiver. -/
structure ContentStream.AsConstructed {D : Type} (s : ContentStream D) : Prop where
  resolution : s.resolution = []
  codecs : s.codecs = []
  bandwidth : s.bandwidth = none
  frameRate : s.frameRate = none
  fluteThread : s.fluteThread = none

namespace ServiceCall

variable {D : Type} [DoubleText D] (env : Environment D) (service : Nat)

/-- Every stream that is added is constructed for the call. -/
def perform : ServiceCall D → Action D Unit
  | .readMasterManifest manifest basePath => World.callReadMasterManifest service manifest basePath
  | .addAndStartContentStream s => do
    let address ← World.perform env (.newStream s)
    World.addAndStartContentStream env service address

/-- The state that a call leaves, also when it throws. -/
def step (w : World D) (call : ServiceCall D) : World D := (call.perform env service w).state

end ServiceCall

def entryAt {D : Type} (entries : List (Stream D)) (path : Str) : Option (Stream D) :=
  entries.reverse.find? (·.uri = path)

/-- What is announced: the entries of the latest primary playlist, and for every
path the entry it had when a stream was last added there. -/
structure Announced (D : Type) where
  entries : List (Stream D) := []
  added : OrdMap Str (Option (Stream D)) := .empty

namespace Announced

variable {D : Type} [DoubleText D]

def step (a : Announced D) : ServiceCall D → Announced D
  | .readMasterManifest manifest basePath =>
    match HlsPrimaryPlaylist.parse manifest basePath with
    | .ok pl => { a with entries := pl.streams }
    | .error _ => a
  | .addAndStartContentStream s =>
    { a with added :=
        a.added.set s.content.playlistPath (entryAt a.entries s.content.playlistPath) }

def run (calls : List (ServiceCall D)) : Announced D := calls.foldl step {}

/-- The entry of the generated manifest: that of the announced one, or nothing
but its URI. -/
def variant (path : Str) (entry : Option (Stream D)) : Stream D where
  uri := '/' :: path
  resolution := entry.elim [] (·.resolution)
  codecs := entry.elim [] (·.codecs)
  bandwidth := entry.elim 0 (·.bandwidth)
  frameRate := entry.elim (DoubleText.ofInt 0) (·.frameRate)

def variants (a : Announced D) : List (Stream D) := a.added.entries.map fun e => variant e.1 e.2

theorem run_concat (calls : List (ServiceCall D)) (call : ServiceCall D) :
    run (calls ++ [call]) = (run calls).step call := by
  rw [run, List.foldl_append]
  rfl

theorem step_readMasterManifest_added (a : Announced D) (manifest basePath : Str) :
    (a.step (.readMasterManifest manifest basePath)).added = a.added := by
  simp only [step]
  split <;> rfl

/-- Only a stream added at a path changes what is kept for it. -/
theorem find?_foldl_step {path : Str} {calls : List (ServiceCall D)}
    (h : ∀ s, .addAndStartContentStream s ∈ calls → s.content.playlistPath ≠ path) (a : Announced D) :
    (calls.foldl step a).added.find? path = a.added.find? path := by
  induction calls generalizing a with
  | nil => rfl
  | cons call calls ih =>
    rw [List.foldl_cons, ih (fun s hs => h s (List.mem_cons_of_mem _ hs))]
    cases call with
    | readMasterManifest manifest basePath => rw [step_readMasterManifest_added]
    | addAndStartContentStream s =>
      exact OrdMap.find?_set_of_ne _ _ (Ne.symm (h s List.mem_cons_self))

/-- What is kept for a path comes from the last stream added there. -/
theorem find?_run_eq_some_iff {calls : List (ServiceCall D)} {path : Str} {entry : Option (Stream D)} :
    (run calls).added.find? path = some entry ↔
      ∃ pre s post, calls = pre ++ .addAndStartContentStream s :: post ∧ s.content.playlistPath = path ∧
        (∀ s', .addAndStartContentStream s' ∈ post → s'.content.playlistPath ≠ path) ∧
        entry = entryAt (run pre).entries path := by
  constructor
  · intro h
    induction calls using List.reverseRecOn with
    | nil => simp [run] at h
    | append_singleton calls call ih =>
      rw [run_concat] at h
      by_cases hadd : ∃ s : AnyStream D, call = .addAndStartContentStream s ∧ s.content.playlistPath = path
      · obtain ⟨s, rfl, hs⟩ := hadd
        refine ⟨calls, s, [], rfl, hs, by simp, ?_⟩
        rw [step, hs, OrdMap.find?_set_self] at h
        exact (Option.some.inj h).symm
      · have hone : ∀ s : AnyStream D, .addAndStartContentStream s ∈ [call] →
            s.content.playlistPath ≠ path := fun s hs he =>
          hadd ⟨s, (List.mem_singleton.mp hs).symm, he⟩
        have hsame := find?_foldl_step hone (run calls)
        obtain ⟨pre, s, post, rfl, hs, hpost, hentry⟩ := ih (hsame.symm.trans h)
        refine ⟨pre, s, post ++ [call], by simp, hs, fun s' hs' => ?_, hentry⟩
        rcases List.mem_append.mp hs' with hs' | hs'
        · exact hpost s' hs'
        · exact hone s' hs'
  · rintro ⟨pre, s, post, rfl, rfl, hpost, rfl⟩
    rw [run, List.foldl_append, List.foldl_cons, find?_foldl_step hpost]
    exact OrdMap.find?_set_self _ _ _

theorem mem_keys_run {calls : List (ServiceCall D)} {s : AnyStream D}
    (h : .addAndStartContentStream s ∈ calls) : s.content.playlistPath ∈ (run calls).added.keys := by
  induction calls using List.reverseRecOn with
  | nil => simp at h
  | append_singleton calls call ih =>
    rw [run_concat]
    rcases List.mem_append.mp h with h | h
    · have hk := ih h
      cases call with
      | readMasterManifest manifest basePath => rwa [step_readMasterManifest_added]
      | addAndStartContentStream s' => exact OrdMap.mem_keys_set.mpr (.inr hk)
    · cases List.mem_singleton.mp h
      exact OrdMap.mem_keys_set.mpr (.inl rfl)

end Announced

def ContentStream.attributes {D : Type} (s : ContentStream D) : Str × Str × Option Nat × Option D :=
  (s.resolution, s.codecs, s.bandwidth, s.frameRate)

/-- What a constructed stream takes over of an entry. -/
def entryAttributes {D : Type} (entry : Option (Stream D)) : Str × Str × Option Nat × Option D :=
  entry.elim ([], [], none, none) fun e => (e.resolution, e.codecs, some e.bandwidth, some e.frameRate)

def ContentStream.takeOver {D : Type} (s : ContentStream D) (e : Stream D) : ContentStream D :=
  { s with
    resolution := e.resolution
    codecs := e.codecs
    bandwidth := some e.bandwidth
    frameRate := some e.frameRate }

theorem entryAt_concat {D : Type} (entries : List (Stream D)) (e : Stream D) (path : Str) :
    entryAt (entries ++ [e]) path = if e.uri = path then some e else entryAt entries path := by
  rw [entryAt, List.reverse_append]
  by_cases h : e.uri = path <;> simp [entryAt, h]

theorem entryAt_isSome_iff {D : Type} {entries : List (Stream D)} {path : Str} :
    (entryAt entries path).isSome ↔ ∃ e ∈ entries, e.uri = path := by
  simp [entryAt]

namespace Service

variable {D : Type}

theorem matchStream_hls {sv : Service D} (hp : sv.deliveryProtocol = .hls) (s : ContentStream D) :
    sv.matchStream s = (entryAt sv.hlsPrimaryPlaylist.streams s.playlistPath).elim s s.takeOver := by
  rw [matchStream, if_pos hp]
  induction sv.hlsPrimaryPlaylist.streams using List.reverseRecOn with
  | nil => rfl
  | append_singleton entries e ih =>
    have hpath : ((entryAt entries s.playlistPath).elim s s.takeOver).playlistPath = s.playlistPath := by
      cases entryAt entries s.playlistPath <;> rfl
    rw [List.foldl_append, List.foldl_cons, List.foldl_nil, ih, entryAt_concat, hpath]
    by_cases he : e.uri = s.playlistPath
    · rw [if_pos he, if_pos he]
      cases entryAt entries s.playlistPath <;> rfl
    · rw [if_neg he, if_neg he]

theorem attributes_matchStream {sv : Service D} (hp : sv.deliveryProtocol = .hls) {s : ContentStream D}
    (hs : s.AsConstructed) :
    (sv.matchStream s).attributes =
      entryAttributes (entryAt sv.hlsPrimaryPlaylist.streams s.playlistPath) := by
  rw [matchStream_hls hp]
  cases entryAt sv.hlsPrimaryPlaylist.streams s.playlistPath with
  | none =>
    simp [ContentStream.attributes, entryAttributes, hs.resolution, hs.codecs, hs.bandwidth, hs.frameRate]
  | some e => rfl

end Service

theorem ContentStream.start_of_noThread {D : Type} {s : ContentStream D} (hs : s.fluteThread = none) :
    ∃ thread, s.start = .ok { s with fluteThread := thread } := by
  unfold start
  split_ifs with hflute
  · rw [hs]
    exact ⟨_, rfl⟩
  · exact ⟨s.fluteThread, rfl⟩

def attributedVariant {D : Type} (indeterminate : Indeterminate D) (path : Str)
    (attributes : Str × Str × Option Nat × Option D) : Stream D where
  uri := '/' :: path
  resolution := attributes.1
  codecs := attributes.2.1
  bandwidth := attributes.2.2.1.getD indeterminate.bandwidth
  frameRate := attributes.2.2.2.getD indeterminate.frameRate

theorem Service.variant_eq {D : Type} (indeterminate : Indeterminate D) (s : ContentStream D) :
    Service.variant indeterminate s = attributedVariant indeterminate s.playlistPath s.attributes := rfl

/-- The list that is rendered into the manifest. -/
def World.variants {D : Type} (env : Environment D) (service : Nat) (w : World D) : List (Stream D) :=
  (w.service service).contentStreams.entries.map fun e =>
    Service.variant env.indeterminate (w.stream e.2).content

namespace ServiceCall

variable {D : Type} [DoubleText D] {env : Environment D} {service : Nat}

theorem step_readMasterManifest (env : Environment D) {w : World D}
    (hp : (w.service service).deliveryProtocol = .hls)
    (manifest basePath : Str) :
    let w' := step env service w (.readMasterManifest manifest basePath)
    w'.stream = w.stream ∧ w'.nextStream = w.nextStream ∧
      (w'.service service).deliveryProtocol = .hls ∧
      (w'.service service).contentStreams = (w.service service).contentStreams ∧
      (w'.service service).manifest = (w.service service).manifest ∧
      (w'.service service).hlsPrimaryPlaylist.streams =
        match HlsPrimaryPlaylist.parse manifest basePath with
        | .ok pl => pl.streams
        | .error _ => (w.service service).hlsPrimaryPlaylist.streams := by
  simp only [step, perform, World.callReadMasterManifest, Service.readMasterManifest, hp]
  cases (HlsPrimaryPlaylist.parse manifest basePath : Except Fault (HlsPrimaryPlaylist D)) with
  | error e => simp [bind, Except.bind, EStateM.Result.state, hp]
  | ok pl => simp [bind, Except.bind, pure, Except.pure, EStateM.Result.state, World.setService]

/-- A stream that is added is registered with the attributes of its entry, and
the manifest is made anew. -/
theorem step_addAndStartContentStream (env : Environment D) {w : World D}
    (hp : (w.service service).deliveryProtocol = .hls) {s : AnyStream D} (hs : s.content.AsConstructed) :
    ∃ s' : AnyStream D,
      s'.content.playlistPath = s.content.playlistPath ∧
      s'.content.attributes = entryAttributes
        (entryAt (w.service service).hlsPrimaryPlaylist.streams s.content.playlistPath) ∧
      let w' := step env service w (.addAndStartContentStream s)
      w'.stream = Function.update w.stream w.nextStream s' ∧ w'.nextStream = w.nextStream + 1 ∧
        (w'.service service).deliveryProtocol = .hls ∧
        (w'.service service).hlsPrimaryPlaylist = (w.service service).hlsPrimaryPlaylist ∧
        (w'.service service).contentStreams =
          (w.service service).contentStreams.set s.content.playlistPath w.nextStream ∧
        (w'.service service).manifest =
          ({ streams := w'.variants env service } : HlsPrimaryPlaylist D).toString := by
  have hmatch := Service.attributes_matchStream hp hs
  obtain ⟨r, c, b, f, heq⟩ := (w.service service).matchStream_eq s.content
  generalize hcs : (w.service service).matchStream s.content = cs at hmatch heq
  have hthread : cs.fluteThread = none := by
    rw [heq]
    exact hs.fluteThread
  have hpath : cs.playlistPath = s.content.playlistPath := by rw [heq]
  obtain ⟨thread, hstart⟩ := ContentStream.start_of_noThread hthread
  refine ⟨s.setContent { cs with fluteThread := thread }, ?_, ?_, ?_⟩
  · rw [AnyStream.content_setContent, hpath]
  · rw [AnyStream.content_setContent, ← hmatch]
    rfl
  · simp only [step, perform, World.perform, bind, EStateM.bind, World.addAndStartContentStream,
      World.setService, World.setStream, Function.update_self, Function.update_idem, hcs, hstart,
      EStateM.Result.state, Service.recreateManifest, hp, hpath, World.variants, and_self]

end ServiceCall

/-- The state of a service against what is announced: every stream is kept
under its path with the attributes of the entry that is kept for it. -/
structure Tracks {D : Type} [DoubleText D] (env : Environment D) (service : Nat) (w : World D)
    (a : Announced D) : Prop where
  protocol : (w.service service).deliveryProtocol = .hls
  entries : (w.service service).hlsPrimaryPlaylist.streams = a.entries
  registered : ∀ path address, (w.service service).contentStreams.find? path = some address →
    address < w.nextStream ∧ (w.stream address).content.playlistPath = path
  attributes : (w.service service).contentStreams.map (fun address => (w.stream address).content.attributes) =
    a.added.map entryAttributes
  rendered : a.added.entries ≠ [] →
    (w.service service).manifest = ({ streams := w.variants env service } : HlsPrimaryPlaylist D).toString

namespace Tracks

variable {D : Type} [DoubleText D] {env : Environment D} {service : Nat}

theorem readMasterManifest {w : World D} {a : Announced D} (h : Tracks env service w a)
    (manifest basePath : Str) :
    Tracks env service (ServiceCall.step env service w (.readMasterManifest manifest basePath))
      (a.step (.readMasterManifest manifest basePath)) := by
  obtain ⟨hstream, hnext, hp, hstreams, hmanifest, hentries⟩ :=
    ServiceCall.step_readMasterManifest env h.protocol manifest basePath
  have hadded := a.step_readMasterManifest_added manifest basePath
  have hvariants : (ServiceCall.step env service w (.readMasterManifest manifest basePath)).variants env
      service = w.variants env service := by
    rw [World.variants, World.variants, hstreams, hstream]
  refine ⟨hp, ?_, ?_, ?_, ?_⟩
  · rw [hentries, Announced.step]
    cases (HlsPrimaryPlaylist.parse manifest basePath : Except Fault (HlsPrimaryPlaylist D)) with
    | ok pl => rfl
    | error e => exact h.entries
  · rw [hstreams, hstream, hnext]
    exact h.registered
  · rw [hstreams, hstream, hadded]
    exact h.attributes
  · rw [hadded, hmanifest, hvariants]
    exact h.rendered

/-- A stream that is added has a new address, so those registered before keep
what they have. -/
theorem addAndStartContentStream {w : World D} {a : Announced D} (h : Tracks env service w a)
    {s : AnyStream D} (hs : s.content.AsConstructed) :
    Tracks env service (ServiceCall.step env service w (.addAndStartContentStream s))
      (a.step (.addAndStartContentStream s)) := by
  obtain ⟨s', hpath, hattributes, hstream, hnext, hp, hplaylist, hstreams, hmanifest⟩ :=
    ServiceCall.step_addAndStartContentStream env h.protocol hs
  rw [h.entries] at hattributes
  have hold : ∀ path address, (w.service service).contentStreams.find? path = some address →
      Function.update w.stream w.nextStream s' address = w.stream address := by
    intro path address hfind
    have hlt := (h.registered path address hfind).1
    exact Function.update_of_ne (by omega) _ _
  refine ⟨hp, ?_, ?_, ?_, fun _ => hmanifest⟩
  · rw [hplaylist]
    exact h.entries
  · intro path address hfind
    rw [hstreams, OrdMap.find?_set] at hfind
    rw [hstream, hnext]
    by_cases hk : path = s.content.playlistPath
    · rw [if_pos hk, Option.some.injEq] at hfind
      rw [← hfind, Function.update_self, hpath, hk]
      exact ⟨by omega, rfl⟩
    · rw [if_neg hk] at hfind
      obtain ⟨hlt, hpath'⟩ := h.registered path address hfind
      rw [hold path address hfind]
      exact ⟨by omega, hpath'⟩
  · rw [hstreams, hstream, Announced.step, OrdMap.map_set, OrdMap.map_set, Function.update_self, hattributes,
      ← h.attributes]
    refine congrArg (fun m : OrdMap Str _ => m.set _ _) (OrdMap.find?_ext (fun path => ?_))
    rw [OrdMap.find?_map, OrdMap.find?_map]
    refine Option.map_congr (fun address hfind => ?_)
    rw [hold path address hfind]

theorem step {w : World D} {a : Announced D} (h : Tracks env service w a) {call : ServiceCall D}
    (hcall : ∀ s, call = .addAndStartContentStream s → s.content.AsConstructed) :
    Tracks env service (ServiceCall.step env service w call) (a.step call) := by
  cases call with
  | readMasterManifest manifest basePath => exact h.readMasterManifest manifest basePath
  | addAndStartContentStream s => exact h.addAndStartContentStream (hcall s rfl)

theorem run {w : World D} (h : Tracks env service w {}) {calls : List (ServiceCall D)}
    (hcalls : ∀ s, .addAndStartContentStream s ∈ calls → s.content.AsConstructed) :
    Tracks env service (calls.foldl (ServiceCall.step env service) w) (Announced.run calls) := by
  induction calls using List.reverseRecOn with
  | nil => exact h
  | append_singleton calls call ih =>
    rw [List.foldl_append, Announced.run_concat]
    refine (ih (fun s hs => hcalls s (by simp [hs]))).step (fun s he => hcalls s (by simp [he]))

/-- The rendered list has an entry for every path, with what is kept for it. -/
theorem variants_eq {w : World D} {a : Announced D} (h : Tracks env service w a) :
    w.variants env service =
      a.added.entries.map fun e => attributedVariant env.indeterminate e.1 (entryAttributes e.2) := by
  have hentries := congrArg OrdMap.entries h.attributes
  have hmap := congrArg (List.map fun e => attributedVariant env.indeterminate e.1 e.2) hentries
  simp only [OrdMap.map, List.map_map] at hmap
  refine Eq.trans (List.map_congr_left (fun e he => ?_)) hmap
  have hpath := (h.registered e.1 e.2 (OrdMap.find?_eq_some.mpr he)).2
  rw [Service.variant_eq, hpath]
  rfl

/-- Every registered stream has the attributes of an entry exactly when one is
kept for every path. -/
theorem assigned_iff {w : World D} {a : Announced D} (h : Tracks env service w a) :
    (∀ e ∈ (w.service service).contentStreams.entries,
      (w.stream e.2).content.bandwidth ≠ none ∧ (w.stream e.2).content.frameRate ≠ none) ↔
    ∀ path entry, a.added.find? path = some entry → entry.isSome := by
  have hfind : ∀ path, ((w.service service).contentStreams.find? path).map
      (fun address => (w.stream address).content.attributes) = (a.added.find? path).map entryAttributes := by
    intro path
    rw [← OrdMap.find?_map, ← OrdMap.find?_map, h.attributes]
  constructor
  · intro hall path entry hentry
    have hf := hfind path
    rw [hentry, Option.map_some] at hf
    obtain ⟨address, haddress, hattributes⟩ := Option.map_eq_some_iff.mp hf
    have hbandwidth := (hall ⟨path, address⟩ (OrdMap.find?_eq_some.mp haddress)).1
    cases entry with
    | some e => rfl
    | none => exact absurd (congrArg (·.2.2.1) hattributes) hbandwidth
  · rintro hall ⟨path, address⟩ hm
    have hf := hfind path
    rw [OrdMap.find?_eq_some.mpr hm, Option.map_some] at hf
    obtain ⟨entry, hentry, hattributes⟩ := Option.map_eq_some_iff.mp hf.symm
    obtain ⟨e, rfl⟩ := Option.isSome_iff_exists.mp (hall path entry hentry)
    have hbandwidth : some e.bandwidth = (w.stream address).content.bandwidth := congrArg (·.2.2.1) hattributes
    have hframeRate : some e.frameRate = (w.stream address).content.frameRate := congrArg (·.2.2.2) hattributes
    rw [← hbandwidth, ← hframeRate]
    exact ⟨by simp, by simp⟩

end Tracks

structure NewHlsService {D : Type} (sv : Service D) : Prop where
  deliveryProtocol : sv.deliveryProtocol = .hls
  contentStreams : sv.contentStreams = .empty
  hlsPrimaryPlaylist : sv.hlsPrimaryPlaylist.streams = []

/-- The manifest of the service renders one entry for each of its streams, the
entries are those announced, and all their attributes were assigned. -/
structure Reflects {D : Type} [DoubleText D] (env : Environment D) (service : Nat) (w : World D)
    (a : Announced D) : Prop where
  rendered :
    (w.service service).manifest = ({ streams := w.variants env service } : HlsPrimaryPlaylist D).toString
  variants : w.variants env service = a.variants
  assigned : ∀ e ∈ (w.service service).contentStreams.entries,
    (w.stream e.2).content.bandwidth ≠ none ∧ (w.stream e.2).content.frameRate ≠ none

namespace ServiceCall

variable {D : Type} [DoubleText D] {env : Environment D} {service : Nat}

/-- The manifest reflects what is announced exactly when every stream that no
other has replaced was in the primary playlist as it was added. -/
theorem reflects_iff {w : World D} (hw : NewHlsService (w.service service)) {calls : List (ServiceCall D)}
    (hadd : ∃ s, .addAndStartContentStream s ∈ calls)
    (hcalls : ∀ s, .addAndStartContentStream s ∈ calls → s.content.AsConstructed) :
    Reflects env service (calls.foldl (step env service) w) (Announced.run calls) ↔
      ∀ pre s post, calls = pre ++ .addAndStartContentStream s :: post →
        (∀ s', .addAndStartContentStream s' ∈ post → s'.content.playlistPath ≠ s.content.playlistPath) →
        ∃ e ∈ (Announced.run pre).entries, e.uri = s.content.playlistPath := by
  have hstart : Tracks env service w {} := by
    refine ⟨hw.deliveryProtocol, hw.hlsPrimaryPlaylist, ?_, ?_, fun h => absurd rfl h⟩
    · simp [hw.contentStreams]
    · rw [hw.contentStreams]
      rfl
  have htracks := hstart.run hcalls
  have hkept : (∀ path entry, (Announced.run calls).added.find? path = some entry → entry.isSome) ↔
      ∀ pre s post, calls = pre ++ .addAndStartContentStream s :: post →
        (∀ s', .addAndStartContentStream s' ∈ post → s'.content.playlistPath ≠ s.content.playlistPath) →
        ∃ e ∈ (Announced.run pre).entries, e.uri = s.content.playlistPath := by
    constructor
    · intro h pre s post he hpost
      exact entryAt_isSome_iff.mp (h _ _ (Announced.find?_run_eq_some_iff.mpr ⟨pre, s, post, he, rfl, hpost, rfl⟩))
    · intro h path entry hentry
      obtain ⟨pre, s, post, he, rfl, hpost, rfl⟩ := Announced.find?_run_eq_some_iff.mp hentry
      exact entryAt_isSome_iff.mpr (h pre s post he hpost)
  rw [← hkept, ← htracks.assigned_iff]
  refine ⟨fun h => h.assigned, fun h => ⟨htracks.rendered ?_, ?_, h⟩⟩
  · obtain ⟨s, hs⟩ := hadd
    obtain ⟨entry, hentry⟩ := OrdMap.mem_keys.mp (Announced.mem_keys_run hs)
    exact List.ne_nil_of_mem (OrdMap.find?_eq_some.mp hentry)
  · have hall := htracks.assigned_iff.mp h
    rw [htracks.variants_eq, Announced.variants]
    refine List.map_congr_left (fun e he => ?_)
    obtain ⟨entry, hentry⟩ := Option.isSome_iff_exists.mp (hall e.1 e.2 (OrdMap.find?_eq_some.mpr he))
    rw [hentry]
    rfl

section Example

open ServiceAnnouncement (bareEnvironment)

/-- A playlist with one variant is read, and a stream with the path is added. -/
def readAndAdd (path : Str) : List (ServiceCall Int) :=
  [.readMasterManifest "#EXTM3U\n#EXT-X-STREAM-INF:BANDWIDTH=5000\nv.m3u8\n".toList "dir/".toList,
    .addAndStartContentStream (.basic { deliveryProtocol := .hls, base := [], playlistPath := path })]

theorem readAndAdd_asConstructed {path : Str} {s : AnyStream Int}
    (h : .addAndStartContentStream s ∈ readAndAdd path) : s.content.AsConstructed := by
  simp only [readAndAdd, List.mem_cons, reduceCtorEq, List.not_mem_nil, or_false, false_or,
    addAndStartContentStream.injEq] at h
  rw [h]
  exact ⟨rfl, rfl, rfl, rfl, rfl⟩

theorem newHlsService_initial : NewHlsService ((World.initial bareEnvironment).service 0) := ⟨rfl, rfl, rfl⟩

/-- A query behind the path keeps the stream from being matched: its bandwidth
is rendered without having been assigned. -/
theorem query_in_path_unassigned :
    NewHlsService ((World.initial bareEnvironment).service 0) ∧
    (∀ s, .addAndStartContentStream s ∈ readAndAdd "dir/v.m3u8?a=1".toList → s.content.AsConstructed) ∧
    ¬ Reflects bareEnvironment 0
      ((readAndAdd "dir/v.m3u8?a=1".toList).foldl (step bareEnvironment 0) (World.initial bareEnvironment))
      (Announced.run (readAndAdd "dir/v.m3u8?a=1".toList)) := by
  refine ⟨newHlsService_initial, fun s hs => readAndAdd_asConstructed hs, fun h => ?_⟩
  have hrun : (((readAndAdd "dir/v.m3u8?a=1".toList).foldl (step bareEnvironment 0)
      (World.initial bareEnvironment)).service 0).contentStreams.entries = [⟨"dir/v.m3u8?a=1".toList, 0⟩] ∧
      (((readAndAdd "dir/v.m3u8?a=1".toList).foldl (step bareEnvironment 0)
        (World.initial bareEnvironment)).stream 0).content.bandwidth = none := by
    decide +kernel
  have hm := List.mem_cons_self (a := (⟨"dir/v.m3u8?a=1".toList, 0⟩ : (_ : Str) × Nat)) (l := [])
  rw [← hrun.1] at hm
  exact (h.assigned _ hm).1 hrun.2

theorem plain_path_reflected :
    (readAndAdd "dir/v.m3u8".toList).length = 2 ∧
    (Reflects bareEnvironment 0
      ((readAndAdd "dir/v.m3u8".toList).foldl (step bareEnvironment 0) (World.initial bareEnvironment))
      (Announced.run (readAndAdd "dir/v.m3u8".toList)) ↔
      ∀ pre s post, readAndAdd "dir/v.m3u8".toList = pre ++ .addAndStartContentStream s :: post →
        (∀ s', .addAndStartContentStream s' ∈ post → s'.content.playlistPath ≠ s.content.playlistPath) →
        ∃ e ∈ (Announced.run pre).entries, e.uri = s.content.playlistPath) :=
  ⟨rfl, reflects_iff newHlsService_initial ⟨_, List.mem_cons_of_mem _ List.mem_cons_self⟩
    (fun _ hs => readAndAdd_asConstructed hs)⟩

end Example

end ServiceCall

end MbmsMiddleware
