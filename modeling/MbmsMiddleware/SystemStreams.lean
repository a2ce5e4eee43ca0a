import MbmsMiddleware.ListedWindow
import MbmsMiddleware.StreamViews
import MbmsMiddleware.SystemRuns

/-! Streams in runs of the middleware. What a stream shows depends on what has
reached this stream and on nothing else, and its window on what was reached in
its own playlists. -/

namespace MbmsMiddleware

variable {D : Type} [DoubleText D]

def StreamMove.reception? : StreamMove D → Option (Int × Reception)
  | .reception indeterminate r => some (indeterminate, r)
  | _ => none

/-- A stream is made by the announcement. -/
def StreamMove.Announced (cfg : Config) : StreamMove D → Prop
  | .made s => ServiceAnnouncement.Fresh cfg s
  | _ => True

namespace StreamAlone

def reached (x : Int × Reception) : Option (StreamAlone D) → List (HlsMediaPlaylist.Segment D)
  | some (.seamless s) => s.reached x.1 x.2
  | _ => []

def Shows (cfg : Config) (hist : List (HlsMediaPlaylist.Segment D)) :
    Option (StreamAlone D) → Prop
  | some (.seamless s) => s.segmentsToKeep = cfg.maxSegmentsPerStream.getD 10 ∧ s.Shows hist
  | _ => hist = []

variable {cfg : Config} {hist : List (HlsMediaPlaylist.Segment D)} {v : Option (StreamAlone D)}

theorem shows_made {s : AnyStream D} (h : ServiceAnnouncement.Fresh cfg s) :
    Shows cfg [] (some s.madeView) := by
  cases s with
  | basic s => rfl
  | seamless s =>
    change s = _ at h
    refine ⟨?_, PlainStream.shows_nil rfl⟩
    rw [h]
    rfl

theorem Shows.reception (h : Shows cfg hist v) (rest : CppRest) (x : Int × Reception) :
    Shows cfg (hist ++ reached x v) (StreamAlone.move rest v (.reception x.1 x.2)) := by
  cases v with
  | none => exact (List.append_nil hist).trans h
  | some v =>
    cases v with
    | basic s => exact (List.append_nil hist).trans h
    | seamless s =>
      refine ⟨?_, h.2.receive x.1 x.2⟩
      rw [PlainStream.receive_frame]
      exact h.1

theorem Shows.move (h : Shows cfg hist v) (rest : CppRest) {m : StreamMove D}
    (hm : m.reception? = none) (hmade : m.Announced cfg) :
    Shows cfg hist (StreamAlone.move rest v m) := by
  cases v with
  | none =>
    change hist = [] at h
    subst h
    cases m with
    | made s => exact shows_made hmade
    | _ => rfl
  | some v =>
    cases v with
    | basic s => cases m <;> exact h
    | seamless s =>
      obtain ⟨hkeep, h⟩ := h
      cases m with
      | reception => cases hm
      | made => exact ⟨hkeep, h⟩
      | content => exact ⟨hkeep, h.congr rfl rfl rfl⟩
      | endpoint url =>
        refine ⟨?_, h.setCdnEndpoint rest url⟩
        rw [← hkeep]
        unfold PlainStream.setCdnEndpoint
        split <;> rfl
      | download number now file =>
        refine ⟨?_, h.cdnFileReceived number now file⟩
        rw [← hkeep]
        unfold PlainStream.cdnFileReceived
        split <;> rfl

/-- All that has been reached can be printed, and so will be what is to come. -/
def Prints (hist : List (HlsMediaPlaylist.Segment D)) (v : Option (StreamAlone D)) : Prop :=
  (∀ x ∈ hist, x.Printable) ∧ match v with
    | some (.seamless s) => '\n' ∉ s.playlistDir
    | _ => True

omit [DoubleText D] in
theorem prints_made {s : AnyStream D} (h : ServiceAnnouncement.Fresh cfg s)
    (hprint : ∀ x ∈ hist, x.Printable) : Prints hist (some s.madeView) := by
  cases s with
  | basic s => exact ⟨hprint, trivial⟩
  | seamless s =>
    change s = _ at h
    refine ⟨hprint, ?_⟩
    rw [h]
    exact List.not_mem_nil

theorem Prints.reception (h : Prints hist v) (rest : CppRest) (x : Int × Reception) :
    Prints (hist ++ reached x v) (StreamAlone.move rest v (.reception x.1 x.2)) := by
  cases v with
  | none => exact (List.append_nil hist).symm ▸ h
  | some v =>
    cases v with
    | basic s => exact (List.append_nil hist).symm ▸ h
    | seamless s =>
      refine ⟨fun y hy => ?_, ?_⟩
      · rcases List.mem_append.mp hy with hy | hy
        · exact h.1 y hy
        · exact PlainStream.printable_of_reached h.2 hy
      · change '\n' ∉ (s.receive x.1 x.2).playlistDir
        rw [PlainStream.receive_frame]
        exact h.2

theorem Prints.move (h : Prints hist v) {rest : CppRest}
    (hrest : SeamlessContentStream.LawfulCppRest rest) {m : StreamMove D} (hm : m.reception? = none)
    (hmade : m.Announced cfg) : Prints hist (StreamAlone.move rest v m) := by
  cases v with
  | none =>
    cases m with
    | made s => exact prints_made hmade h.1
    | _ => exact h
  | some v =>
    cases v with
    | basic s => cases m <;> exact h
    | seamless s =>
      cases m with
      | reception => cases hm
      | made | content => exact h
      | endpoint url =>
        refine ⟨h.1, ?_⟩
        change '\n' ∉ (s.setCdnEndpoint rest url).playlistDir
        unfold PlainStream.setCdnEndpoint
        cases huri : rest.uri url with
        | none => exact h.2
        | some uri =>
          exact fun hmem => SeamlessContentStream.newline_notMem_pathOfUri hrest huri
            ((List.rdropWhile_prefix (· ≠ '/') _).subset hmem)
      | download number now file =>
        refine ⟨h.1, ?_⟩
        change '\n' ∉ (s.cdnFileReceived number now file).playlistDir
        unfold PlainStream.cdnFileReceived
        split <;> exact h.2

end StreamAlone

namespace System

variable (env : SystemEnvironment D) (cfg : SystemConfig)

/-- What a step brings to the stream at an address. -/
def moves (address : Nat) (s : System D) (e : SystemEvent D) : List (StreamMove D) :=
  (s.changes env cfg e).flatMap (s.world.moves address)

/-- What a step receives for the stream at an address. -/
def receptions (address : Nat) (s : System D) : SystemEvent D → List (Int × Reception)
  | .reception a indeterminate r =>
    if s.running ∧ a = address ∧ a < s.world.nextStream then [(indeterminate, r)] else []
  | _ => []

/-- What a step makes the insertion loop of the stream at an address reach. -/
def reached (address : Nat) (s : System D) (e : SystemEvent D) : List (HlsMediaPlaylist.Segment D) :=
  (s.receptions address e).flatMap fun x => StreamAlone.reached x (s.world.viewAt address)

variable {env cfg} {s : System D} {address : Nat}

variable (env cfg) in
theorem moves_eq (address : Nat) (s : System D) (e : SystemEvent D) :
    s.moves env cfg address e = [] ∧ (s.step env cfg e).world = s.world ∨
    ∃ c, s.changes env cfg e = [c] ∧ s.moves env cfg address e = s.world.moves address c ∧
      (s.step env cfg e).world = s.world.change env.toEnvironment c := by
  unfold moves
  rw [step_world]
  rcases s.changes_cases env cfg e with hnone | ⟨c, hc⟩
  · rw [hnone]
    exact .inl ⟨rfl, rfl⟩
  · rw [hc]
    exact .inr ⟨c, rfl, List.flatMap_singleton .., rfl⟩

theorem Sound.viewAt_step (h : s.Sound env cfg) (e : SystemEvent D) :
    (s.step env cfg e).world.viewAt address =
      (s.moves env cfg address e).foldl (StreamAlone.move env.rest) (s.world.viewAt address) := by
  rcases moves_eq env cfg address s e with ⟨hmoves, hworld⟩ | ⟨c, hc, hmoves, hworld⟩
  · rw [hmoves, hworld]
    rfl
  · rw [hmoves, hworld]
    exact World.viewAt_change h.world.separate (h.permitted e c (by rw [hc]; exact List.mem_cons_self))

omit [DoubleText D] in
theorem mem_moves_cases (cfg : Config) {w : World D} {c : WorldChange D} {m : StreamMove D}
    (h : m ∈ w.moves address c) :
    (∃ s, m = .made s ∧ c = .call (.newStream s)) ∨
    (∃ a indeterminate r, m = .reception indeterminate r ∧ c = .reception a indeterminate r) ∨
    (m.reception? = none ∧ m.Announced cfg) := by
  have hite : ∀ (p : Prop) [Decidable p] (x : StreamMove D), (m ∈ if p then [x] else []) → m = x := by
    intro p _ x hm
    split_ifs at hm
    · exact List.mem_singleton.mp hm
    · cases hm
  cases c with
  | reception a indeterminate r => exact .inr (.inl ⟨a, indeterminate, r, hite _ _ h, rfl⟩)
  | download x now file =>
    change m ∈ ((w.numberOf address x).map fun number =>
      StreamMove.download number now file).toList at h
    obtain ⟨k, -, rfl⟩ := Option.map_eq_some_iff.mp (Option.mem_toList.mp h)
    exact .inr (.inr ⟨rfl, trivial⟩)
  | items | cacheCheck => cases h
  | call op =>
    cases op with
    | newStream s => exact .inl ⟨s, hite _ _ h, rfl⟩
    | setCdnEndpoint b url =>
      rw [hite _ _ h]
      exact .inr (.inr ⟨rfl, trivial⟩)
    | addAndStartContentStream service b =>
      rw [hite _ _ h]
      exact .inr (.inr ⟨rfl, trivial⟩)
    | _ => cases h

theorem changes_of_reception {e : SystemEvent D} {a : Nat} {indeterminate : Int} {r : Reception}
    (h : s.changes env cfg e = [.reception a indeterminate r]) :
    e = .reception a indeterminate r ∧ s.running = true ∧ a < s.world.nextStream := by
  unfold changes at h
  split_ifs at h with hrunning
  cases e with
  | announcement file =>
    dsimp only at h
    cases hfile : s.announced env file <;> rw [hfile] at h <;> cases h
  | handler =>
    dsimp only at h
    unfold Session.nextCall at h
    split at h <;> cases h
  | reception b i r' =>
    dsimp only at h
    split_ifs at h with hb
    cases h
    exact ⟨rfl, hrunning.1, hb⟩
  | download x now file =>
    dsimp only at h
    split_ifs at h
    cases h
  | tick mchs clock =>
    dsimp only at h
    split at h <;> cases h
  | request | call => cases h

/-- A step brings a stream one reception of its own, or none and whatever else. -/
theorem Sound.moves_cases (h : s.Sound env cfg) (address : Nat) (e : SystemEvent D) :
    (∃ x, s.receptions address e = [x] ∧ s.moves env cfg address e = [.reception x.1 x.2]) ∨
    (s.receptions address e = [] ∧
      ∀ m ∈ s.moves env cfg address e, m.reception? = none ∧ m.Announced cfg.toConfig) := by
  have hother : (∀ a indeterminate r, s.changes env cfg e ≠ [.reception a indeterminate r]) →
      ∀ m ∈ s.moves env cfg address e, m.reception? = none ∧ m.Announced cfg.toConfig := by
    intro hchanges m hm
    obtain ⟨c, hc, hm⟩ := List.mem_flatMap.mp hm
    have hsingle : s.changes env cfg e = [c] := by
      rcases s.changes_cases env cfg e with hnone | ⟨c', hc'⟩
      · rw [hnone] at hc
        cases hc
      · rw [hc'] at hc ⊢
        rw [List.mem_singleton.mp hc]
    rcases mem_moves_cases cfg.toConfig hm with ⟨t, rfl, rfl⟩ | ⟨a, indeterminate, r, -, rfl⟩ | hm
    · exact ⟨rfl, h.permitted e _ hc⟩
    · exact absurd hsingle (hchanges a indeterminate r)
    · exact hm
  cases e with
  | reception a indeterminate r =>
    by_cases ha : s.running = true ∧ a = address ∧ a < s.world.nextStream
    · refine .inl ⟨(indeterminate, r), if_pos ha, ?_⟩
      have hchanges : s.changes env cfg (.reception a indeterminate r) =
          [.reception a indeterminate r] := by
        unfold changes
        rw [if_pos ⟨ha.1, trivial⟩]
        exact if_pos ha.2.2
      unfold moves
      rw [hchanges, List.flatMap_singleton]
      exact if_pos ha.2.1
    · refine .inr ⟨if_neg ha, fun m hm => ?_⟩
      obtain ⟨c, hc, hm⟩ := List.mem_flatMap.mp hm
      unfold changes at hc
      split_ifs at hc with hrunning
      · dsimp only at hc
        split_ifs at hc with hlt
        · obtain rfl := List.mem_singleton.mp hc
          change m ∈ if a = address then [StreamMove.reception indeterminate r] else [] at hm
          rw [if_neg fun haddress => ha ⟨hrunning.1, haddress, hlt⟩] at hm
          cases hm
        · cases hc
      · cases hc
  | announcement | handler | download | tick | request | call =>
    refine .inr ⟨rfl, hother fun a indeterminate r hc => ?_⟩
    cases (changes_of_reception hc).1

theorem Sound.receptions_moves (h : s.Sound env cfg) (address : Nat) (e : SystemEvent D) :
    (s.moves env cfg address e).filterMap StreamMove.reception? = s.receptions address e := by
  rcases h.moves_cases address e with ⟨x, hx, hmoves⟩ | ⟨hnone, hmoves⟩
  · rw [hx, hmoves]
    rfl
  · rw [hnone, List.filterMap_eq_nil_iff]
    exact fun m hm => (hmoves m hm).1

/-- A law of streams: what holds of a stream that has not been made, and is kept by
its receptions and by other moves, holds of it in every run. -/
theorem stream_law {κ : Type*} {P : List κ → Option (StreamAlone D) → Prop}
    {label : Int × Reception → Option (StreamAlone D) → List κ} (h0 : P [] none)
    (hreception : ∀ hist v x, P hist v →
      P (hist ++ label x v) (StreamAlone.move env.rest v (.reception x.1 x.2)))
    (hmove : ∀ hist v m, m.reception? = none → m.Announced cfg.toConfig → P hist v →
      P hist (StreamAlone.move env.rest v m))
    (address : Nat) (es : List (SystemEvent D)) :
    P (Runs.trace (step env cfg)
        (fun s e => (s.receptions address e).flatMap (label · (s.world.viewAt address)))
        (start env cfg) es)
      ((es.foldl (step env cfg) (start env cfg)).world.viewAt address) := by
  have hmoves : ∀ hist v (ms : List (StreamMove D)),
      (∀ m ∈ ms, m.reception? = none ∧ m.Announced cfg.toConfig) → P hist v →
      P hist (ms.foldl (StreamAlone.move env.rest) v) := by
    intro hist v ms hms hv
    exact Runs.foldl_invariant_of_mem (I := P hist)
      (fun v m hm hv => hmove hist v m (hms m hm).1 (hms m hm).2 hv) hv
  have hstep : ∀ hist (s : System D) e, s.Sound env cfg → P hist (s.world.viewAt address) →
      P (hist ++ (s.receptions address e).flatMap (label · (s.world.viewAt address)))
        ((s.step env cfg e).world.viewAt address) := by
    intro hist s e hs hv
    rw [hs.viewAt_step]
    rcases hs.moves_cases address e with ⟨x, hx, hxmoves⟩ | ⟨hnone, hother⟩
    · rw [hx, hxmoves, List.flatMap_singleton]
      exact hreception hist _ x hv
    · rw [hnone, List.flatMap_nil, List.append_nil]
      exact hmoves hist _ _ hother hv
  -- reading an announcement brings no receptions
  have hannounced : ∀ (w : World D) (c : WorldChange D),
      World.Reachable env.toEnvironment cfg.toConfig w ∧ P [] (w.viewAt address) →
      w.Permitted env.toEnvironment cfg.toConfig c →
      (∀ a indeterminate r, c ≠ .reception a indeterminate r) →
      World.Reachable env.toEnvironment cfg.toConfig (w.change env.toEnvironment c) ∧
        P [] ((w.change env.toEnvironment c).viewAt address) := by
    rintro w c ⟨hw, hv⟩ hc hreception'
    refine ⟨hw.change hc, ?_⟩
    rw [World.viewAt_change hw.separate hc]
    refine hmoves [] _ _ (fun m hm => ?_) hv
    rcases mem_moves_cases cfg.toConfig hm with ⟨t, rfl, rfl⟩ | ⟨a, indeterminate, r, -, rfl⟩ | hm
    · exact ⟨rfl, hc⟩
    · exact absurd rfl (hreception' a indeterminate r)
    · exact hm
  have hstart : P [] ((start env cfg : System D).world.viewAt address) :=
    (start_invariant (I := fun w : World D =>
      World.Reachable env.toEnvironment cfg.toConfig w ∧ P [] (w.viewAt address)) ⟨.initial, h0⟩
      (fun w items hw hc => hannounced w (.items items) hw hc (by simp))
      fun w op hw hc => hannounced w (.call op) hw hc (by simp)).2
  have hrun := Runs.trace_invariant (I := Sound env cfg)
    (P := fun hist s => P hist (s.world.viewAt address)) (fun _ e h => h.step e)
    (fun hist s e hs hv => hstep hist s e hs hv) sound_start hstart es
  rwa [List.nil_append] at hrun

variable (env cfg)

/-- Whatever the other streams do, a stream is what its own moves make of it, and
the receptions among them are those addressed to it. -/
theorem streams_apart (address : Nat) (es : List (SystemEvent D)) :
    let moves := Runs.trace (step env cfg) (moves env cfg address) (start env cfg) es
    (es.foldl (step env cfg) (start env cfg)).world.viewAt address =
      moves.foldl (StreamAlone.move env.rest) ((start env cfg).world.viewAt address) ∧
    moves.filterMap StreamMove.reception? =
      Runs.trace (step env cfg) (receptions address) (start env cfg) es := by
  intro moves
  constructor
  · exact Runs.view_foldl (fun s : System D => s.world.viewAt address) (I := Sound env cfg)
      (fun _ e h => h.step e) (fun _ e h => h.viewAt_step e) sound_start es
  · exact Runs.filterMap_trace (I := Sound env cfg) (fun _ e h => h.step e)
      (fun _ e h => h.receptions_moves address e) sound_start es

/-- In every run the window of a stream shows what was reached in its own playlists. -/
theorem shows_run (address : Nat) (es : List (SystemEvent D)) :
    StreamAlone.Shows cfg.toConfig
      (Runs.trace (step env cfg) (reached address) (start env cfg) es)
      ((es.foldl (step env cfg) (start env cfg)).world.viewAt address) :=
  stream_law (P := StreamAlone.Shows cfg.toConfig) rfl (fun _ _ x h => h.reception env.rest x)
    (fun _ _ _ hm hmade h => h.move env.rest hm hmade) address es

theorem prints_run (hrest : SeamlessContentStream.LawfulCppRest env.rest) (address : Nat)
    (es : List (SystemEvent D)) :
    StreamAlone.Prints
      (Runs.trace (step env cfg) (reached address) (start env cfg) es)
      ((es.foldl (step env cfg) (start env cfg)).world.viewAt address) :=
  stream_law (P := StreamAlone.Prints) ⟨by simp, trivial⟩ (fun _ _ x h => h.reception env.rest x)
    (fun _ _ _ hm hmade h => h.move hrest hm hmade) address es

end System

end MbmsMiddleware
