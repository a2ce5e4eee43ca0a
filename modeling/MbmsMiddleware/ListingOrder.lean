import MbmsMiddleware.ListedSegments
import MbmsMiddleware.SegmentLives

/-! What windows show, in every run. It depends on what was reached in the
playlists, and not on the order in which broadcast and CDN bring them, as long as
they agree on what they list. -/

namespace MbmsMiddleware

variable {D : Type} [DoubleText D]

namespace System

variable {env : SystemEnvironment D} {cfg : SystemConfig}

theorem shows_seamless {es : List (SystemEvent D)} {a : Nat} {s : PlainStream D}
    (h : (es.foldl (step env cfg) (start env cfg)).world.viewAt a = some (.seamless s)) :
    s.keepCount = cfg.toConfig.keepCount ∧
      s.Shows (Runs.trace (step env cfg) (reached a) (start env cfg) es) := by
  have hshows := shows_run env cfg a es
  rw [h] at hshows
  obtain ⟨hkeep, hshows⟩ := hshows
  refine ⟨?_, hshows⟩
  rw [PlainStream.keepCount, hkeep]
  rfl

theorem lists_seamless [LawfulDoubleText D] (hrest : SeamlessContentStream.LawfulCppRest env.rest)
    {es : List (SystemEvent D)} {a : Nat} {s : PlainStream D}
    (h : (es.foldl (step env cfg) (start env cfg)).world.viewAt a = some (.seamless s)) :
    s.window = .empty ∨ PlaylistText.Lists s.playlist (s.window.entries.map (·.2)) :=
  (shows_seamless h).2.lists (prints_run env cfg hrest a es).1

/-- The window of a seamless stream has the newest of the numbers that were reached in
its own playlists, each as it came first, and the text that the stream serves lists the
window. -/
theorem window_shows [LawfulDoubleText D] (hrest : SeamlessContentStream.LawfulCppRest env.rest)
    {es : List (SystemEvent D)} {a : Nat} {s : PlainStream D}
    (h : (es.foldl (step env cfg) (start env cfg)).world.viewAt a = some (.seamless s)) :
    let hist := (Runs.trace (step env cfg) (reached a) (start env cfg) es).map
      HlsMediaPlaylist.Segment.numbered
    (∀ k, s.window.find? k =
      if k ∈ largest cfg.toConfig.keepCount (OrdMap.keySet hist) then OrdMap.firstAt hist k
      else none) ∧
    (s.window = .empty ∨ PlaylistText.Lists s.playlist (s.window.entries.map (·.2))) := by
  obtain ⟨hkeep, hshows⟩ := shows_seamless h
  have hwindow := hshows.window
  rw [hkeep] at hwindow
  exact ⟨hwindow, lists_seamless hrest h⟩

/-- Streams in whose playlists the same was reached, each number in one way, show the
same window, and the texts that they serve list it. -/
theorem listing_order [LawfulDoubleText D] (hrest : SeamlessContentStream.LawfulCppRest env.rest)
    {es es' : List (SystemEvent D)} {a a' : Nat} {s s' : PlainStream D}
    (h : (es.foldl (step env cfg) (start env cfg)).world.viewAt a = some (.seamless s))
    (h' : (es'.foldl (step env cfg) (start env cfg)).world.viewAt a' = some (.seamless s'))
    (hsame : ∀ x, x ∈ Runs.trace (step env cfg) (reached a) (start env cfg) es ↔
      x ∈ Runs.trace (step env cfg) (reached a') (start env cfg) es')
    (hone : ∀ x ∈ Runs.trace (step env cfg) (reached a) (start env cfg) es,
      ∀ y ∈ Runs.trace (step env cfg) (reached a) (start env cfg) es, x.seq = y.seq → x = y) :
    s.window = s'.window ∧
      (s.window = .empty ∨ PlaylistText.Lists s.playlist (s.window.entries.map (·.2)) ∧
        PlaylistText.Lists s'.playlist (s.window.entries.map (·.2))) := by
  obtain ⟨hkeep, hshows⟩ := shows_seamless h
  obtain ⟨hkeep', hshows'⟩ := shows_seamless h'
  have hwindow := hshows.window
  have hwindow' := hshows'.window
  rw [hkeep] at hwindow
  rw [hkeep'] at hwindow'
  have hconsistent : OrdMap.Consistent
      ((Runs.trace (step env cfg) (reached a) (start env cfg) es).map
        HlsMediaPlaylist.Segment.numbered) := by
    intro x hx y hy hseq
    obtain ⟨x', hx', rfl⟩ := List.mem_map.mp hx
    obtain ⟨y', hy', rfl⟩ := List.mem_map.mp hy
    rw [hone x' hx' y' hy' hseq]
  have heq : s.window = s'.window := by
    refine OrdMap.Recent.unique hconsistent (fun x => ?_) hwindow hwindow'
    rw [List.mem_map, List.mem_map]
    exact exists_congr fun y => and_congr_left fun _ => hsame y
  refine ⟨heq, ?_⟩
  rcases lists_seamless hrest h with hempty | hlists
  · exact .inl hempty
  · rcases lists_seamless hrest h' with hempty' | hlists'
    · exact .inl (heq.trans hempty')
    · exact .inr ⟨hlists, heq ▸ hlists'⟩

section Example

/-- `broadcastSystem` with a `web::uri` that takes a single line. -/
def singleLineSystem : SystemEnvironment Int :=
  { broadcastSystem with
    rest := { uri s := if '\n' ∈ s then none else some ⟨s, [], s⟩, httpClient _ := true } }

theorem lawful_singleLineSystem : SeamlessContentStream.LawfulCppRest singleLineSystem.rest := by
  refine ⟨fun text uri h => ?_⟩
  by_cases hnewline : '\n' ∈ text
  · simp [singleLineSystem, hnewline] at h
  · simp only [singleLineSystem, hnewline, if_false, Option.some.injEq] at h
    rw [← h]
    exact ⟨hnewline, List.not_mem_nil⟩

def afterPlaylists (numbers : List String) : System Int :=
  (numbers.map playlistEvent).foldl (step singleLineSystem narrowService)
    (start singleLineSystem narrowService)

def reachedByPlaylists (numbers : List String) : List (HlsMediaPlaylist.Segment Int) :=
  Runs.trace (step singleLineSystem narrowService) (reached 0) (start singleLineSystem narrowService)
    (numbers.map playlistEvent)

theorem seamless_afterPlaylists (numbers : List String)
    (h : 0 < (afterPlaylists numbers).world.nextStream ∧
      ((afterPlaylists numbers).world.stream 0).asSeamless?.isSome = true) :
    ∃ s, (afterPlaylists numbers).world.viewAt 0 = some (.seamless s) := by
  cases hs : (afterPlaylists numbers).world.stream 0 with
  | basic s =>
    rw [hs] at h
    cases h.2
  | seamless s => exact ⟨_, World.viewAt_of_stream ⟨h.1, hs⟩⟩

theorem seamless_afterNewer :
    ∃ s, (afterPlaylists ["1", "2"]).world.viewAt 0 = some (.seamless s) :=
  seamless_afterPlaylists _ (by decide +kernel)

theorem window_shows_newest :
    ∃ s, (afterPlaylists ["1", "2"]).world.viewAt 0 = some (.seamless s) ∧
      let hist := (reachedByPlaylists ["1", "2"]).map HlsMediaPlaylist.Segment.numbered
      (∀ k, s.window.find? k =
        if k ∈ largest narrowService.toConfig.keepCount (OrdMap.keySet hist) then
          OrdMap.firstAt hist k
        else none) ∧
      (s.window = .empty ∨ PlaylistText.Lists s.playlist (s.window.entries.map (·.2))) := by
  obtain ⟨s, hs⟩ := seamless_afterNewer
  exact ⟨s, hs, window_shows lawful_singleLineSystem hs⟩

theorem listing_order_repeated :
    ∃ s s', (afterPlaylists ["1", "2"]).world.viewAt 0 = some (.seamless s) ∧
      (afterPlaylists ["2", "1", "1"]).world.viewAt 0 = some (.seamless s') ∧
      s.window = s'.window ∧
        (s.window = .empty ∨ PlaylistText.Lists s.playlist (s.window.entries.map (·.2)) ∧
          PlaylistText.Lists s'.playlist (s.window.entries.map (·.2))) := by
  have hreached : reachedByPlaylists ["1", "2"] = [⟨"a.ts".toList, 1, -1⟩, ⟨"a.ts".toList, 2, -1⟩] := by
    decide +kernel
  have hreached' : reachedByPlaylists ["2", "1", "1"] =
      [⟨"a.ts".toList, 2, -1⟩, ⟨"a.ts".toList, 1, -1⟩, ⟨"a.ts".toList, 1, -1⟩] := by
    decide +kernel
  obtain ⟨s, hs⟩ := seamless_afterNewer
  obtain ⟨s', hs'⟩ := seamless_afterPlaylists ["2", "1", "1"] (by decide +kernel)
  refine ⟨s, s', hs, hs', listing_order lawful_singleLineSystem hs hs' (fun x => ?_) ?_⟩
  · change x ∈ reachedByPlaylists _ ↔ x ∈ reachedByPlaylists _
    rw [hreached, hreached']
    simp [or_comm]
  · change ∀ x ∈ reachedByPlaylists _, ∀ y ∈ reachedByPlaylists _, _
    rw [hreached]
    decide

end Example

end System

end MbmsMiddleware
