import MbmsMiddleware.Basic
import MbmsMiddleware.Runs

/-! Media playlists: the parser, the printer, and what the parser makes of a
printed playlist. -/

namespace MbmsMiddleware

structure HlsMediaPlaylist.Segment (D : Type) where
  uri : Str
  seq : Int
  extinf : D
  deriving DecidableEq, Repr

structure HlsMediaPlaylist (D : Type) where
  version : Int := -1
  targetduration : Int
  segments : List (HlsMediaPlaylist.Segment D) := []
  deriving DecidableEq, Repr

namespace HlsMediaPlaylist

variable {D : Type} [DoubleText D]

/-- The local variables of the parsing loop next to the playlist read so far. -/
structure Parser (D : Type) where
  playlist : HlsMediaPlaylist D
  seqNr : Int := 0
  extinf : D

def Parser.start (indeterminate : Int) : Parser D where
  playlist := { targetduration := indeterminate }
  extinf := DoubleText.ofInt (-1)

def extm3u : Str := "#EXTM3U".toList
def extXVersion : Str := "#EXT-X-VERSION".toList
def extXTargetduration : Str := "#EXT-X-TARGETDURATION".toList
def extXMediaSequence : Str := "#EXT-X-MEDIA-SEQUENCE".toList
def extinfTag : Str := "#EXTINF".toList

/-- One trimmed line after the first. -/
def parseLine (p : Parser D) (line : Str) : Except Fault (Parser D) :=
  let value := Text.afterLast ':' line
  if Text.startsWith extXVersion line then
    if p.playlist.version ≠ -1 then
      throw (.cString "HLS playlist parsing failed: duplicate #EXT-X-VERSION".toList)
    else match value with
      | some v => pure { p with playlist.version := Text.atoi v }
      | none => pure p
  else if Text.startsWith extXTargetduration line then
    match value with
    | some v => pure { p with playlist.targetduration := Text.atoi v }
    | none => pure p
  else if Text.startsWith extXMediaSequence line then
    match value with
    | some v => pure { p with seqNr := Text.atoi v }
    | none => pure p
  else if Text.startsWith extinfTag line then
    match value with
    | some v => pure { p with extinf := DoubleText.atof v }
    | none => pure p
  else if Text.startsWith ['#'] line then pure p
  else if line.length > 0 then
    pure { p with
      playlist.segments := p.playlist.segments ++ [⟨line, p.seqNr, p.extinf⟩]
      seqNr := Text.toInt32 (p.seqNr + 1) }
  else pure p

/-- The constructor from text. `_targetduration` is not initialized: it is
`indeterminate` until a tag sets it. -/
def parse (indeterminate : Int) (content : Str) : Except Fault (HlsMediaPlaylist D) :=
  match Text.getlines content with
  | [] => pure { targetduration := indeterminate }
  | first :: rest =>
    if Text.trim first ≠ extm3u then
      throw (.cString "HLS playlist parsing failed: first line is not #EXTM3U".toList)
    else do
      let p ← (rest.map Text.trim).foldlM parseLine (Parser.start indeterminate)
      pure p.playlist

/-- The lines written for one segment. -/
def segmentLines (seg : Segment D) : List Str :=
  [extinfTag ++ ':' :: DoubleText.put seg.extinf, '/' :: seg.uri]

def lines (pl : HlsMediaPlaylist D) : List Str :=
  [extm3u, extXVersion ++ [':', '3']] ++
  (match pl.segments with
    | [] => []
    | seg :: _ =>
      [extXTargetduration ++ ':' :: Text.showInt pl.targetduration,
       extXMediaSequence ++ ':' :: Text.showInt seg.seq]) ++
  pl.segments.flatMap segmentLines

def toString (pl : HlsMediaPlaylist D) : Str := Text.unlines pl.lines

/-- What the parser sees of printed segments: the numbers are counted on from
the first one. -/
def renumber : Int → List (Segment D) → List (Segment D)
  | _, [] => []
  | n, seg :: segs =>
    ⟨'/' :: seg.uri, n, DoubleText.atof (DoubleText.put seg.extinf)⟩ ::
      renumber (Text.toInt32 (n + 1)) segs

theorem parseLine_cases {p p' : Parser D} {line : Str} (h : parseLine p line = .ok p') :
    (p'.playlist.segments = p.playlist.segments ∧
      (p'.seqNr = p.seqNr ∨ ∃ v, p'.seqNr = Text.atoi v)) ∨
    (line ≠ [] ∧
      p'.playlist.segments = p.playlist.segments ++ [⟨line, p.seqNr, p.extinf⟩] ∧
      p'.seqNr = Text.toInt32 (p.seqNr + 1)) := by
  unfold parseLine at h
  dsimp only at h
  split_ifs at h with h1 h2 h3 h4 h5 h6 h7
  · cases hv : Text.afterLast ':' line <;> rw [hv] at h <;> cases h <;> exact .inl ⟨rfl, .inl rfl⟩
  · cases hv : Text.afterLast ':' line <;> rw [hv] at h <;> cases h <;> exact .inl ⟨rfl, .inl rfl⟩
  · cases hv : Text.afterLast ':' line <;> rw [hv] at h <;> cases h
    · exact .inl ⟨rfl, .inl rfl⟩
    · exact .inl ⟨rfl, .inr ⟨_, rfl⟩⟩
  · cases hv : Text.afterLast ':' line <;> rw [hv] at h <;> cases h <;> exact .inl ⟨rfl, .inl rfl⟩
  · cases h
    exact .inl ⟨rfl, .inl rfl⟩
  · cases h
    exact .inr ⟨List.ne_nil_of_length_pos h7, rfl, rfl⟩
  · cases h
    exact .inl ⟨rfl, .inl rfl⟩

/-- A text that survives being written on a line of its own. -/
def CleanUri (uri : Str) : Prop :=
  '\n' ∉ uri ∧ ∀ h : uri ≠ [], Text.isspace (uri.getLast h) = false

/-- What the parser guarantees of each segment it returns. -/
structure WellFormed (seg : Segment D) : Prop where
  uri_ne_nil : seg.uri ≠ []
  uri_clean : CleanUri seg.uri
  seq_range : -2 ^ 31 ≤ seg.seq ∧ seg.seq < 2 ^ 31

theorem parse_wellFormed {indeterminate : Int} {content : Str} {pl : HlsMediaPlaylist D}
    (h : parse indeterminate content = .ok pl) : ∀ seg ∈ pl.segments, WellFormed seg := by
  unfold parse at h
  cases hl : Text.getlines content with
  | nil =>
    rw [hl] at h
    cases h
    simp
  | cons first rest =>
    simp only [hl] at h
    split_ifs at h with hf
    cases hp : (rest.map Text.trim).foldlM parseLine (Parser.start (D := D) indeterminate) with
    | error e =>
      rw [hp] at h
      cases h
    | ok p =>
      rw [hp] at h
      cases h
      have hstart : (∀ seg ∈ (Parser.start (D := D) indeterminate).playlist.segments, WellFormed seg) ∧
          -2 ^ 31 ≤ (Parser.start (D := D) indeterminate).seqNr ∧
          (Parser.start (D := D) indeterminate).seqNr < 2 ^ 31 := by
        simp [Parser.start]
      refine (Runs.foldlM_ok (I := fun p : Parser D =>
        (∀ seg ∈ p.playlist.segments, WellFormed seg) ∧ -2 ^ 31 ≤ p.seqNr ∧ p.seqNr < 2 ^ 31)
        ?_ hstart hp).1
      intro p line p' hm hi hstep
      have hline : '\n' ∉ line := by
        obtain ⟨raw, hraw, rfl⟩ := List.mem_map.mp hm
        have hraw' : raw ∈ Text.getlines content := hl ▸ List.mem_cons_of_mem first hraw
        exact fun hn => Text.newline_notMem_getlines hraw' (Text.mem_of_mem_trim hn)
      rcases parseLine_cases hstep with ⟨hs, hq⟩ | ⟨hne, hs, hq⟩
      · rw [hs]
        refine ⟨hi.1, ?_⟩
        rcases hq with hq | ⟨v, hq⟩
        · exact hq ▸ hi.2
        · exact hq ▸ Text.toInt32_range _
      · rw [hs, hq]
        refine ⟨?_, Text.toInt32_range _⟩
        intro seg hseg
        rcases List.mem_append.mp hseg with hseg | hseg
        · exact hi.1 seg hseg
        · rw [List.mem_singleton.mp hseg]
          refine ⟨hne, ⟨hline, fun hne' => ?_⟩, hi.2⟩
          obtain ⟨raw, _, rfl⟩ := List.mem_map.mp hm
          exact Text.getLast_trim_not_space hne'

theorem parseLine_version {p : Parser D} (hv : p.playlist.version = -1) :
    parseLine p (Text.trim (extXVersion ++ [':', '3'])) =
      .ok { p with playlist.version := 3 } := by
  have ht : Text.trim (extXVersion ++ [':', '3']) = extXVersion ++ [':', '3'] := by decide
  have ha : Text.afterLast ':' (extXVersion ++ [':', '3']) = some ['3'] := by decide
  have hs : Text.startsWith extXVersion (extXVersion ++ [':', '3']) = true := by decide
  have h3 : Text.atoi ['3'] = 3 := by decide
  rw [ht, parseLine]
  simp [hs, ha, hv, h3, pure, Except.pure]

theorem trim_tag_showInt {c : Char} (tag : Str) (hc : Text.isspace c = false) (i : Int) :
    Text.trim (c :: tag ++ ':' :: Text.showInt i) = c :: tag ++ ':' :: Text.showInt i := by
  rw [Text.trim_append hc (by decide)]
  congr 2
  refine Text.trimRight_of_getLast (fun hne => ?_)
  exact Text.isspace_of_mem_showInt (List.getLast_mem hne)

theorem parseLine_targetduration (p : Parser D) (i : Int) :
    parseLine p (Text.trim (extXTargetduration ++ ':' :: Text.showInt i)) =
      .ok { p with playlist.targetduration := Text.atoi (Text.showInt i) } := by
  have ht : Text.trim (extXTargetduration ++ ':' :: Text.showInt i) =
      extXTargetduration ++ ':' :: Text.showInt i :=
    trim_tag_showInt "EXT-X-TARGETDURATION".toList (by decide) i
  have ha : Text.afterLast ':' (extXTargetduration ++ ':' :: Text.showInt i) =
      some (Text.showInt i) :=
    Text.afterLast_append _ (Text.notMem_showInt (by decide) (by decide) i)
  have h1 := Text.startsWith_append_eq_false (p := extXVersion) (q := extXTargetduration)
    (by decide) (by decide) (':' :: Text.showInt i)
  have h2 := Text.startsWith_append extXTargetduration (':' :: Text.showInt i)
  rw [ht, parseLine]
  simp [ha, h1, h2, pure, Except.pure]

theorem parseLine_mediaSequence (p : Parser D) (i : Int) :
    parseLine p (Text.trim (extXMediaSequence ++ ':' :: Text.showInt i)) =
      .ok { p with seqNr := Text.atoi (Text.showInt i) } := by
  have ht : Text.trim (extXMediaSequence ++ ':' :: Text.showInt i) =
      extXMediaSequence ++ ':' :: Text.showInt i :=
    trim_tag_showInt "EXT-X-MEDIA-SEQUENCE".toList (by decide) i
  have ha : Text.afterLast ':' (extXMediaSequence ++ ':' :: Text.showInt i) =
      some (Text.showInt i) :=
    Text.afterLast_append _ (Text.notMem_showInt (by decide) (by decide) i)
  have h1 := Text.startsWith_append_eq_false (p := extXVersion) (q := extXMediaSequence)
    (by decide) (by decide) (':' :: Text.showInt i)
  have h2 := Text.startsWith_append_eq_false (p := extXTargetduration) (q := extXMediaSequence)
    (by decide) (by decide) (':' :: Text.showInt i)
  have h3 := Text.startsWith_append extXMediaSequence (':' :: Text.showInt i)
  rw [ht, parseLine]
  simp [ha, h1, h2, h3, pure, Except.pure]

theorem parseLine_extinf [LawfulDoubleText D] (p : Parser D) (d : D) :
    parseLine p (Text.trim (extinfTag ++ ':' :: DoubleText.put d)) =
      .ok { p with extinf := DoubleText.atof (DoubleText.put d) } := by
  have hd := LawfulDoubleText.put_chars d
  have ht : Text.trim (extinfTag ++ ':' :: DoubleText.put d) =
      extinfTag ++ ':' :: DoubleText.put d := by
    have hh := Text.trim_append (c := '#') (d := ':') (p := "EXTINF".toList)
      (s := DoubleText.put d) (by decide) (by decide)
    rw [Text.trimRight_of_getLast (fun hne => (hd _ (List.getLast_mem hne)).2)] at hh
    exact hh
  have ha : Text.afterLast ':' (extinfTag ++ ':' :: DoubleText.put d) = some (DoubleText.put d) :=
    Text.afterLast_append _ (fun hm => (hd _ hm).1 rfl)
  have h1 := Text.startsWith_append_eq_false (p := extXVersion) (q := extinfTag)
    (by decide) (by decide) (':' :: DoubleText.put d)
  have h2 := Text.startsWith_append_eq_false (p := extXTargetduration) (q := extinfTag)
    (by decide) (by decide) (':' :: DoubleText.put d)
  have h3 := Text.startsWith_append_eq_false (p := extXMediaSequence) (q := extinfTag)
    (by decide) (by decide) (':' :: DoubleText.put d)
  have h4 := Text.startsWith_append extinfTag (':' :: DoubleText.put d)
  rw [ht, parseLine]
  simp [ha, h1, h2, h3, h4, pure, Except.pure]

theorem parseLine_uri (p : Parser D) {uri : Str} (hu : CleanUri uri) :
    parseLine p (Text.trim ('/' :: uri)) =
      .ok { p with
        playlist.segments := p.playlist.segments ++ [⟨'/' :: uri, p.seqNr, p.extinf⟩]
        seqNr := Text.toInt32 (p.seqNr + 1) } := by
  have ht : Text.trim ('/' :: uri) = '/' :: uri := by
    refine Text.trim_of_ends (by decide) ?_
    cases uri with
    | nil => decide
    | cons c cs => simpa using hu.2 (List.cons_ne_nil c cs)
  have hno : ∀ tag : Str, tag.head? = some '#' → Text.startsWith tag ('/' :: uri) = false := by
    intro tag htag
    obtain ⟨r, rfl⟩ := List.head?_eq_some_iff.mp htag
    simp [Text.startsWith, List.isPrefixOf]
  rw [ht, parseLine, hno extXVersion (by decide), hno extXTargetduration (by decide),
    hno extXMediaSequence (by decide), hno extinfTag (by decide), hno ['#'] rfl]
  simp [pure, Except.pure]

/-- Reading the lines of printed segments appends them, renumbered. -/
theorem foldlM_segmentLines [LawfulDoubleText D] {segs : List (Segment D)}
    (hu : ∀ seg ∈ segs, CleanUri seg.uri) (p : Parser D) :
    ∃ p', ((segs.flatMap segmentLines).map Text.trim).foldlM parseLine p = .ok p' ∧
      p'.playlist.segments = p.playlist.segments ++ renumber p.seqNr segs := by
  induction segs generalizing p with
  | nil => exact ⟨p, rfl, by simp [renumber]⟩
  | cons seg segs ih =>
    have hhead := hu seg (by simp)
    let q : Parser D := { p with
      playlist.segments := p.playlist.segments ++
        [⟨'/' :: seg.uri, p.seqNr, DoubleText.atof (DoubleText.put seg.extinf)⟩]
      seqNr := Text.toInt32 (p.seqNr + 1)
      extinf := DoubleText.atof (DoubleText.put seg.extinf) }
    obtain ⟨p', hp', hs⟩ := ih (fun s hs => hu s (by simp [hs])) q
    refine ⟨p', ?_, ?_⟩
    · simp only [List.flatMap_cons, segmentLines, List.cons_append, List.nil_append, List.map_cons,
        List.foldlM_cons, parseLine_extinf, parseLine_uri _ hhead, bind, Except.bind]
      exact hp'
    · rw [hs]
      simp [q, renumber]

theorem newline_notMem_lines [LawfulDoubleText D] {pl : HlsMediaPlaylist D}
    (hu : ∀ seg ∈ pl.segments, '\n' ∉ seg.uri) : ∀ l ∈ pl.lines, '\n' ∉ l := by
  have hi : ∀ i : Int, '\n' ∉ Text.showInt i := Text.notMem_showInt (by decide) (by decide)
  intro l hl
  simp only [lines, List.mem_append, List.mem_flatMap] at hl
  rcases hl with (hl | hl) | ⟨seg, hseg, hl⟩
  · simp only [List.mem_cons, List.not_mem_nil, or_false] at hl
    rcases hl with rfl | rfl <;> decide
  · cases hs : pl.segments with
    | nil => simp [hs] at hl
    | cons seg segs =>
      simp only [hs, List.mem_cons, List.not_mem_nil, or_false] at hl
      rcases hl with rfl | rfl
      · have ht : '\n' ∉ extXTargetduration := by decide
        simp [ht, hi]
      · have ht : '\n' ∉ extXMediaSequence := by decide
        simp [ht, hi]
  · simp only [segmentLines, List.mem_cons, List.not_mem_nil, or_false] at hl
    rcases hl with rfl | rfl
    · have ht : '\n' ∉ extinfTag := by decide
      have hp : '\n' ∉ DoubleText.put seg.extinf := fun hm =>
        absurd (LawfulDoubleText.put_chars _ _ hm).2 (by decide)
      simp [ht, hp]
    · simpa using hu seg hseg

/-- Reading back a printed playlist: every segment comes back under `/`, with
numbers counted on from the first one. -/
theorem parse_toString [LawfulDoubleText D] (pl : HlsMediaPlaylist D)
    (hu : ∀ seg ∈ pl.segments, CleanUri seg.uri)
    (hr : ∀ seg ∈ pl.segments, -2 ^ 31 ≤ seg.seq ∧ seg.seq < 2 ^ 31) (indeterminate : Int) :
    ∃ pl' : HlsMediaPlaylist D, parse indeterminate pl.toString = .ok pl' ∧
      pl'.segments = renumber ((pl.segments.head?.map (·.seq)).getD 0) pl.segments := by
  have hlines : Text.getlines pl.toString = pl.lines :=
    Text.getlines_unlines (newline_notMem_lines fun seg hseg => (hu seg hseg).1)
  have hfirst : Text.trim extm3u = extm3u := by decide
  have hversion := parseLine_version (p := Parser.start (D := D) indeterminate) rfl
  cases hs : pl.segments with
  | nil =>
    refine ⟨{ targetduration := indeterminate, version := 3 }, ?_, rfl⟩
    simp only [parse, hlines, lines, hs, List.flatMap_nil, List.append_nil]
    simp only [hfirst, ne_eq, not_true_eq_false, if_false, List.map_cons, List.map_nil,
      List.foldlM_cons, hversion, List.foldlM_nil, bind, Except.bind, pure, Except.pure]
    rfl
  | cons seg segs =>
    have hseq := hr seg (by simp [hs])
    obtain ⟨p', hp', hseg⟩ := foldlM_segmentLines (hs ▸ hu)
      { playlist := { version := 3, targetduration := Text.atoi (Text.showInt pl.targetduration) }
        seqNr := seg.seq
        extinf := DoubleText.ofInt (-1) }
    refine ⟨p'.playlist, ?_, by simpa using hseg⟩
    simp only [parse, hlines, lines, hs, List.cons_append, List.nil_append]
    simp only [hfirst, ne_eq, not_true_eq_false, if_false, List.map_cons, List.foldlM_cons,
      hversion, parseLine_targetduration, parseLine_mediaSequence, bind, Except.bind,
      Text.atoi_showInt hseq.1 hseq.2]
    simp only [Parser.start] at hp' ⊢
    rw [hp']
    rfl

end HlsMediaPlaylist

end MbmsMiddleware
