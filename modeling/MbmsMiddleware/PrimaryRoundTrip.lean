import MbmsMiddleware.HlsAttributes

/-! Reading back a printed primary playlist: every field but the bandwidth,
which is printed under another name than it is read. -/

namespace MbmsMiddleware

/-- What `std::fixed` prints is made of digits, signs, a point, letters. -/
class LawfulFixedText (D : Type) [DoubleText D] : Prop where
  putFixed3_chars : ∀ d : D, ∀ c ∈ DoubleText.putFixed3 d,
    c ≠ '"' ∧ c ≠ ',' ∧ c ≠ '=' ∧ c ≠ ':' ∧ c ≠ '\n'

instance : LawfulFixedText Int where
  putFixed3_chars d c hc := by
    rcases List.mem_append.mp hc with h | h
    · exact Text.showInt_chars h
    · have hpoint : ∀ c ∈ ".000".toList, c ≠ '"' ∧ c ≠ ',' ∧ c ≠ '=' ∧ c ≠ ':' ∧ c ≠ '\n' := by simp
      exact hpoint c h

namespace HlsPrimaryPlaylist

variable {D : Type} [DoubleText D]

/-- A stream that the printed text can carry. -/
structure Printable (s : Stream D) : Prop where
  uri_ne_nil : s.uri ≠ []
  uri_hash : Text.startsWith ['#'] s.uri = false
  uri_line : '\n' ∉ s.uri
  uri_trim : Text.trim s.uri = s.uri
  resolution : ∀ c ∈ s.resolution, c ≠ '"' ∧ c ≠ ',' ∧ c ≠ '=' ∧ c ≠ ':' ∧ c ≠ '\n'
  codecs : ∀ c ∈ s.codecs, c ≠ '"' ∧ c ≠ '=' ∧ c ≠ ':' ∧ c ≠ '\n'
  bandwidth : s.bandwidth < 2 ^ 31
  frameRate : DoubleText.atof (DoubleText.putFixed3 s.frameRate) = s.frameRate

/-- The attributes that are printed for a stream. -/
def printed (s : Stream D) : List Attribute :=
  [⟨"BANDWITH".toList, Text.showInt s.bandwidth, false⟩, ⟨"RESOLUTION".toList, s.resolution, false⟩,
   ⟨"FRAME-RATE".toList, DoubleText.putFixed3 s.frameRate, false⟩, ⟨"CODECS".toList, s.codecs, true⟩]

theorem streamLines_eq (s : Stream D) :
    streamLines s = [streamInf ++ attributeText (printed s), s.uri] := by
  have h1 : "#EXT-X-STREAM-INF:BANDWITH=".toList = streamInf ++ ("BANDWITH".toList ++ ['=']) := by decide
  have h2 : ",RESOLUTION=".toList = ',' :: ("RESOLUTION".toList ++ ['=']) := by decide
  have h3 : ",FRAME-RATE=".toList = ',' :: ("FRAME-RATE".toList ++ ['=']) := by decide
  have h4 : ",CODECS=\"".toList = ',' :: ("CODECS".toList ++ ['=', '"']) := by decide
  rw [streamLines, h1, h2, h3, h4]
  simp [attributeText, printed, Attribute.text]

def readBack (s : Stream D) : Stream D := { s with bandwidth := 0 }

theorem printed_name {s : Stream D} {a : Attribute} (ha : a ∈ printed s) :
    ∀ c ∈ a.name, c ≠ '"' ∧ c ≠ ',' ∧ c ≠ '=' ∧ c ≠ ':' ∧ c ≠ '\n' := by
  have hall : ∀ name ∈ ["BANDWITH".toList, "RESOLUTION".toList, "FRAME-RATE".toList, "CODECS".toList],
      ∀ c ∈ name, c ≠ '"' ∧ c ≠ ',' ∧ c ≠ '=' ∧ c ≠ ':' ∧ c ≠ '\n' := by simp
  exact hall a.name (List.mem_map_of_mem (f := Attribute.name) ha)

theorem trim_streamLines {s : Stream D} (h : Printable s) :
    (streamLines s).map Text.trim = streamLines s := by
  have hend : Text.trimRight (attributeText (printed s)) = attributeText (printed s) := by
    refine Text.trimRight_of_getLast (fun hne => ?_)
    have hlast : (attributeText (printed s)).getLast hne = '"' := by
      simp [attributeText, printed, Attribute.text]
    rw [hlast]
    decide
  rw [streamLines_eq, List.map_cons, List.map_singleton, trim_streamInf, hend, h.uri_trim]

variable [LawfulFixedText D]

theorem printed_value {s : Stream D} (h : Printable s) {a : Attribute} (ha : a ∈ printed s) :
    ∀ c ∈ a.value, c ≠ '"' ∧ c ≠ '=' ∧ c ≠ ':' ∧ c ≠ '\n' ∧ (a.quoted = false → c ≠ ',') := by
  intro c hc
  simp only [printed, List.mem_cons, List.not_mem_nil, or_false] at ha
  rcases ha with rfl | rfl | rfl | rfl
  · obtain ⟨h1, h2, h3, h4, h5⟩ := Text.showInt_chars (show c ∈ Text.showInt s.bandwidth from hc)
    exact ⟨h1, h3, h4, h5, fun _ => h2⟩
  · obtain ⟨h1, h2, h3, h4, h5⟩ := h.resolution c hc
    exact ⟨h1, h3, h4, h5, fun _ => h2⟩
  · obtain ⟨h1, h2, h3, h4, h5⟩ := LawfulFixedText.putFixed3_chars s.frameRate c hc
    exact ⟨h1, h3, h4, h5, fun _ => h2⟩
  · obtain ⟨h1, h2, h3, h4⟩ := h.codecs c hc
    exact ⟨h1, h2, h3, h4, by simp⟩

theorem printed_valid {s : Stream D} (h : Printable s) {a : Attribute} (ha : a ∈ printed s) :
    a.Valid where
  name c hc := by
    obtain ⟨h1, h2, h3, -⟩ := printed_name ha c hc
    exact ⟨h1, h2, h3⟩
  noQuote hm := (printed_value h ha _ hm).1 rfl
  noComma hq hm := (printed_value h ha _ hm).2.2.2.2 hq rfl

theorem notMem_printed {s : Stream D} (h : Printable s) {c : Char} (hc : c = ':' ∨ c = '\n') :
    c ∉ attributeText (printed s) := by
  intro hm
  rcases mem_attributeText hm with he | he | he | ⟨a, ha, hv⟩
  · rcases hc with rfl | rfl <;> simp at he
  · rcases hc with rfl | rfl <;> simp at he
  · rcases hc with rfl | rfl <;> simp at he
  · rcases hv with hv | hv
    · obtain ⟨-, -, -, h4, h5⟩ := printed_name ha c hv
      exact hc.elim h4 h5
    · obtain ⟨-, -, h4, h5, -⟩ := printed_value h ha c hv
      exact hc.elim h4 h5

theorem foldlM_streamLines {s : Stream D} (h : Printable s) (playlist : HlsPrimaryPlaylist D) :
    (streamLines s).foldlM (parseLine []) { playlist := playlist, frameRate := DoubleText.ofInt 0 } =
      .ok { playlist := { playlist with streams := playlist.streams ++ [readBack s] }
            frameRate := DoubleText.ofInt 0 } := by
  have hread : parseParameters (attributeText (printed s)) =
      (printed s).map fun b => (b.name, b.value) := by
    have hp := parseParameters_attributeText
      (fun b hb => printed_valid h (show b ∈ printed s from hb))
    have hv : (printed s).map (fun b => (b.name, b.readValue)) =
        (printed s).map fun b => (b.name, b.value) :=
      List.map_congr_left (fun b hb => by
        rw [Attribute.readValue_of_notMem (fun hm => (printed_value h hb _ hm).2.1 rfl)])
    exact hp.trans hv
  have hinfo : (attributeText (printed s)).rtakeWhile (· ≠ ':') = attributeText (printed s) :=
    Text.rtakeWhile_of_notMem (notMem_printed h (.inl rfl))
  rw [streamLines_eq, List.foldlM_cons, parseLine_streamInf, hinfo, hread]
  change (parseLine [] _ s.uri >>= fun p => [].foldlM (parseLine []) p) = _
  rw [parseLine_uri _ _ h.uri_ne_nil h.uri_hash]
  simp only [printed, List.map_cons, List.map_nil, List.foldl_cons, List.foldl_nil]
  simp [setParameter, readBack, h.frameRate, bind, Except.bind, pure, Except.pure]

theorem foldlM_flatMap_streamLines {streams : List (Stream D)} (h : ∀ s ∈ streams, Printable s)
    (playlist : HlsPrimaryPlaylist D) :
    (streams.flatMap streamLines).foldlM (parseLine [])
        { playlist := playlist, frameRate := DoubleText.ofInt 0 } =
      .ok { playlist := { playlist with streams := playlist.streams ++ streams.map readBack }
            frameRate := DoubleText.ofInt 0 } := by
  induction streams generalizing playlist with
  | nil => simp [pure, Except.pure]
  | cons s streams ih =>
    rw [List.flatMap_cons, List.foldlM_append, foldlM_streamLines (h s List.mem_cons_self)]
    change (streams.flatMap streamLines).foldlM (parseLine []) _ = _
    rw [ih (fun t ht => h t (List.mem_cons_of_mem _ ht))]
    simp

theorem newline_notMem_streamLines {s : Stream D} (h : Printable s) {line : Str}
    (hl : line ∈ streamLines s) : '\n' ∉ line := by
  rw [streamLines_eq, List.mem_cons, List.mem_singleton] at hl
  rcases hl with rfl | rfl
  · rw [List.mem_append, not_or]
    exact ⟨by decide, notMem_printed h (.inr rfl)⟩
  · exact h.uri_line

theorem parse_toString {pl : HlsPrimaryPlaylist D} (h : ∀ s ∈ pl.streams, Printable s) :
    parse (toString pl) [] = .ok { version := 3, streams := pl.streams.map readBack } := by
  have hlines : ∀ l ∈ ["#EXTM3U".toList, "#EXT-X-VERSION:3".toList] ++ pl.streams.flatMap streamLines,
      '\n' ∉ l := by
    intro l hl
    rcases List.mem_append.mp hl with hl | hl
    · simp only [List.mem_cons, List.not_mem_nil, or_false] at hl
      rcases hl with rfl | rfl <;> decide
    · obtain ⟨s, hs, hl⟩ := List.mem_flatMap.mp hl
      exact newline_notMem_streamLines (h s hs) hl
  have htrim : (pl.streams.flatMap streamLines).map Text.trim = pl.streams.flatMap streamLines := by
    rw [List.map_flatMap]
    exact List.flatMap_congr (fun s hs => trim_streamLines (h s hs))
  have hfirst : Text.trim "#EXTM3U".toList = "#EXTM3U".toList := by decide
  have hversion : parseLine [] { frameRate := (DoubleText.ofInt 0 : D) }
      (Text.trim "#EXT-X-VERSION:3".toList) =
        .ok { playlist := { version := 3 }, frameRate := DoubleText.ofInt 0 } := rfl
  rw [parse, toString, Text.getlines_unlines hlines]
  simp only [List.cons_append, List.nil_append, hfirst, ne_eq, not_true_eq_false, if_false,
    List.map_cons, List.foldlM_cons, hversion, htrim, bind, Except.bind]
  rw [foldlM_flatMap_streamLines h]
  rfl

/-- A printed playlist is read back as it was exactly when no stream has a
bandwidth. -/
theorem parse_toString_streams_iff {pl : HlsPrimaryPlaylist D} (h : ∀ s ∈ pl.streams, Printable s) :
    (∃ pl', parse (toString pl) [] = .ok pl' ∧ pl'.streams = pl.streams) ↔
      ∀ s ∈ pl.streams, s.bandwidth = 0 := by
  rw [parse_toString h]
  have hback : ∀ s : Stream D, readBack s = s ↔ s.bandwidth = 0 := by
    intro s
    rw [readBack]
    constructor
    · intro he
      rw [← he]
    · intro h0
      rw [← h0]
  have hmap : pl.streams.map readBack = pl.streams ↔ ∀ s ∈ pl.streams, readBack s = s := by
    have hh := List.map_inj_left (l := pl.streams) (f := readBack) (g := id)
    rwa [List.map_id] at hh
  constructor
  · rintro ⟨pl', he, hstreams⟩ s hs
    cases he
    exact (hback s).mp (hmap.mp hstreams s hs)
  · intro hzero
    exact ⟨_, rfl, hmap.mpr (fun s hs => (hback s).mpr (hzero s hs))⟩

section Example

/-- One variant at 25 frames per second. -/
def oneVariant (bandwidth : Nat) : HlsPrimaryPlaylist Int where
  streams := [⟨"a/b.m3u8".toList, "640x360".toList, "avc1,mp4a".toList, bandwidth, 25⟩]

theorem bandwidth_lost :
    ¬ ∃ pl', parse (toString (oneVariant 5000)) [] = .ok pl' ∧
      pl'.streams = (oneVariant 5000).streams := by
  have hparse : (parse (toString (oneVariant 5000)) [] : Except Fault (HlsPrimaryPlaylist Int)) =
      .ok { oneVariant 0 with version := 3 } := by decide +kernel
  rintro ⟨pl', he, hstreams⟩
  rw [hparse] at he
  cases he
  exact absurd hstreams (by decide)

theorem printable_oneVariant {s : Stream Int} (hs : s ∈ (oneVariant 0).streams) : Printable s := by
  cases List.mem_singleton.mp hs
  exact ⟨by decide, by decide, by decide, by decide, by simp, by simp, by decide, by decide⟩

theorem no_bandwidth_read_back :
    (oneVariant 0).streams ≠ [] ∧
    ((∃ pl', parse (toString (oneVariant 0)) [] = .ok pl' ∧ pl'.streams = (oneVariant 0).streams) ↔
      ∀ s ∈ (oneVariant 0).streams, s.bandwidth = 0) :=
  ⟨by decide, parse_toString_streams_iff (fun _ => printable_oneVariant)⟩

end Example

end HlsPrimaryPlaylist

end MbmsMiddleware
