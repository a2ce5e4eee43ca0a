import MbmsMiddleware.HlsMediaPlaylist

/-! Media playlists as they are written, line by line, and the segments that
are read from them. -/

namespace MbmsMiddleware

/-- Digits, with or without a fraction. -/
def Text.Decimal (s : Str) : Prop :=
  ∃ whole fraction : Str, whole ≠ [] ∧ (∀ c ∈ whole ++ fraction, c.isDigit = true) ∧
    (s = whole ∨ s = whole ++ '.' :: fraction)

/-- `atof` reads a decimal number up to a comma. -/
class LawfulAtof (D : Type) [DoubleText D] : Prop where
  atof_comma : ∀ s t : Str, Text.Decimal s → (DoubleText.atof (s ++ ',' :: t) : D) = DoubleText.atof s

instance : LawfulAtof Int where
  atof_comma := by
    rintro s t ⟨whole, fraction, hne, hdigits, hs⟩
    obtain ⟨c, cs, rfl⟩ := List.exists_cons_of_ne_nil hne
    have hwhole : ∀ d ∈ c :: cs, d.isDigit = true := fun d hd => hdigits d (List.mem_append_left _ hd)
    have hread : ∀ (x : Char) (r : Str), x.isDigit = false →
        Text.strtol (c :: cs ++ x :: r) = Text.strtol (c :: cs) := by
      intro x r hx
      have hd : Text.digits (c :: cs ++ x :: r) = Text.digits (c :: cs) := by
        rw [Text.digits, Text.digits, List.takeWhile_append_of_pos hwhole,
          List.takeWhile_cons_of_neg (by simp [hx]), List.append_nil,
          List.takeWhile_eq_self_iff.mpr hwhole]
      have hc := hwhole c List.mem_cons_self
      rw [List.cons_append] at hd ⊢
      rw [Text.strtol_of_isDigit hc, Text.strtol_of_isDigit hc, hd]
    rcases hs with rfl | rfl
    · exact hread ',' t (by decide)
    · have h1 := hread '.' (fraction ++ ',' :: t) (by decide)
      have h2 := hread '.' fraction (by decide)
      have hassoc : c :: cs ++ '.' :: fraction ++ ',' :: t = c :: cs ++ '.' :: (fraction ++ ',' :: t) := by
        simp
      show Text.strtol _ = Text.strtol _
      rw [hassoc, h1, h2]

namespace HlsMediaPlaylist

/-- A blank line, a comment, or a tag that is not looked at. -/
def Ignored (line : Str) : Prop :=
  '\n' ∉ line ∧ (Text.trim line = [] ∨ Text.startsWith ['#'] (Text.trim line) = true ∧
    ∀ tag ∈ [extXVersion, extXTargetduration, extXMediaSequence, extinfTag],
      Text.startsWith tag (Text.trim line) = false)

inductive HeaderLine where
  | ignored (line : Str)
  | version (text : Str)
  | targetduration (text : Str)
  | mediaSequence (number : Str)

namespace HeaderLine

def line : HeaderLine → Str
  | ignored line => line
  | version text => extXVersion ++ ':' :: text
  | targetduration text => extXTargetduration ++ ':' :: text
  | mediaSequence number => extXMediaSequence ++ ':' :: number

def WellFormed : HeaderLine → Prop
  | ignored line => Ignored line
  | version text | targetduration text => '\n' ∉ text
  | mediaSequence number => number ≠ [] ∧ (∀ c ∈ number, c.isDigit = true) ∧
      Nat.ofDigitChars 10 number 0 < 2 ^ 31

def isVersion : HeaderLine → Bool
  | version _ => true
  | _ => false

def sequence (m : Nat) : HeaderLine → Nat
  | mediaSequence number => Nat.ofDigitChars 10 number 0
  | _ => m

end HeaderLine

/-- An `#EXTINF` line, its URI line, and the lines after each. -/
structure Entry where
  duration : Str
  title : Str := []
  between : List Str := []
  uri : Str
  after : List Str := []

namespace Entry

def lines (e : Entry) : List Str :=
  (extinfTag ++ ':' :: (e.duration ++ ',' :: e.title)) :: e.between ++ e.uri :: e.after

structure WellFormed (e : Entry) : Prop where
  duration : Text.Decimal e.duration
  title : '\n' ∉ e.title
  between : ∀ line ∈ e.between, Ignored line
  after : ∀ line ∈ e.after, Ignored line
  uri_line : '\n' ∉ e.uri
  uri_ne_nil : Text.trim e.uri ≠ []
  uri_hash : Text.startsWith ['#'] (Text.trim e.uri) = false

/-- The duration is read from the text behind the last colon of the line. -/
def Readable (D : Type) [DoubleText D] (e : Entry) : Prop :=
  ':' ∉ e.title ∨
    (DoubleText.atof ((Text.trimRight e.title).rtakeWhile (· ≠ ':')) : D) = DoubleText.atof e.duration

end Entry

structure Document where
  header : List HeaderLine := []
  entries : List Entry

namespace Document

def lines (d : Document) : List Str :=
  extm3u :: d.header.map HeaderLine.line ++ d.entries.flatMap Entry.lines

def sequence (d : Document) : Nat := d.header.foldl HeaderLine.sequence 0

structure WellFormed (d : Document) : Prop where
  header : ∀ l ∈ d.header, l.WellFormed
  version : d.header.countP HeaderLine.isVersion ≤ 1
  entries : ∀ e ∈ d.entries, e.WellFormed
  range : d.sequence + d.entries.length < 2 ^ 31

variable {D : Type} [DoubleText D]

def expected (d : Document) : List (Segment D) :=
  d.entries.mapIdx fun i e => ⟨Text.trim e.uri, d.sequence + i, DoubleText.atof e.duration⟩

end Document

variable {D : Type} [DoubleText D]

theorem parseLine_ignored (p : Parser D) {line : Str} (h : Ignored line) :
    parseLine p (Text.trim line) = .ok p := by
  rcases h.2 with h | ⟨hhash, htags⟩
  · rw [h]
    rfl
  · have h1 := htags extXVersion (by simp)
    have h2 := htags extXTargetduration (by simp)
    have h3 := htags extXMediaSequence (by simp)
    have h4 := htags extinfTag (by simp)
    rw [parseLine, h1, h2, h3, h4, hhash]
    rfl

theorem foldlM_ignored (p : Parser D) {ls : List Str} (h : ∀ line ∈ ls, Ignored line) :
    (ls.map Text.trim).foldlM parseLine p = .ok p := by
  induction ls with
  | nil => rfl
  | cons line ls ih =>
    rw [List.map_cons, List.foldlM_cons, parseLine_ignored p (h line List.mem_cons_self)]
    exact ih (fun l hl => h l (List.mem_cons_of_mem _ hl))

theorem trim_tag {c : Char} (tag text : Str) (hc : Text.isspace c = false) :
    Text.trim (c :: tag ++ ':' :: text) = c :: tag ++ ':' :: Text.trimRight text :=
  Text.trim_append hc (by decide)

theorem trimRight_digits {s : Str} (h : ∀ c ∈ s, c.isDigit = true) : Text.trimRight s = s :=
  Text.trimRight_of_getLast (fun hne => Text.isspace_of_isDigit (h _ (List.getLast_mem hne)))

theorem parseLine_header {p : Parser D} {m : Nat} (hp : p.seqNr = m) {l : HeaderLine} (h : l.WellFormed)
    (hversion : l.isVersion = true → p.playlist.version = -1) :
    ∃ p', parseLine p (Text.trim l.line) = .ok p' ∧ p'.playlist.segments = p.playlist.segments ∧
      p'.seqNr = l.sequence m ∧ p'.extinf = p.extinf ∧
      (l.isVersion = false → p'.playlist.version = p.playlist.version) := by
  cases l with
  | ignored line => exact ⟨p, parseLine_ignored p h, rfl, hp, rfl, fun _ => rfl⟩
  | version text =>
    have ht : Text.trim (extXVersion ++ ':' :: text) = extXVersion ++ ':' :: Text.trimRight text :=
      trim_tag "EXT-X-VERSION".toList text (by decide)
    have ha := Text.afterLast_cons_append ':' extXVersion (Text.trimRight text)
    have h1 := Text.startsWith_append extXVersion (':' :: Text.trimRight text)
    refine ⟨{ p with playlist.version := Text.atoi ((Text.trimRight text).rtakeWhile (· ≠ ':')) }, ?_,
      rfl, hp, rfl, by simp [HeaderLine.isVersion]⟩
    rw [HeaderLine.line, ht, parseLine, ha, h1]
    simp [hversion rfl, pure, Except.pure]
  | targetduration text =>
    have ht : Text.trim (extXTargetduration ++ ':' :: text) =
        extXTargetduration ++ ':' :: Text.trimRight text :=
      trim_tag "EXT-X-TARGETDURATION".toList text (by decide)
    have ha := Text.afterLast_cons_append ':' extXTargetduration (Text.trimRight text)
    have h1 := Text.startsWith_append_eq_false (p := extXVersion) (q := extXTargetduration)
      (by decide) (by decide) (':' :: Text.trimRight text)
    have h2 := Text.startsWith_append extXTargetduration (':' :: Text.trimRight text)
    let value := Text.atoi ((Text.trimRight text).rtakeWhile (· ≠ ':'))
    refine ⟨{ p with playlist.targetduration := value }, ?_, rfl, hp, rfl, fun _ => rfl⟩
    rw [HeaderLine.line, ht, parseLine, ha, h1, h2]
    simp [value, pure, Except.pure]
  | mediaSequence number =>
    obtain ⟨hne, hdigits, hlt⟩ := h
    have ht : Text.trim (extXMediaSequence ++ ':' :: number) = extXMediaSequence ++ ':' :: number := by
      have hh := trim_tag "EXT-X-MEDIA-SEQUENCE".toList number (c := '#') (by decide)
      rwa [trimRight_digits hdigits] at hh
    have ha : Text.afterLast ':' (extXMediaSequence ++ ':' :: number) = some number :=
      Text.afterLast_append _ (fun hm => absurd (hdigits _ hm) (by decide))
    have h1 := Text.startsWith_append_eq_false (p := extXVersion) (q := extXMediaSequence)
      (by decide) (by decide) (':' :: number)
    have h2 := Text.startsWith_append_eq_false (p := extXTargetduration) (q := extXMediaSequence)
      (by decide) (by decide) (':' :: number)
    have h3 := Text.startsWith_append extXMediaSequence (':' :: number)
    refine ⟨{ p with seqNr := Text.atoi number }, ?_, rfl, Text.atoi_digits hne hdigits hlt, rfl,
      fun _ => rfl⟩
    rw [HeaderLine.line, ht, parseLine, ha, h1, h2, h3]
    simp [pure, Except.pure]

theorem foldlM_header {p : Parser D} {m : Nat} (hp : p.seqNr = m) {header : List HeaderLine}
    (h : ∀ l ∈ header, l.WellFormed)
    (hversion : header.countP HeaderLine.isVersion = 0 ∨
      header.countP HeaderLine.isVersion ≤ 1 ∧ p.playlist.version = -1) :
    ∃ p', ((header.map HeaderLine.line).map Text.trim).foldlM parseLine p = .ok p' ∧
      p'.playlist.segments = p.playlist.segments ∧ p'.seqNr = header.foldl HeaderLine.sequence m := by
  induction header generalizing p m with
  | nil => exact ⟨p, rfl, rfl, hp⟩
  | cons l header ih =>
    have hfirst : l.isVersion = true → p.playlist.version = -1 := by
      intro hl
      rcases hversion with hv | ⟨-, hv⟩
      · simp [hl] at hv
      · exact hv
    obtain ⟨q, hq, hsegs, hseq, -, hkept⟩ := parseLine_header hp (h l List.mem_cons_self) hfirst
    have hrest : header.countP HeaderLine.isVersion = 0 ∨
        header.countP HeaderLine.isVersion ≤ 1 ∧ q.playlist.version = -1 := by
      rw [List.countP_cons] at hversion
      cases hl : l.isVersion with
      | true =>
        rw [if_pos hl] at hversion
        left
        omega
      | false =>
        rw [hkept hl]
        simpa [hl] using hversion
    obtain ⟨p', hp', hsegs', hseq'⟩ := ih hseq (fun k hk => h k (List.mem_cons_of_mem _ hk)) hrest
    refine ⟨p', ?_, hsegs'.trans hsegs, hseq'⟩
    rw [List.map_cons, List.map_cons, List.foldlM_cons, hq]
    exact hp'

def Entry.readDuration (e : Entry) : D :=
  DoubleText.atof ((e.duration ++ ',' :: Text.trimRight e.title).rtakeWhile (· ≠ ':'))

theorem parseLine_extinf_entry (p : Parser D) (e : Entry) :
    parseLine p (Text.trim (extinfTag ++ ':' :: (e.duration ++ ',' :: e.title))) =
      .ok { p with extinf := e.readDuration } := by
  let text := e.duration ++ ',' :: Text.trimRight e.title
  have ht : Text.trim (extinfTag ++ ':' :: (e.duration ++ ',' :: e.title)) = extinfTag ++ ':' :: text := by
    have hh := Text.trim_append (c := '#') (d := ',') (p := "EXTINF:".toList ++ e.duration)
      (s := e.title) (by decide) (by decide)
    have hraw : extinfTag ++ ':' :: (e.duration ++ ',' :: e.title) =
        '#' :: ("EXTINF:".toList ++ e.duration) ++ ',' :: e.title := by
      show "#EXTINF".toList ++ _ = _
      simp
    rw [hraw, hh]
    show _ = "#EXTINF".toList ++ ':' :: (e.duration ++ ',' :: Text.trimRight e.title)
    simp
  have ha := Text.afterLast_cons_append ':' extinfTag text
  have h1 := Text.startsWith_append_eq_false (p := extXVersion) (q := extinfTag)
    (by decide) (by decide) (':' :: text)
  have h2 := Text.startsWith_append_eq_false (p := extXTargetduration) (q := extinfTag)
    (by decide) (by decide) (':' :: text)
  have h3 := Text.startsWith_append_eq_false (p := extXMediaSequence) (q := extinfTag)
    (by decide) (by decide) (':' :: text)
  have h4 := Text.startsWith_append extinfTag (':' :: text)
  rw [ht, parseLine, ha, h1, h2, h3, h4]
  simp [text, Entry.readDuration, pure, Except.pure]

theorem parseLine_uri_entry (p : Parser D) {e : Entry} (h : e.WellFormed) :
    parseLine p (Text.trim e.uri) = .ok { p with
      playlist.segments := p.playlist.segments ++ [⟨Text.trim e.uri, p.seqNr, p.extinf⟩]
      seqNr := Text.toInt32 (p.seqNr + 1) } := by
  have hlen : (Text.trim e.uri).length > 0 := List.length_pos_iff.mpr h.uri_ne_nil
  have h1 : Text.startsWith extXVersion (Text.trim e.uri) = false :=
    Text.startsWith_eq_false_of_head (by decide) h.uri_hash
  have h2 : Text.startsWith extXTargetduration (Text.trim e.uri) = false :=
    Text.startsWith_eq_false_of_head (by decide) h.uri_hash
  have h3 : Text.startsWith extXMediaSequence (Text.trim e.uri) = false :=
    Text.startsWith_eq_false_of_head (by decide) h.uri_hash
  have h4 : Text.startsWith extinfTag (Text.trim e.uri) = false :=
    Text.startsWith_eq_false_of_head (by decide) h.uri_hash
  simp only [parseLine, h1, h2, h3, h4, h.uri_hash, hlen, Bool.false_eq_true, if_false, if_true]
  rfl

/-- The lines of the entries append the segments, numbered on from the counter. -/
theorem foldlM_entries {entries : List Entry} (h : ∀ e ∈ entries, e.WellFormed) {p : Parser D} {m : Nat}
    (hp : p.seqNr = m) (hrange : m + entries.length < 2 ^ 31) :
    ∃ p', ((entries.flatMap Entry.lines).map Text.trim).foldlM parseLine p = .ok p' ∧
      p'.playlist.segments = p.playlist.segments ++
        entries.mapIdx fun i e => ⟨Text.trim e.uri, m + i, e.readDuration⟩ := by
  induction entries generalizing p m with
  | nil => exact ⟨p, rfl, by simp⟩
  | cons e entries ih =>
    have he := h e List.mem_cons_self
    rw [List.length_cons] at hrange
    let q : Parser D := { p with
      playlist.segments := p.playlist.segments ++ [⟨Text.trim e.uri, p.seqNr, e.readDuration⟩]
      seqNr := Text.toInt32 (p.seqNr + 1)
      extinf := e.readDuration }
    have hq : q.seqNr = (m + 1 : Nat) := by
      show Text.toInt32 (p.seqNr + 1) = _
      rw [hp, Text.toInt32_of_range (by omega) (by omega)]
      rfl
    obtain ⟨p', hp', hsegs⟩ := ih (fun x hx => h x (List.mem_cons_of_mem _ hx)) hq (by omega)
    refine ⟨p', ?_, ?_⟩
    · have hlines : (e.lines.map Text.trim).foldlM parseLine p = .ok q := by
        have hbetween := fun p : Parser D => foldlM_ignored p he.between
        have hafter := fun p : Parser D => foldlM_ignored p he.after
        simp only [Entry.lines, List.cons_append, List.map_cons, List.map_append, List.foldlM_cons,
          List.foldlM_append, parseLine_extinf_entry p e, parseLine_uri_entry _ he, hbetween, hafter,
          bind, Except.bind]
        rfl
      rw [List.flatMap_cons, List.map_append, List.foldlM_append, hlines]
      exact hp'
    · rw [hsegs, List.mapIdx_cons]
      simp only [q, hp, List.append_assoc, List.singleton_append, Nat.cast_zero, add_zero]
      congr 3
      funext i x
      simp only [Nat.cast_add, Nat.cast_one]
      congr 1
      omega

theorem colon_notMem_decimal {s : Str} (h : Text.Decimal s) : ':' ∉ s ∧ '\n' ∉ s := by
  obtain ⟨whole, fraction, -, hdigits, hs⟩ := h
  have hno : ∀ c : Char, c.isDigit = false → c ≠ '.' → c ∉ s := by
    intro c hc hpoint hm
    have hmem : c ∈ whole ++ fraction := by
      rcases hs with rfl | rfl
      · exact List.mem_append_left _ hm
      · rw [List.mem_append, List.mem_cons] at hm
        rw [List.mem_append]
        exact hm.imp_right (fun h => h.resolve_left hpoint)
    exact absurd (hdigits c hmem) (by simp [hc])
  exact ⟨hno ':' (by decide) (by decide), hno '\n' (by decide) (by decide)⟩

/-- A colon in the title moves the text that the duration is read from. -/
theorem readDuration_eq_iff [LawfulAtof D] {e : Entry} (h : e.WellFormed) :
    (e.readDuration : D) = DoubleText.atof e.duration ↔ e.Readable D := by
  have hcolon : ':' ∈ Text.trimRight e.title ↔ ':' ∈ e.title := Text.mem_trimRight (by decide)
  rw [Entry.Readable, Entry.readDuration]
  by_cases hm : ':' ∈ e.title
  · have hbehind : (e.duration ++ ',' :: Text.trimRight e.title).rtakeWhile (· ≠ ':') =
        (Text.trimRight e.title).rtakeWhile (· ≠ ':') := by
      have hh := Text.rtakeWhile_append_of_mem (hcolon.mpr hm) (e.duration ++ [','])
      rwa [List.append_assoc, List.singleton_append] at hh
    rw [hbehind]
    simp [hm]
  · have hwhole : (e.duration ++ ',' :: Text.trimRight e.title).rtakeWhile (· ≠ ':') =
        e.duration ++ ',' :: Text.trimRight e.title := by
      refine Text.rtakeWhile_of_notMem ?_
      rw [List.mem_append, List.mem_cons, hcolon]
      simp [hm, (colon_notMem_decimal h.duration).1]
    rw [hwhole, LawfulAtof.atof_comma _ _ h.duration]
    simp [hm]

theorem HeaderLine.WellFormed.newline_notMem {l : HeaderLine} (h : l.WellFormed) : '\n' ∉ l.line := by
  cases l with
  | ignored line => exact h.1
  | version text =>
    rw [line, List.mem_append, List.mem_cons]
    have hno : '\n' ∉ text := h
    have htag : '\n' ∉ extXVersion := by decide
    simp [hno, htag]
  | targetduration text =>
    rw [line, List.mem_append, List.mem_cons]
    have hno : '\n' ∉ text := h
    have htag : '\n' ∉ extXTargetduration := by decide
    simp [hno, htag]
  | mediaSequence number =>
    rw [line, List.mem_append, List.mem_cons]
    have hno : '\n' ∉ number := fun hm => absurd (h.2.1 _ hm) (by decide)
    have htag : '\n' ∉ extXMediaSequence := by decide
    simp [hno, htag]

theorem Entry.WellFormed.newline_notMem {e : Entry} (h : e.WellFormed) {line : Str}
    (hl : line ∈ e.lines) : '\n' ∉ line := by
  simp only [Entry.lines, List.cons_append, List.mem_cons, List.mem_append] at hl
  rcases hl with rfl | hl | rfl | hl
  · have htag : '\n' ∉ extinfTag := by decide
    simp [htag, (colon_notMem_decimal h.duration).2, h.title]
  · exact (h.between line hl).1
  · exact h.uri_line
  · exact (h.after line hl).1

theorem Document.WellFormed.newline_notMem {d : Document} (h : d.WellFormed) {line : Str}
    (hl : line ∈ d.lines) : '\n' ∉ line := by
  simp only [Document.lines, List.cons_append, List.mem_cons, List.mem_append, List.mem_map,
    List.mem_flatMap] at hl
  rcases hl with rfl | ⟨l, hl, rfl⟩ | ⟨e, he, hl⟩
  · decide
  · exact (h.header l hl).newline_notMem
  · exact (h.entries e he).newline_notMem hl

/-- Every entry gives one segment, whatever the line endings. -/
theorem parse_document (indeterminate : Int) {d : Document} (h : d.WellFormed) {ls : List (Str × Bool)}
    (hls : ls.map Prod.fst = d.lines) :
    ∃ pl : HlsMediaPlaylist D, parse indeterminate (Text.document ls) = .ok pl ∧
      pl.segments = d.entries.mapIdx fun i e =>
        ⟨Text.trim e.uri, d.sequence + i, e.readDuration⟩ := by
  have hline : ∀ l ∈ ls, '\n' ∉ l.1 := fun l hl =>
    h.newline_notMem (hls ▸ List.mem_map_of_mem hl)
  have htrim := Text.trim_getlines_document hline
  rw [hls, Document.lines, List.cons_append, List.map_cons] at htrim
  cases hget : Text.getlines (Text.document ls) with
  | nil => simp [hget] at htrim
  | cons first rest =>
    rw [hget, List.map_cons, List.cons.injEq, List.map_append] at htrim
    obtain ⟨hfirst, hrest⟩ := htrim
    have hfirst' : Text.trim first = extm3u := hfirst
    obtain ⟨q, hq, hsegs, hseq⟩ := foldlM_header (p := Parser.start (D := D) indeterminate) (m := 0) rfl
      h.header (.inr ⟨h.version, rfl⟩)
    obtain ⟨p', hp', hsegs'⟩ := foldlM_entries h.entries hseq h.range
    refine ⟨p'.playlist, ?_, ?_⟩
    · simp only [parse, hget, hfirst', ne_eq, not_true_eq_false, if_false, hrest,
        List.foldlM_append, hq, hp', bind, Except.bind]
      rfl
    · rw [hsegs', hsegs]
      exact List.nil_append _

/-- The segments read are those described exactly when every duration can be
read from behind the last colon of its line. -/
theorem parse_document_segments_iff [LawfulAtof D] (indeterminate : Int) {d : Document}
    (h : d.WellFormed) {ls : List (Str × Bool)} (hls : ls.map Prod.fst = d.lines) :
    (∃ pl : HlsMediaPlaylist D, parse indeterminate (Text.document ls) = .ok pl ∧
      pl.segments = d.expected) ↔ ∀ e ∈ d.entries, e.Readable D := by
  obtain ⟨pl, hpl, hsegs⟩ := parse_document (D := D) indeterminate h hls
  have hmap : pl.segments = d.expected ↔ ∀ e ∈ d.entries, e.Readable D := by
    rw [hsegs, Document.expected, List.mapIdx_eq_mapIdx_iff]
    simp only [Segment.mk.injEq, true_and]
    constructor
    · intro hread e he
      obtain ⟨i, hi, rfl⟩ := List.getElem_of_mem he
      exact (readDuration_eq_iff (h.entries _ he)).mp (hread i hi)
    · intro hread i hi
      have he := List.getElem_mem hi
      exact (readDuration_eq_iff (h.entries _ he)).mpr (hread _ he)
  rw [← hmap]
  constructor
  · rintro ⟨pl', hpl', hsegs'⟩
    rw [hpl] at hpl'
    cases hpl'
    exact hsegs'
  · exact fun he => ⟨pl, hpl, he⟩

section Example

/-- One segment of 9 seconds with a title, in a playlist with CRLF endings. -/
def titledSegment (title : Str) : Document where
  header := [.version ['3'], .mediaSequence "17".toList]
  entries := [{ duration := ['9'], title := title, uri := "a.ts".toList }]

def crlfEndings (d : Document) : List (Str × Bool) := d.lines.map fun line => (line, true)

theorem crlfEndings_lines (d : Document) : (crlfEndings d).map Prod.fst = d.lines := by
  rw [crlfEndings, List.map_map]
  exact List.map_id _

theorem wellFormed_titledSegment {title : Str} (htitle : '\n' ∉ title) :
    (titledSegment title).WellFormed := by
  have huri : '\n' ∉ "a.ts".toList ∧ Text.trim "a.ts".toList ≠ [] ∧
      Text.startsWith ['#'] (Text.trim "a.ts".toList) = false := by decide
  have hversion : [HeaderLine.version ['3'], .mediaSequence "17".toList].countP HeaderLine.isVersion ≤ 1 := by
    decide
  have hrange : Nat.ofDigitChars 10 "17".toList 0 + 1 < 2 ^ 31 := by decide
  refine ⟨fun l hl => ?_, hversion, fun e he => ?_, hrange⟩
  · simp only [titledSegment, List.mem_cons, List.not_mem_nil, or_false] at hl
    rcases hl with rfl | rfl
    · show '\n' ∉ ['3']
      decide
    · exact ⟨by decide, by simp, by decide⟩
  · cases List.mem_singleton.mp he
    exact ⟨⟨['9'], [], by decide, by simp, .inl rfl⟩, htitle, by simp, by simp, huri.1, huri.2.1, huri.2.2⟩

/-- The duration is read from the title. -/
theorem colon_in_title_read_as_duration :
    (titledSegment "news: late".toList).WellFormed ∧
    ¬ ∃ pl : HlsMediaPlaylist Int,
      parse 0 (Text.document (crlfEndings (titledSegment "news: late".toList))) = .ok pl ∧
        pl.segments = (titledSegment "news: late".toList).expected := by
  refine ⟨wellFormed_titledSegment (by decide), ?_⟩
  rintro ⟨pl, hpl, hsegs⟩
  have hparse : (parse 0 (Text.document (crlfEndings (titledSegment "news: late".toList))) :
      Except Fault (HlsMediaPlaylist Int)) = .ok ⟨3, 0, [⟨"a.ts".toList, 17, 0⟩]⟩ := by decide +kernel
  rw [hparse] at hpl
  cases hpl
  exact absurd hsegs (by decide)

theorem plain_title_read :
    ((titledSegment "news".toList).expected : List (Segment Int)) = [⟨"a.ts".toList, 17, 9⟩] ∧
    ((∃ pl : HlsMediaPlaylist Int,
      parse 0 (Text.document (crlfEndings (titledSegment "news".toList))) = .ok pl ∧
        pl.segments = (titledSegment "news".toList).expected) ↔
      ∀ e ∈ (titledSegment "news".toList).entries, e.Readable Int) :=
  ⟨by decide, parse_document_segments_iff 0 (wellFormed_titledSegment (by decide)) (crlfEndings_lines _)⟩

end Example

end HlsMediaPlaylist

end MbmsMiddleware
