import MbmsMiddleware.AttributeFields
import MbmsMiddleware.OrdMap
import Mathlib.Data.Char
import Mathlib.Data.List.Lex

/-! Primary playlists as they are written, line by line, and the streams that
are read from them. -/

namespace MbmsMiddleware

namespace HlsPrimaryPlaylist

open OrdMap (lastAt)

/-- A blank line, a comment, or a tag that is not looked at. -/
def Ignored (line : Str) : Prop :=
  '\n' ∉ line ∧ (Text.trim line = [] ∨ Text.startsWith ['#'] (Text.trim line) = true ∧
    Text.startsWith "#EXT-X-VERSION".toList (Text.trim line) = false ∧
    Text.startsWith "#EXT-X-STREAM-INF".toList (Text.trim line) = false)

structure Attribute.WellFormed (a : Attribute) : Prop extends a.Valid where
  nameChars : ∀ c ∈ a.name, c ≠ ':' ∧ Text.isspace c = false
  valueLine : '\n' ∉ a.value
  unquoted : a.quoted = false → ∀ c ∈ a.value, Text.isspace c = false
  bandwidth : a.name = "BANDWIDTH".toList → a.value ≠ [] ∧ (∀ c ∈ a.value, c.isDigit = true) ∧
    Nat.ofDigitChars 10 a.value 0 < 2 ^ 31
  frameRate : a.name = "FRAME-RATE".toList → ∀ c ∈ a.value, c.isDigit = true ∨ c = '.'

/-- A `#EXT-X-STREAM-INF` line, its URI line, and the lines after each. -/
structure Variant where
  attributes : List Attribute
  between : List Str := []
  uri : Str
  after : List Str := []

namespace Variant

def info (v : Variant) : Str := attributeText v.attributes

def lines (v : Variant) : List Str := (streamInf ++ v.info) :: v.between ++ v.uri :: v.after

structure WellFormed (v : Variant) : Prop where
  attributes : ∀ a ∈ v.attributes, a.WellFormed
  between : ∀ line ∈ v.between, Ignored line
  after : ∀ line ∈ v.after, Ignored line
  uri_ne_nil : v.uri ≠ []
  uri_hash : Text.startsWith ['#'] v.uri = false
  uri_line : '\n' ∉ v.uri
  uri_trim : Text.trim v.uri = v.uri

def valueOf (v : Variant) (name : Str) : Option Str :=
  lastAt (v.attributes.map fun a => (a.name, a.value)) name

variable {D : Type} [DoubleText D]

/-- The stream that the attributes describe. -/
def expected (basePath : Str) (v : Variant) : Stream D where
  uri := basePath ++ v.uri
  resolution := (v.valueOf "RESOLUTION".toList).getD []
  codecs := (v.valueOf "CODECS".toList).getD []
  bandwidth := (v.valueOf "BANDWIDTH".toList).elim 0 fun s => Nat.ofDigitChars 10 s 0
  frameRate := (v.valueOf "FRAME-RATE".toList).elim (DoubleText.ofInt 0) DoubleText.atof

end Variant

variable {D : Type} [DoubleText D]

def streamOf (uri : Str) (params : List (Str × Str)) : Stream D where
  uri := uri
  resolution := (lastAt params "RESOLUTION".toList).getD []
  codecs := (lastAt params "CODECS".toList).getD []
  bandwidth := (lastAt params "BANDWIDTH".toList).elim 0 fun s => toUnsignedLong (Text.atoi s)
  frameRate := (lastAt params "FRAME-RATE".toList).elim (DoubleText.ofInt 0) DoubleText.atof

namespace Variant

/-- The attributes of the line as they look from behind its last colon. Where it
stands in a value without quotes, the rest of the value is a field of its own,
and the attributes behind it are all there. Where it stands in a quoted value,
quotes count the other way round from there on, so that commas part what stands
in quotes and no longer the attributes. -/
def behind (v : Variant) : List (Str × Str) :=
  match lastColon v.attributes with
  | none => v.attributes.map fun a => (a.name, a.readValue)
  | some (a, rest) =>
    let cut := a.value.rtakeWhile (· ≠ ':')
    if a.quoted then
      (cutFields false (cut ++ '"' :: rest.flatMap fun b => ',' :: b.text)).map fieldOf
    else fieldOf cut :: rest.map fun b => (b.name, b.readValue)

/-- The last attribute of the name says behind the colon what it says on the
line. A missing one counts as one with the default. -/
def Keeps {α : Type} (v : Variant) (name : Str) (default : α) (value : Str → α) : Prop :=
  (lastAt v.behind name).elim default value = (v.valueOf name).elim default value

/-- The four attributes that are looked at come through. -/
structure Readable (D : Type) [DoubleText D] (v : Variant) : Prop where
  resolution : v.Keeps "RESOLUTION".toList [] id
  codecs : v.Keeps "CODECS".toList [] id
  bandwidth : v.Keeps "BANDWIDTH".toList 0 Text.atoi
  frameRate : v.Keeps "FRAME-RATE".toList (DoubleText.ofInt 0 : D) DoubleText.atof

/-- The attributes that are looked at. -/
def lookedAt : List Str :=
  ["RESOLUTION".toList, "CODECS".toList, "BANDWIDTH".toList, "FRAME-RATE".toList]

/-- The last colon stands in a quoted value, and none of the quoted text behind it
looks like an attribute that is looked at. -/
def QuotedColon (v : Variant) : Prop :=
  ∃ a rest, lastColon v.attributes = some (a, rest) ∧ a.quoted = true ∧
    ∀ name ∈ lookedAt, ¬ Imitates name (a.value.rtakeWhile (· ≠ ':')) ∧
      ∀ b ∈ rest, b.quoted = true → ¬ Imitates name b.value

end Variant

theorem foldl_setParameter (params : List (Str × Str)) (playlist : HlsPrimaryPlaylist D) :
    let s : Stream D := streamOf [] params
    params.foldl setParameter { playlist := playlist, frameRate := DoubleText.ofInt 0 } =
      { playlist := playlist, resolution := s.resolution, codecs := s.codecs,
        bandwidth := s.bandwidth, frameRate := s.frameRate } := by
  induction params using List.reverseRecOn with
  | nil => rfl
  | append_singleton params x ih =>
    rw [List.foldl_append, List.foldl_cons, List.foldl_nil, ih]
    obtain ⟨name, value⟩ := x
    unfold setParameter streamOf
    simp only [OrdMap.lastAt_concat]
    have h12 : "BANDWIDTH".toList ≠ "FRAME-RATE".toList := by decide
    have h13 : "BANDWIDTH".toList ≠ "RESOLUTION".toList := by decide
    have h14 : "BANDWIDTH".toList ≠ "CODECS".toList := by decide
    have h23 : "FRAME-RATE".toList ≠ "RESOLUTION".toList := by decide
    have h24 : "FRAME-RATE".toList ≠ "CODECS".toList := by decide
    have h34 : "RESOLUTION".toList ≠ "CODECS".toList := by decide
    generalize "BANDWIDTH".toList = bandwidth at *
    generalize "FRAME-RATE".toList = frameRate at *
    generalize "RESOLUTION".toList = resolution at *
    generalize "CODECS".toList = codecs at *
    by_cases h1 : name = bandwidth
    · subst h1
      simp [h12, h13, h14]
    by_cases h2 : name = frameRate
    · subst h2
      simp [h1, h23, h24]
    by_cases h3 : name = resolution
    · subst h3
      simp [h1, h2, h34]
    by_cases h4 : name = codecs
    · subst h4
      simp [h1, h2, h3]
    · simp [h1, h2, h3, h4]

theorem foldlM_ignored (basePath : Str) (p : Parser D) {ls : List Str} (h : ∀ line ∈ ls, Ignored line) :
    (ls.map Text.trim).foldlM (parseLine basePath) p = .ok p := by
  induction ls with
  | nil => rfl
  | cons line ls ih =>
    rw [List.map_cons, List.foldlM_cons, parseLine_ignored basePath p (h line List.mem_cons_self).2]
    exact ih (fun l hl => h l (List.mem_cons_of_mem _ hl))

theorem attributeText_concat (a : Attribute) (rest : List Attribute) (b : Attribute) :
    attributeText (a :: rest ++ [b]) = attributeText (a :: rest) ++ ',' :: b.text := by
  simp [attributeText]

theorem Attribute.WellFormed.isspace_getLast {a : Attribute} (h : a.WellFormed) (hne : a.text ≠ []) :
    Text.isspace (a.text.getLast hne) = false := by
  cases hq : a.quoted with
  | true =>
    have hlast : a.text.getLast hne = '"' := by simp [Attribute.text, hq]
    rw [hlast]
    decide
  | false =>
    cases hv : a.value with
    | nil =>
      have hlast : a.text.getLast hne = '=' := by simp [Attribute.text, hq, hv]
      rw [hlast]
      decide
    | cons c s =>
      have hlast : a.text.getLast hne = (c :: s).getLast (List.cons_ne_nil c s) := by
        simp [Attribute.text, hq, hv]
      have hmem : (c :: s).getLast (List.cons_ne_nil c s) ∈ a.value := by
        rw [hv]
        exact List.getLast_mem _
      rw [hlast]
      exact h.unquoted hq _ hmem

/-- The line of the attributes is as long trimmed as untrimmed. -/
theorem trimRight_attributeText {attributes : List Attribute} (h : ∀ a ∈ attributes, a.WellFormed) :
    Text.trimRight (attributeText attributes) = attributeText attributes := by
  refine Text.trimRight_of_getLast (fun hne => ?_)
  induction attributes using List.reverseRecOn with
  | nil => simp [attributeText] at hne
  | append_singleton front b _ =>
    have hb := h b (by simp)
    cases front with
    | nil =>
      have htext : attributeText ([] ++ [b]) = b.text := by simp [attributeText]
      simp only [htext] at hne ⊢
      exact hb.isspace_getLast hne
    | cons a rest =>
      have hbne : b.text ≠ [] := by simp [Attribute.text]
      simp only [attributeText_concat]
      rw [List.getLast_append_of_ne_nil _ (List.cons_ne_nil _ _), List.getLast_cons hbne]
      exact hb.isspace_getLast hbne

theorem Variant.WellFormed.notMem_info {v : Variant} (h : v.WellFormed) {c : Char}
    (hc : c = '\n' ∨ c = ':' ∧ ∀ a ∈ v.attributes, ':' ∉ a.value) : c ∉ v.info := by
  intro hm
  rcases mem_attributeText hm with he | he | he | ⟨a, ha, hv⟩
  · rcases hc with rfl | ⟨rfl, -⟩ <;> simp at he
  · rcases hc with rfl | ⟨rfl, -⟩ <;> simp at he
  · rcases hc with rfl | ⟨rfl, -⟩ <;> simp at he
  · have hwf := h.attributes a ha
    rcases hv with hv | hv
    · obtain ⟨h1, h2⟩ := hwf.nameChars c hv
      rcases hc with rfl | ⟨rfl, -⟩
      · exact absurd h2 (by decide)
      · exact h1 rfl
    · rcases hc with rfl | ⟨rfl, hcolon⟩
      · exact hwf.valueLine hv
      · exact hcolon a ha hv

theorem Variant.WellFormed.newline_notMem {v : Variant} (h : v.WellFormed) {line : Str}
    (hl : line ∈ v.lines) : '\n' ∉ line := by
  simp only [Variant.lines, List.cons_append, List.mem_cons, List.mem_append] at hl
  rcases hl with rfl | hl | rfl | hl
  · rw [List.mem_append, not_or]
    exact ⟨by decide, h.notMem_info (.inl rfl)⟩
  · exact (h.between line hl).1
  · exact h.uri_line
  · exact (h.after line hl).1

def Variant.read (basePath : Str) (v : Variant) : Stream D :=
  streamOf (basePath ++ v.uri) (parseParameters (v.info.rtakeWhile (· ≠ ':')))

theorem foldlM_lines (basePath : Str) {v : Variant} (h : v.WellFormed)
    (playlist : HlsPrimaryPlaylist D) :
    (v.lines.map Text.trim).foldlM (parseLine basePath)
        { playlist := playlist, frameRate := DoubleText.ofInt 0 } =
      .ok { playlist := { playlist with streams := playlist.streams ++ [v.read basePath] }
            frameRate := DoubleText.ofInt 0 } := by
  have htrim : Text.trim (streamInf ++ v.info) = streamInf ++ v.info := by
    rw [trim_streamInf]
    exact congrArg _ (trimRight_attributeText h.attributes)
  have hbetween := fun p : Parser D => foldlM_ignored basePath p h.between
  have hafter := fun p : Parser D => foldlM_ignored basePath p h.after
  have huri := fun p : Parser D => parseLine_uri basePath p h.uri_ne_nil h.uri_hash
  simp only [Variant.lines, List.cons_append, List.map_cons, List.map_append, List.foldlM_cons,
    List.foldlM_append, htrim, h.uri_trim, parseLine_streamInf, foldl_setParameter, hbetween, hafter,
    huri, bind, Except.bind]
  rfl

theorem foldlM_flatMap_lines (basePath : Str) {variants : List Variant}
    (h : ∀ v ∈ variants, v.WellFormed) (playlist : HlsPrimaryPlaylist D) :
    ((variants.flatMap Variant.lines).map Text.trim).foldlM (parseLine basePath)
        { playlist := playlist, frameRate := DoubleText.ofInt 0 } =
      .ok { playlist := { playlist with
              streams := playlist.streams ++ variants.map (Variant.read basePath) }
            frameRate := DoubleText.ofInt 0 } := by
  induction variants generalizing playlist with
  | nil => simp [pure, Except.pure]
  | cons v variants ih =>
    rw [List.flatMap_cons, List.map_append, List.foldlM_append,
      foldlM_lines basePath (h v List.mem_cons_self)]
    change ((variants.flatMap Variant.lines).map Text.trim).foldlM (parseLine basePath) _ = _
    rw [ih (fun w hw => h w (List.mem_cons_of_mem _ hw))]
    simp

/-- A primary playlist: what stands before the first variant, and the variants. -/
structure Document where
  header : List Str := []
  variants : List Variant

namespace Document

def lines (d : Document) : List Str := "#EXTM3U".toList :: d.header ++ d.variants.flatMap Variant.lines

structure WellFormed (d : Document) : Prop where
  header : ∀ line ∈ d.header, Ignored line
  variants : ∀ v ∈ d.variants, v.WellFormed

theorem WellFormed.newline_notMem {d : Document} (h : d.WellFormed) {line : Str} (hl : line ∈ d.lines) :
    '\n' ∉ line := by
  simp only [lines, List.cons_append, List.mem_cons, List.mem_append, List.mem_flatMap] at hl
  rcases hl with rfl | hl | ⟨v, hv, hl⟩
  · decide
  · exact (h.header line hl).1
  · exact (h.variants v hv).newline_notMem hl

end Document

/-- Every variant is read for itself, whatever the line endings. -/
theorem parse_document (basePath : Str) {d : Document} (h : d.WellFormed) {ls : List (Str × Bool)}
    (hls : ls.map Prod.fst = d.lines) :
    ∃ pl : HlsPrimaryPlaylist D, parse (Text.document ls) basePath = .ok pl ∧
      pl.streams = d.variants.map (Variant.read basePath) := by
  have hline : ∀ l ∈ ls, '\n' ∉ l.1 := fun l hl =>
    h.newline_notMem (hls ▸ List.mem_map_of_mem hl)
  have htrim := Text.trim_getlines_document hline
  rw [hls, Document.lines, List.cons_append, List.map_cons] at htrim
  cases hget : Text.getlines (Text.document ls) with
  | nil => simp [hget] at htrim
  | cons first rest =>
    rw [hget, List.map_cons, List.cons.injEq] at htrim
    obtain ⟨hfirst, hrest⟩ := htrim
    have hfirst' : Text.trim first = "#EXTM3U".toList := hfirst
    rw [List.map_append] at hrest
    simp only [parse, hget, hfirst', hrest, ne_eq, not_true_eq_false, if_false, List.foldlM_append,
      foldlM_ignored basePath _ h.header, foldlM_flatMap_lines basePath h.variants, bind, Except.bind]
    exact ⟨_, rfl, List.nil_append _⟩

theorem readValue_of_name {a : Attribute} (h : a.WellFormed)
    (hname : a.name = "BANDWIDTH".toList ∨ a.name = "FRAME-RATE".toList) : '=' ∉ a.value := by
  intro hm
  rcases hname with hn | hn
  · exact absurd ((h.bandwidth hn).2.1 _ hm) (by decide)
  · exact absurd (h.frameRate hn _ hm) (by decide)

theorem exists_of_valueOf {v : Variant} {name value : Str} (h : v.valueOf name = some value) :
    ∃ a ∈ v.attributes, a.name = name ∧ a.value = value := by
  obtain ⟨a, ha, he⟩ := List.mem_map.mp (OrdMap.mem_of_lastAt h)
  obtain ⟨rfl, rfl⟩ := Prod.mk.inj he
  exact ⟨a, ha, rfl, rfl⟩

theorem Attribute.WellFormed.colon_notMem_text {a : Attribute} (h : a.WellFormed) (hv : ':' ∉ a.value) :
    ':' ∉ a.text := by
  have hname : ':' ∉ a.name := fun hm => (h.nameChars _ hm).1 rfl
  unfold Attribute.text
  cases a.quoted <;> simp [hname, hv]

/-- What stands behind the last colon of the line. -/
theorem info_behind {v : Variant} (h : v.WellFormed) {a : Attribute} {rest : List Attribute}
    (hcolon : lastColon v.attributes = some (a, rest)) :
    v.info.rtakeWhile (· ≠ ':') = a.value.rtakeWhile (· ≠ ':') ++
      ((if a.quoted then ['"'] else []) ++ rest.flatMap fun b => ',' :: b.text) := by
  obtain ⟨⟨front, hfront⟩, ha, hrest⟩ := lastColon_eq_some hcolon
  obtain ⟨pre, hpre⟩ := attributeText_append front a rest
  have htail : ':' ∉ (if a.quoted then ['"'] else []) ++ rest.flatMap fun b => ',' :: b.text := by
    rw [List.mem_append, List.mem_flatMap]
    rintro (hm | ⟨b, hb, hm⟩)
    · split_ifs at hm <;> simp at hm
    · have hwf := h.attributes b (by simp [hfront, hb])
      rcases List.mem_cons.mp hm with hm | hm
      · exact absurd hm (by decide)
      · exact hwf.colon_notMem_text (hrest b hb) hm
  have hsplit : v.info = (pre ++ a.name ++ '=' :: if a.quoted then ['"'] else []) ++
      (a.value ++ ((if a.quoted then ['"'] else []) ++ rest.flatMap fun b => ',' :: b.text)) := by
    rw [Variant.info, hfront, hpre, Attribute.text]
    cases a.quoted <;> simp
  rw [hsplit, Text.rtakeWhile_append_of_mem (List.mem_append_left _ ha),
    Text.rtakeWhile_append_of_notMem htail]

/-- The parameters that are read are the attributes as they look from behind the
last colon. -/
theorem parseParameters_info {v : Variant} (h : v.WellFormed) {name : Str} (hname : name ≠ []) :
    lastAt (parseParameters (v.info.rtakeWhile (· ≠ ':'))) name = lastAt v.behind name := by
  unfold Variant.behind
  cases hcolon : lastColon v.attributes with
  | none =>
    have hnone := lastColon_eq_none hcolon
    rw [Text.rtakeWhile_of_notMem (h.notMem_info (.inr ⟨rfl, hnone⟩))]
    cases hattr : v.attributes with
    | nil =>
      have hn : ¬ [] = name := fun he => hname he.symm
      simp [Variant.info, hattr, attributeText, parseParameters, lastAt, hn]
    | cons a rest =>
      have hvalid : ∀ b ∈ a :: rest, b.Valid := fun b hb => (h.attributes b (hattr ▸ hb)).toValid
      rw [Variant.info, hattr, parseParameters_attributeText hvalid]
  | some split =>
    obtain ⟨a, rest⟩ := split
    obtain ⟨⟨front, hfront⟩, -, -⟩ := lastColon_eq_some hcolon
    have hwf : ∀ b ∈ a :: rest, b.WellFormed := fun b hb =>
      h.attributes b (by rw [hfront]; exact List.mem_append_right _ hb)
    rw [info_behind h hcolon]
    cases hq : a.quoted with
    | true => simp only [hq, if_true, List.singleton_append, parseParameters_eq]
    | false =>
      have hcut := List.rtakeWhile_suffix (fun c => decide (c ≠ ':')) a.value
      have ha := (hwf a List.mem_cons_self).toValid
      have hparams := parseParameters_field (fun hm => ha.noQuote (hcut.subset hm))
        (fun hm => ha.noComma hq (hcut.subset hm))
        (fun b hb => (hwf b (List.mem_cons_of_mem a hb)).toValid)
      simp only [hq, Bool.false_eq_true, if_false, List.nil_append, hparams]

theorem atoi_elim_range (value : Option Str) :
    -2 ^ 31 ≤ value.elim 0 Text.atoi ∧ value.elim 0 Text.atoi < 2 ^ 31 := by
  cases value with
  | none => decide
  | some s => exact Text.toInt32_range _

/-- The bandwidths agree where they agree as numbers of 32 bits. -/
theorem bandwidth_iff {v : Variant} (h : v.WellFormed) (read : Option Str) :
    (read.elim 0 fun s => toUnsignedLong (Text.atoi s)) =
        ((v.valueOf "BANDWIDTH".toList).elim 0 fun s => Nat.ofDigitChars 10 s 0) ↔
      read.elim 0 Text.atoi = (v.valueOf "BANDWIDTH".toList).elim 0 Text.atoi := by
  have hread : (read.elim 0 fun s => toUnsignedLong (Text.atoi s)) =
      toUnsignedLong (read.elim 0 Text.atoi) := by cases read <;> rfl
  have hline : ((v.valueOf "BANDWIDTH".toList).elim 0 fun s => Nat.ofDigitChars 10 s 0) =
      toUnsignedLong ((v.valueOf "BANDWIDTH".toList).elim 0 Text.atoi) := by
    cases hv : v.valueOf "BANDWIDTH".toList with
    | none => rfl
    | some value =>
      obtain ⟨a, ha, hn, rfl⟩ := exists_of_valueOf hv
      obtain ⟨hne, hdigits, hlt⟩ := (h.attributes a ha).bandwidth hn
      rw [Option.elim_some, Option.elim_some, Text.atoi_digits hne hdigits hlt, toUnsignedLong]
      omega
  have hrange := atoi_elim_range read
  have hrange' := atoi_elim_range (v.valueOf "BANDWIDTH".toList)
  rw [hread, hline, toUnsignedLong, toUnsignedLong]
  omega

theorem read_eq_expected_iff (basePath : Str) {v : Variant} (h : v.WellFormed) :
    (v.read basePath : Stream D) = v.expected basePath ↔ v.Readable D := by
  have htext : ∀ read line : Option Str, read.getD [] = line.getD [] ↔ read.elim [] id = line.elim [] id := by
    intro read line
    cases read <;> cases line <;> rfl
  simp only [Variant.read, streamOf, Variant.expected, Stream.mk.injEq, true_and]
  rw [parseParameters_info h (by decide), parseParameters_info h (by decide),
    parseParameters_info h (by decide), parseParameters_info h (by decide), bandwidth_iff h, htext, htext]
  constructor
  · rintro ⟨hresolution, hcodecs, hbandwidth, hframeRate⟩
    exact ⟨hresolution, hcodecs, hbandwidth, hframeRate⟩
  · rintro ⟨hresolution, hcodecs, hbandwidth, hframeRate⟩
    exact ⟨hresolution, hcodecs, hbandwidth, hframeRate⟩

/-- Without colons only an equals sign in one of the two texts does harm. -/
theorem readable_of_noColon {v : Variant} (h : v.WellFormed) (hcolon : lastColon v.attributes = none) :
    v.Readable D ↔ ∀ name ∈ ["RESOLUTION".toList, "CODECS".toList], ∀ value,
      v.valueOf name = some value → '=' ∉ value := by
  have hbehind : ∀ name, lastAt v.behind name = (v.valueOf name).map (·.filter (· ≠ '=')) := by
    intro name
    rw [Variant.behind, hcolon, Variant.valueOf, ← OrdMap.lastAt_map, List.map_map]
    rfl
  have hfilter : ∀ value : Str, value.filter (· ≠ '=') = value ↔ '=' ∉ value := fun value =>
    Attribute.readValue_eq_iff (a := ⟨[], value, false⟩)
  have htext : ∀ name, v.Keeps name [] id ↔ ∀ value, v.valueOf name = some value → '=' ∉ value := by
    intro name
    rw [Variant.Keeps, hbehind]
    cases v.valueOf name with
    | none => simp
    | some value =>
      rw [Option.map_some, Option.elim_some, Option.elim_some, id, id, hfilter]
      simp
  have hnumber : ∀ name, name = "BANDWIDTH".toList ∨ name = "FRAME-RATE".toList →
      lastAt v.behind name = v.valueOf name := by
    intro name hname
    rw [hbehind]
    cases hv : v.valueOf name with
    | none => rfl
    | some value =>
      obtain ⟨a, ha, rfl, rfl⟩ := exists_of_valueOf hv
      rw [Option.map_some, (hfilter a.value).mpr (readValue_of_name (h.attributes a ha) hname)]
  constructor
  · rintro ⟨hresolution, hcodecs, -, -⟩
    simpa using ⟨(htext _).mp hresolution, (htext _).mp hcodecs⟩
  · intro hequals
    refine ⟨(htext _).mpr (hequals _ (by simp)), (htext _).mpr (hequals _ (by simp)), ?_, ?_⟩
    · rw [Variant.Keeps, hnumber _ (.inl rfl)]
    · rw [Variant.Keeps, hnumber _ (.inr rfl)]

/-- Behind a colon in a quoted value no attribute of the line comes through: only
what quoted text looks like is read. -/
theorem keeps_of_quoted {v : Variant} (h : v.WellFormed) {a : Attribute} {rest : List Attribute}
    (hcolon : lastColon v.attributes = some (a, rest)) (hq : a.quoted = true) {name : Str}
    (hname : ',' ∉ name) (hcut : ¬ Imitates name (a.value.rtakeWhile (· ≠ ':')))
    (hrest : ∀ b ∈ rest, b.quoted = true → ¬ Imitates name b.value) {α : Type} (default : α)
    (value : Str → α) : v.Keeps name default value ↔ (v.valueOf name).elim default value = default := by
  obtain ⟨⟨front, hfront⟩, -, -⟩ := lastColon_eq_some hcolon
  have hwf : ∀ b ∈ a :: rest, b.Valid := fun b hb =>
    (h.attributes b (by rw [hfront]; exact List.mem_append_right _ hb)).toValid
  have hquote : '"' ∉ a.value.rtakeWhile (· ≠ ':') := fun hm =>
    (hwf a List.mem_cons_self).noQuote ((List.rtakeWhile_suffix _ _).subset hm)
  have hnone : lastAt v.behind name = none := by
    rw [OrdMap.lastAt_eq_none]
    intro x hx
    rw [Variant.behind, hcolon] at hx
    simp only [hq, if_true] at hx
    obtain ⟨field, hfield, rfl⟩ := List.mem_map.mp hx
    rintro rfl
    rcases name_of_mem_cutFields hquote hfield with hcomma | himitates | hm
    · exact hname hcomma
    · exact hcut himitates
    · rcases name_of_mem_tail (fun b hb => hwf b (List.mem_cons_of_mem a hb)) hm with
        hcomma | ⟨b, hb, hbq, himitates⟩
      · exact hname hcomma
      · exact hrest b hb hbq himitates
  rw [Variant.Keeps, hnone, Option.elim_none, eq_comm]

/-- A line with such a colon can be read if it describes nothing. -/
theorem readable_of_quotedColon {v : Variant} (h : v.WellFormed) (hcolon : v.QuotedColon)
    (basePath : Str) :
    v.Readable D ↔ (v.expected basePath : Stream D) = streamOf (basePath ++ v.uri) [] := by
  obtain ⟨a, rest, hlast, hq, hnames⟩ := hcolon
  have hkeeps : ∀ name ∈ Variant.lookedAt, ',' ∉ name → ∀ {α : Type} (default : α) (value : Str → α),
      v.Keeps name default value ↔ (v.valueOf name).elim default value = default :=
    fun name hm hname α default value =>
      keeps_of_quoted h hlast hq hname (hnames name hm).1 (hnames name hm).2 default value
  have htext : ∀ read : Option Str, read.getD [] = [] ↔ read.elim [] id = [] := by
    intro read
    cases read <;> rfl
  have hbandwidth : ((v.valueOf "BANDWIDTH".toList).elim 0 fun s => Nat.ofDigitChars 10 s 0) = 0 ↔
      (v.valueOf "BANDWIDTH".toList).elim 0 Text.atoi = 0 := by
    rw [eq_comm, @eq_comm Int]
    exact bandwidth_iff h none
  have hdescribes : (v.expected basePath : Stream D) = streamOf (basePath ++ v.uri) [] ↔
      (v.valueOf "RESOLUTION".toList).elim [] id = [] ∧ (v.valueOf "CODECS".toList).elim [] id = [] ∧
      (v.valueOf "BANDWIDTH".toList).elim 0 Text.atoi = 0 ∧
      (v.valueOf "FRAME-RATE".toList).elim (DoubleText.ofInt 0 : D) DoubleText.atof =
        DoubleText.ofInt 0 := by
    rw [← hbandwidth, ← htext, ← htext]
    simp only [Variant.expected, streamOf, Stream.mk.injEq, true_and]
    exact Iff.rfl
  rw [hdescribes, ← hkeeps _ (by decide) (by decide), ← hkeeps _ (by decide) (by decide),
    ← hkeeps _ (by decide) (by decide), ← hkeeps _ (by decide) (by decide)]
  exact ⟨fun ⟨h1, h2, h3, h4⟩ => ⟨h1, h2, h3, h4⟩, fun ⟨h1, h2, h3, h4⟩ => ⟨h1, h2, h3, h4⟩⟩

/-- The streams read are those described exactly when every line can be read
from behind its last colon. A line without colons can be unless there is an equals
sign in one of the two texts, and one with its last colon in quotes only if it
describes nothing, as long as no quoted text looks like an attribute. -/
theorem parse_document_streams_iff (basePath : Str) {d : Document} (h : d.WellFormed)
    {ls : List (Str × Bool)} (hls : ls.map Prod.fst = d.lines) :
    ((∃ pl : HlsPrimaryPlaylist D, parse (Text.document ls) basePath = .ok pl ∧
      pl.streams = d.variants.map (Variant.expected basePath)) ↔ ∀ v ∈ d.variants, v.Readable D) ∧
    ∀ v ∈ d.variants,
      (lastColon v.attributes = none →
        (v.Readable D ↔ ∀ name ∈ ["RESOLUTION".toList, "CODECS".toList], ∀ value,
          v.valueOf name = some value → '=' ∉ value)) ∧
      (v.QuotedColon →
        (v.Readable D ↔ (v.expected basePath : Stream D) = streamOf (basePath ++ v.uri) [])) := by
  refine ⟨?_, fun v hv => ⟨readable_of_noColon (h.variants v hv),
    fun hcolon => readable_of_quotedColon (h.variants v hv) hcolon basePath⟩⟩
  obtain ⟨pl, hpl, hstreams⟩ := parse_document (D := D) basePath h hls
  have hmap : pl.streams = d.variants.map (Variant.expected basePath) ↔
      ∀ v ∈ d.variants, v.Readable D := by
    rw [hstreams, List.map_inj_left]
    exact forall₂_congr fun v hv => read_eq_expected_iff basePath (h.variants v hv)
  rw [← hmap]
  constructor
  · rintro ⟨pl', hpl', hstreams'⟩
    rw [hpl] at hpl'
    cases hpl'
    exact hstreams'
  · exact fun he => ⟨pl, hpl, he⟩

section Example

def bandwidthAttribute : Attribute := ⟨"BANDWIDTH".toList, "5000".toList, false⟩

def nameAttribute (quoted : Bool) : Attribute := ⟨"NAME".toList, "a:b".toList, quoted⟩

/-- One variant with the attributes. -/
def soleVariant (attributes : List Attribute) : Document where
  variants := [{ attributes := attributes, uri := "v.m3u8".toList }]

def mixedEndings (d : Document) : List (Str × Bool) := d.lines.map fun line => (line, line.length > 10)

theorem mixedEndings_lines (d : Document) : (mixedEndings d).map Prod.fst = d.lines := by
  rw [mixedEndings, List.map_map]
  exact List.map_id _

theorem wellFormed_bandwidthAttribute : bandwidthAttribute.WellFormed := by
  have hname : ∀ c ∈ "BANDWIDTH".toList,
      (c ≠ '"' ∧ c ≠ ',' ∧ c ≠ '=') ∧ c ≠ ':' ∧ Text.isspace c = false := by
    simp [Text.isspace]
  have hdigits : ∀ c ∈ "5000".toList, c.isDigit = true := by simp
  exact ⟨⟨fun c hc => (hname c hc).1, by decide, by decide⟩, fun c hc => (hname c hc).2, by decide,
    fun _ c hc => Text.isspace_of_isDigit (hdigits c hc), fun _ => ⟨by decide, hdigits, by decide⟩,
    fun h => absurd h (show "BANDWIDTH".toList ≠ "FRAME-RATE".toList by decide)⟩

theorem wellFormed_nameAttribute (quoted : Bool) : (nameAttribute quoted).WellFormed := by
  have hname : ∀ c ∈ "NAME".toList, (c ≠ '"' ∧ c ≠ ',' ∧ c ≠ '=') ∧ c ≠ ':' ∧ Text.isspace c = false := by
    simp [Text.isspace]
  have hvalue : ∀ c ∈ "a:b".toList, (c ≠ '"' ∧ c ≠ ',') ∧ c ≠ '\n' ∧ Text.isspace c = false := by
    simp [Text.isspace]
  exact ⟨⟨fun c hc => (hname c hc).1, fun hm => (hvalue _ hm).1.1 rfl, fun _ hm => (hvalue _ hm).1.2 rfl⟩,
    fun c hc => (hname c hc).2, fun hm => (hvalue _ hm).2.1 rfl, fun _ c hc => (hvalue c hc).2.2,
    fun h => absurd h (show "NAME".toList ≠ "BANDWIDTH".toList by decide),
    fun h => absurd h (show "NAME".toList ≠ "FRAME-RATE".toList by decide)⟩

theorem wellFormed_soleVariant {attributes : List Attribute} (h : ∀ a ∈ attributes, a.WellFormed) :
    (soleVariant attributes).WellFormed := by
  have huri : "v.m3u8".toList ≠ [] ∧ Text.startsWith ['#'] "v.m3u8".toList = false ∧
      '\n' ∉ "v.m3u8".toList ∧ Text.trim "v.m3u8".toList = "v.m3u8".toList := by decide
  refine ⟨by simp [soleVariant], fun v hv => ?_⟩
  cases List.mem_singleton.mp hv
  exact ⟨h, by simp, by simp, huri.1, huri.2.1, huri.2.2.1, huri.2.2.2⟩

/-- With a colon in the quoted name the bandwidth is lost. -/
theorem colon_in_value_cuts_line :
    (soleVariant [bandwidthAttribute, nameAttribute true]).WellFormed ∧
    ¬ ∃ pl : HlsPrimaryPlaylist Int,
      parse (Text.document (mixedEndings (soleVariant [bandwidthAttribute, nameAttribute true])))
          "dir/".toList = .ok pl ∧
        pl.streams = (soleVariant [bandwidthAttribute, nameAttribute true]).variants.map
          (Variant.expected "dir/".toList) := by
  constructor
  · refine wellFormed_soleVariant fun a ha => ?_
    rcases List.mem_pair.mp ha with rfl | rfl
    · exact wellFormed_bandwidthAttribute
    · exact wellFormed_nameAttribute true
  · rintro ⟨pl, hpl, hstreams⟩
    have hparse : (parse (Text.document (mixedEndings (soleVariant [bandwidthAttribute, nameAttribute true])))
        "dir/".toList : Except Fault (HlsPrimaryPlaylist Int)) =
        .ok { streams := [⟨"dir/v.m3u8".toList, [], [], 0, 0⟩] } := by decide +kernel
    rw [hparse] at hpl
    cases hpl
    exact absurd hstreams (by decide +kernel)

/-- Before the bandwidth, and without quotes, the colon does no harm. -/
theorem colon_before_bandwidth_read :
    ∃ pl : HlsPrimaryPlaylist Int,
      parse (Text.document (mixedEndings (soleVariant [nameAttribute false, bandwidthAttribute])))
          "dir/".toList = .ok pl ∧
        pl.streams = (soleVariant [nameAttribute false, bandwidthAttribute]).variants.map
          (Variant.expected "dir/".toList) := by
  have hwf : ∀ a ∈ [nameAttribute false, bandwidthAttribute], a.WellFormed := by
    intro a ha
    rcases List.mem_pair.mp ha with rfl | rfl
    · exact wellFormed_nameAttribute false
    · exact wellFormed_bandwidthAttribute
  have hreadable : ∀ v ∈ (soleVariant [nameAttribute false, bandwidthAttribute]).variants,
      v.Readable Int := by
    intro v hv
    cases List.mem_singleton.mp hv
    refine ⟨?_, ?_, ?_, ?_⟩ <;> unfold Variant.Keeps <;> decide +kernel
  exact (parse_document_streams_iff _ (wellFormed_soleVariant hwf) (mixedEndings_lines _)).1.mpr hreadable

end Example

end HlsPrimaryPlaylist

end MbmsMiddleware
