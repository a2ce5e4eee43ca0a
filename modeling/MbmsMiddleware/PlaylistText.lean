import MbmsMiddleware.HlsMediaPlaylist

/-! What a client finds in the text of a media playlist: tags on lines that
start with `#`, and between them the lines with the URIs. -/

namespace MbmsMiddleware

namespace PlaylistText

open HlsMediaPlaylist

/-- The value that a line gives a tag. -/
def tagValue (tag line : Str) : Option Str :=
  if Text.startsWith (tag ++ [':']) line then some (line.drop (tag.length + 1)) else none

/-- The URIs, each with the duration that was announced for it. -/
def entries (extinf : Option Str) : List Str → List (Option Str × Str)
  | [] => []
  | line :: lines =>
    if line = [] then entries extinf lines
    else if Text.startsWith ['#'] line then entries ((tagValue extinfTag line).or extinf) lines
    else (extinf, line) :: entries none lines

/-- The media sequence number, if there is one. -/
def mediaSequence (text : Str) : Option Int :=
  ((Text.getlines text).findSome? (tagValue extXMediaSequence)).map Text.atoi

theorem tagValue_append (tag value : Str) : tagValue tag (tag ++ ':' :: value) = some value := by
  have hsplit : tag ++ ':' :: value = (tag ++ [':']) ++ value := by simp
  rw [tagValue, hsplit, if_pos (Text.startsWith_append _ _)]
  simp [List.drop_append]

/-- A line that begins like another tag says nothing of this one. -/
theorem tagValue_other {tag other : Str} (h : ¬ (tag ++ [':']) <+: other)
    (h' : ¬ other <+: tag ++ [':']) (value : Str) : tagValue tag (other ++ value) = none := by
  rw [tagValue, Text.startsWith_append_eq_false h h', if_neg (by decide)]

section Entries

variable {extinf : Option Str} {lines : List Str}

theorem entries_extinf (value : Str) :
    entries extinf ((extinfTag ++ ':' :: value) :: lines) = entries (some value) lines := by
  have hne : extinfTag ++ ':' :: value ≠ [] := by simp
  have hhash : Text.startsWith ['#'] (extinfTag ++ ':' :: value) = true := rfl
  rw [entries, if_neg hne, if_pos hhash, tagValue_append]
  rfl

theorem entries_other {other : Str} (hhash : Text.startsWith ['#'] other = true)
    (h : ¬ (extinfTag ++ [':']) <+: other) (h' : ¬ other <+: extinfTag ++ [':']) (value : Str) :
    entries extinf ((other ++ value) :: lines) = entries extinf lines := by
  have hstart : Text.startsWith ['#'] (other ++ value) = true := by
    cases other with
    | nil => cases hhash
    | cons c other => exact hhash
  have hne : other ++ value ≠ [] := by
    intro he
    rw [he] at hstart
    cases hstart
  rw [entries, if_neg hne, if_pos hstart, tagValue_other h h']
  rfl

theorem entries_uri (uri : Str) :
    entries extinf (('/' :: uri) :: lines) = (extinf, '/' :: uri) :: entries none lines := by
  rw [entries, if_neg (List.cons_ne_nil _ _), if_neg (by simp [Text.startsWith])]

end Entries

variable {D : Type} [DoubleText D]

/-- A client finds these segments listed, and the number of the first. -/
structure Lists (text : Str) (segments : List (HlsMediaPlaylist.Segment D)) : Prop where
  header : (Text.getlines text).head? = some extm3u
  mediaSequence : mediaSequence text = segments.head?.map (·.seq)
  entries : entries none (Text.getlines text) =
    segments.map fun x => (some (DoubleText.put x.extinf), '/' :: x.uri)

theorem entries_segmentLines (extinf : Option Str) (segments : List (HlsMediaPlaylist.Segment D)) :
    entries extinf (segments.flatMap segmentLines) =
      segments.map fun x => (some (DoubleText.put x.extinf), '/' :: x.uri) := by
  induction segments generalizing extinf with
  | nil => rfl
  | cons x segments ih =>
    rw [List.flatMap_cons, segmentLines, List.cons_append, List.cons_append, List.nil_append,
      entries_extinf, entries_uri, ih, List.map_cons]

theorem entries_lines (pl : HlsMediaPlaylist D) :
    entries none pl.lines = pl.segments.map fun x => (some (DoubleText.put x.extinf), '/' :: x.uri) := by
  have hfirst : ∀ lines, entries none (extm3u :: (extXVersion ++ [':', '3']) :: lines) =
      entries none lines := by
    intro lines
    have hheader : entries none ((extm3u ++ []) :: (extXVersion ++ [':', '3']) :: lines) =
        entries none ((extXVersion ++ [':', '3']) :: lines) :=
      entries_other rfl (by decide) (by decide) []
    rw [List.append_nil] at hheader
    rw [hheader, entries_other rfl (by decide) (by decide)]
  rw [lines, List.append_assoc, List.cons_append, List.cons_append, List.nil_append, hfirst]
  cases hs : pl.segments with
  | nil => rfl
  | cons x segments =>
    dsimp only
    rw [List.cons_append, List.cons_append, List.nil_append,
      entries_other rfl (by decide) (by decide), entries_other rfl (by decide) (by decide)]
    exact entries_segmentLines none (x :: segments)

theorem findSome?_lines (pl : HlsMediaPlaylist D) :
    pl.lines.findSome? (tagValue extXMediaSequence) =
      pl.segments.head?.map fun x => Text.showInt x.seq := by
  have hheader : tagValue extXMediaSequence extm3u = none := by decide
  have hversion : tagValue extXMediaSequence (extXVersion ++ [':', '3']) = none := by decide
  rw [lines, List.append_assoc, List.cons_append, List.cons_append, List.nil_append,
    List.findSome?_cons_of_isNone (by rw [hheader]; rfl),
    List.findSome?_cons_of_isNone (by rw [hversion]; rfl)]
  cases hs : pl.segments with
  | nil => rfl
  | cons x segments =>
    have htarget : tagValue extXMediaSequence
        (extXTargetduration ++ ':' :: Text.showInt pl.targetduration) = none :=
      tagValue_other (by decide) (by decide) _
    have hnumber := tagValue_append extXMediaSequence (Text.showInt x.seq)
    dsimp only
    rw [List.cons_append, List.cons_append, List.findSome?_cons_of_isNone (by rw [htarget]; rfl),
      List.findSome?_cons_of_isSome (by rw [hnumber]; rfl), hnumber]
    rfl

/-- A printed playlist lists its segments. -/
theorem lists_toString [LawfulDoubleText D] {pl : HlsMediaPlaylist D}
    (huri : ∀ x ∈ pl.segments, '\n' ∉ x.uri)
    (hseq : ∀ x ∈ pl.segments, -2 ^ 31 ≤ x.seq ∧ x.seq < 2 ^ 31) : Lists pl.toString pl.segments := by
  have hlines : Text.getlines pl.toString = pl.lines :=
    Text.getlines_unlines (newline_notMem_lines huri)
  constructor
  · rw [hlines]
    rfl
  · rw [PlaylistText.mediaSequence, hlines, findSome?_lines]
    cases hs : pl.segments with
    | nil => rfl
    | cons x segments =>
      obtain ⟨hlo, hhi⟩ := hseq x (by simp [hs])
      simp [Text.atoi_showInt hlo hhi]
  · rw [hlines, entries_lines]

end PlaylistText

end MbmsMiddleware
