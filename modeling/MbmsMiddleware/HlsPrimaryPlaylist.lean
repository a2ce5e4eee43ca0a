import MbmsMiddleware.Basic

/-! Primary playlists: the parser and the printer. -/

namespace MbmsMiddleware

structure HlsPrimaryPlaylist.Stream (D : Type) where
  uri : Str
  resolution : Str
  codecs : Str
  bandwidth : Nat
  frameRate : D
  deriving DecidableEq, Repr

structure HlsPrimaryPlaylist (D : Type) where
  version : Int := -1
  streams : List (HlsPrimaryPlaylist.Stream D) := []
  deriving DecidableEq, Repr

namespace HlsPrimaryPlaylist

variable {D : Type} [DoubleText D]

/-- The loop variables of `parseParameters`. -/
structure Parameters where
  quoted : Bool := false
  inKey : Bool := true
  key : Str := []
  value : Str := []
  result : List (Str × Str) := []

def parseParameter (p : Parameters) (c : Char) : Parameters :=
  if c = '"' then { p with quoted := !p.quoted }
  else if c = ',' ∧ p.quoted = false then
    { p with result := p.result ++ [(p.key, p.value)], key := [], value := [], inKey := true }
  else if c = '=' then { p with inKey := false }
  else if p.inKey then { p with key := p.key ++ [c] }
  else { p with value := p.value ++ [c] }

def parseParameters (line : Str) : List (Str × Str) :=
  let p := line.foldl parseParameter {}
  p.result ++ [(p.key, p.value)]

/-- The local variables of the parsing loop next to the playlist read so far. -/
structure Parser (D : Type) where
  playlist : HlsPrimaryPlaylist D := {}
  resolution : Str := []
  codecs : Str := []
  bandwidth : Nat := 0
  frameRate : D

/-- `unsigned long` from `int`. -/
def toUnsignedLong (i : Int) : Nat := (i % 2 ^ 64).toNat

def setParameter (p : Parser D) (param : Str × Str) : Parser D :=
  if param.1 = "BANDWIDTH".toList then { p with bandwidth := toUnsignedLong (Text.atoi param.2) }
  else if param.1 = "FRAME-RATE".toList then { p with frameRate := DoubleText.atof param.2 }
  else if param.1 = "RESOLUTION".toList then { p with resolution := param.2 }
  else if param.1 = "CODECS".toList then { p with codecs := param.2 }
  else p

/-- One trimmed line after the first. -/
def parseLine (basePath : Str) (p : Parser D) (line : Str) : Except Fault (Parser D) :=
  let value := Text.afterLast ':' line
  if Text.startsWith "#EXT-X-VERSION".toList line then
    if p.playlist.version ≠ -1 then
      throw (.cString "HLS playlist parsing failed: duplicate #EXT-X-VERSION".toList)
    else match value with
      | some v => pure { p with playlist.version := Text.atoi v }
      | none => pure p
  else if Text.startsWith "#EXT-X-STREAM-INF".toList line then
    match value with
    | some v => pure ((parseParameters v).foldl setParameter p)
    | none => pure p
  else if Text.startsWith ['#'] line then pure p
  else if line.length > 0 then
    pure { playlist := { p.playlist with
             streams := p.playlist.streams ++
               [⟨basePath ++ line, p.resolution, p.codecs, p.bandwidth, p.frameRate⟩] }
           frameRate := DoubleText.ofInt 0 }
  else pure p

def parse (content basePath : Str) : Except Fault (HlsPrimaryPlaylist D) :=
  match Text.getlines content with
  | [] => pure {}
  | first :: rest =>
    if Text.trim first ≠ "#EXTM3U".toList then
      throw (.cString "HLS playlist parsing failed: first line is not #EXTM3U".toList)
    else do
      let p ← (rest.map Text.trim).foldlM (parseLine basePath) { frameRate := DoubleText.ofInt 0 }
      pure p.playlist

theorem parseLine_fault {basePath line : Str} {p : Parser D} {e : Fault}
    (h : parseLine basePath p line = .error e) : e.isException = true := by
  unfold parseLine at h
  dsimp only at h
  split at h
  · split at h
    · cases h
      rfl
    · split at h <;> cases h
  · split at h
    · split at h <;> cases h
    · split at h
      · cases h
      · split at h <;> cases h

theorem parse_fault {content basePath : Str} {e : Fault}
    (h : (parse content basePath : Except Fault (HlsPrimaryPlaylist D)) = .error e) :
    e.isException = true := by
  unfold parse at h
  split at h
  · cases h
  · split at h
    · cases h
      rfl
    · rcases Except.eq_error_of_bind h with h | ⟨p, _, h⟩
      · obtain ⟨p, line, _, h⟩ := Except.eq_error_of_foldlM h
        exact parseLine_fault h
      · cases h

def streamLines (s : Stream D) : List Str :=
  ["#EXT-X-STREAM-INF:BANDWITH=".toList ++ Text.showInt s.bandwidth ++
     ",RESOLUTION=".toList ++ s.resolution ++
     ",FRAME-RATE=".toList ++ DoubleText.putFixed3 s.frameRate ++
     ",CODECS=\"".toList ++ s.codecs ++ ['"'],
   s.uri]

def toString (pl : HlsPrimaryPlaylist D) : Str :=
  Text.unlines (["#EXTM3U".toList, "#EXT-X-VERSION:3".toList] ++ pl.streams.flatMap streamLines)

end HlsPrimaryPlaylist

end MbmsMiddleware
