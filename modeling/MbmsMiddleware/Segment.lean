import MbmsMiddleware.Cache

/-! Segments, and what the entries of the item map answer. -/

namespace MbmsMiddleware

/-- A `Segment`; `cdnClient` is the base URL of its client. -/
structure Segment (D : Type) where
  contentLocation : Str
  seq : Int
  extinf : D
  cdnClient : Option Str := none
  fluteFile : Option FluteFile := none
  cdnFile : Option Str := none
  contentReceivedAt : Nat := 0

namespace Segment

variable {D : Type}

def uri (s : Segment D) : Str := s.contentLocation

def setCdnClient (s : Segment D) (client : Str) : Segment D := { s with cdnClient := some client }

def setFluteFile (s : Segment D) (file : FluteFile) : Segment D :=
  { s with fluteFile := some file, contentReceivedAt := file.receivedAt }

/-- The completion callback that `fetch_from_cdn` hands to the client. -/
def cdnFileReceived (s : Segment D) (now : Nat) (file : Str) : Segment D :=
  { s with contentReceivedAt := now, cdnFile := some file }

def completeFluteFile (s : Segment D) : Option FluteFile := s.fluteFile.filter (·.complete)

/-- The bytes returned, `none` for a null pointer, and whether the CDN is asked. -/
def buffer (s : Segment D) : Option Str × Bool :=
  match s.completeFluteFile, s.cdnFile with
  | some file, _ => (some file.buffer, false)
  | none, some file => (some file, false)
  | none, none => (none, s.cdnClient.isSome)

def contentLength (s : Segment D) : Nat :=
  match s.completeFluteFile, s.cdnFile with
  | some file, _ => file.buffer.length % 2 ^ 32
  | none, some file => file.length % 2 ^ 32
  | none, none => 0

def dataSource (s : Segment D) : ItemSource :=
  match s.completeFluteFile, s.cdnFile with
  | some _, _ => .broadcast
  | none, some _ => .cdn
  | none, none => .unavailable

end Segment

/-- The objects that cache entries refer to: `segment` by address, and the
text a generated entry's callback returns. -/
structure Objects (D : Type) where
  segment : Nat → Segment D
  text : PlaylistOwner → Str

def CacheItem.generated : CacheItem → Bool
  | .file .. | .segment .. => false
  | .playlist .. | .manifest .. => true

variable {D : Type}

def itemView (objects : Objects D) : ItemView CacheItem where
  receivedAt
    | .file _ receivedAt _ => some receivedAt
    | .segment _ _ address => some (objects.segment address).contentReceivedAt
    | .playlist .. | .manifest .. => none
  contentLength
    | .file _ _ file => file.buffer.length % 2 ^ 32
    | .segment _ _ address => (objects.segment address).contentLength
    | .playlist _ _ owner | .manifest _ _ owner => (objects.text owner).length % 2 ^ 32

theorem itemView_receivedAt_eq_none {objects : Objects D} {item : CacheItem} :
    (itemView objects).receivedAt item = none ↔ item.generated = true := by
  cases item <;> simp [itemView, CacheItem.generated]

end MbmsMiddleware
