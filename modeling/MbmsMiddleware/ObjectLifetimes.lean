import MbmsMiddleware.FileRequests
import MbmsMiddleware.Registry
import MbmsMiddleware.SegmentLifetimes
import MbmsMiddleware.SegmentOwners

/-! How long objects live. The middleware holds its services, these their streams,
and the description under way what it has made. Segments are shared by windows and
items. What is reached through a plain reference has to live still. -/

namespace MbmsMiddleware

/-- The owner of the text that an item reads through its callback. -/
def CacheItem.textOwner? : CacheItem → Option PlaylistOwner
  | .playlist _ _ owner | .manifest _ _ owner => some owner
  | .file .. | .segment .. => none

namespace World

variable {D : Type} (w : World D)

/-- A segment is in a window or in the item map. -/
def HasSegment (x : Nat) : Prop :=
  (∃ a ∈ List.range w.nextStream, ∃ e ∈ (w.segmentsAt a).entries, e.2 = x) ∨
    w.memory.cache.Shares x

instance (x : Nat) : Decidable (w.HasSegment x) := inferInstanceAs (Decidable (_ ∨ _))

/-- An owner is registered, or was made for the description under way. -/
def Lives (firstStream firstService : Nat) : PlaylistOwner → Prop
  | .service a => w.registry.Keeps (.service a) ∨ firstService ≤ a
  | .stream a => w.registry.Keeps (.stream a) ∨ firstStream ≤ a

instance (firstStream firstService : Nat) :
    (owner : PlaylistOwner) → Decidable (w.Lives firstStream firstService owner)
  | .service _ | .stream _ => inferInstanceAs (Decidable (_ ∨ _))

/-- No seamless stream has been let go. The destructor of one cancels its timer,
and the handler that is called then reads what is freed. -/
def KeepsStreams (firstStream : Nat) : Prop :=
  ∀ a ∈ List.range w.nextStream, w.registry.seamless a = true →
    w.registry.Keeps (.stream a) ∨ firstStream ≤ a

instance (firstStream : Nat) : Decidable (w.KeepsStreams firstStream) :=
  inferInstanceAs (Decidable (∀ a ∈ List.range w.nextStream, _ → _))

end World

namespace Request

variable {D : Type} (env : RestEnvironment D)

/-- The owner of the text that a call reads. -/
def textRead (s : RestState D) : RestCall D → Option PlaylistOwner
  | .buffer l | .contentLength l => (s.item? l).bind CacheItem.textOwner?
  | _ => none

/-- The next call of a request is defined: what it throws is an exception, and
the owner of the text that it reads lives. -/
def Defined (lives : PlaylistOwner → Prop) (q : Request D) (s : RestState D) : Prop :=
  match q.program with
  | .call op _ => (∀ e ∈ (RestState.perform env op s).fault?, e.isException = true) ∧
      ∀ owner ∈ textRead s op, lives owner
  | .throw e => e.isException = true
  | .pure _ => True

instance (lives : PlaylistOwner → Prop) [DecidablePred lives] (q : Request D) (s : RestState D) :
    Decidable (q.Defined env lives s) := by
  unfold Defined
  split <;> infer_instance

end Request

end MbmsMiddleware
