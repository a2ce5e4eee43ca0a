import MbmsMiddleware.StreamRuns

/-! The lives of segments. A segment is shared by the window of its stream and
by its items; when both are gone it is destroyed, and a download that ends after
that writes into freed memory. -/

namespace MbmsMiddleware

/-- The address of the segment that an item refers to. -/
def CacheItem.segment? : CacheItem → Option Nat
  | .segment _ _ address => some address
  | .file .. | .playlist .. | .manifest .. => none

theorem CacheItem.eq_segment {item : CacheItem} {x : Nat} (h : item.segment? = some x) :
    ∃ l r, item = .segment l r x := by
  cases item <;> cases h
  exact ⟨_, _, rfl⟩

/-- The item map has an item of the segment. -/
def Cache.Shares (cache : Cache) (address : Nat) : Prop :=
  ∃ e ∈ cache.entries, e.2.segment? = some address

instance (cache : Cache) (address : Nat) : Decidable (cache.Shares address) :=
  inferInstanceAs (Decidable (∃ e ∈ cache.entries, e.2.segment? = some address))

theorem Cache.shares_iff {cache : Cache} {address : Nat} : cache.Shares address ↔
    ∃ l l' r, cache.find? l = some (.segment l' r address) := by
  constructor
  · rintro ⟨e, he, hx⟩
    obtain ⟨l', r, hitem⟩ := CacheItem.eq_segment hx
    exact ⟨e.1, l', r, by rw [← hitem]; exact OrdMap.find?_eq_some.mpr he⟩
  · rintro ⟨l, l', r, hl⟩
    exact ⟨_, OrdMap.find?_eq_some.mp hl, rfl⟩

namespace SeamlessContentStream

variable {D : Type}

/-- The stream's segment at the address has not been destroyed. -/
def Alive (st : SeamlessContentStream D × Memory D) (address : Nat) : Prop :=
  (∃ k, st.1.segments.find? k = some address) ∨ st.2.cache.Shares address

instance (st : SeamlessContentStream D × Memory D) (address : Nat) : Decidable (Alive st address) :=
  inferInstanceAs (Decidable (_ ∨ _))

/-- The segments from `first` on are the stream's. A download that ends does so
for a segment that is still there. -/
def Defined (first : Nat) (st : SeamlessContentStream D × Memory D) : StreamEvent → Prop
  | .cdnFile address _ _ => first ≤ address → address < st.2.nextSegment → Alive st address
  | .playlist _ | .fluteFile .. | .cacheCheck .. => True

instance (first : Nat) (st : SeamlessContentStream D × Memory D) :
    (e : StreamEvent) → Decidable (Defined first st e)
  | .cdnFile .. => inferInstanceAs (Decidable (_ → _ → _))
  | .playlist _ | .fluteFile .. | .cacheCheck .. => inferInstanceAs (Decidable True)

variable [DoubleText D] (cfg : CacheManagement)

/-- `none` once a step was undefined: nothing is known of the stream from there on. -/
def definedStep (first : Nat) (st? : Option (SeamlessContentStream D × Memory D))
    (e : StreamEvent) : Option (SeamlessContentStream D × Memory D) :=
  st?.bind fun st => if Defined first st e then some (streamStep cfg st e) else none

theorem definedStep_eq_some {first : Nat} {st : SeamlessContentStream D × Memory D} {e : StreamEvent}
    (h : Defined first st e) : definedStep cfg first (some st) e = some (streamStep cfg st e) := if_pos h

theorem definedStep_eq_none {first : Nat} {st : SeamlessContentStream D × Memory D} {e : StreamEvent}
    (h : ¬ Defined first st e) : definedStep cfg first (some st) e = none := if_neg h

end SeamlessContentStream

end MbmsMiddleware
