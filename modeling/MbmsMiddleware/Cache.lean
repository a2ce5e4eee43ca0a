import MbmsMiddleware.Basic
import MbmsMiddleware.OrdMap
import Mathlib.Data.Char
import Mathlib.Data.List.Lex
import Mathlib.Order.Monotone.Defs
import Mathlib.Algebra.BigOperators.Group.List.Basic

/-! The item map and its housekeeping pass. -/

namespace MbmsMiddleware

/-- The object that the callback of a generated entry refers to. -/
inductive PlaylistOwner where
  | service (address : Nat)
  | stream (address : Nat)
  deriving DecidableEq, Repr

inductive CacheItem where
  | file (contentLocation : Str) (receivedAt : Nat) (file : FluteFile)
  | segment (contentLocation : Str) (receivedAt : Nat) (address : Nat)
  | playlist (contentLocation : Str) (receivedAt : Nat) (owner : PlaylistOwner)
  | manifest (contentLocation : Str) (receivedAt : Nat) (owner : PlaylistOwner)
  deriving DecidableEq, Repr

def CacheItem.contentLocation : CacheItem → Str
  | .file l _ _ | .segment l _ _ | .playlist l _ _ | .manifest l _ _ => l

abbrev Cache := OrdMap Str CacheItem

def Cache.addItem (c : Cache) (item : CacheItem) : Cache := c.set item.contentLocation item

def Cache.removeItem (c : Cache) (location : Str) : Cache := c.erase location

/-- What the virtual functions of an item return. `receivedAt` is `none` for
a generated item, which answers with the time of the call. -/
structure ItemView (ι : Type) where
  receivedAt : ι → Option Nat
  contentLength : ι → Nat

/-- The values that successive calls of `time(nullptr)` return. -/
structure Clock where
  reading : Nat → Nat
  monotone : Monotone reading
  lt : ∀ n, reading n < 2 ^ 63

/-- The settings, both `unsigned`, and whether the compiled subtraction
`time(nullptr) - received_at()` evaluates its left operand first. -/
structure CacheManagement where
  maxCacheSize : Nat
  maxCacheFileAge : Nat
  timeFirst : Bool
  maxCacheSize_lt : maxCacheSize < 2 ^ 32
  maxCacheFileAge_lt : maxCacheFileAge < 2 ^ 32

namespace CacheManagement

/-- The constructor: a missing setting leaves the member's default. -/
def ofSettings (maxTotalSize maxFileAge : Option (Fin (2 ^ 32))) (timeFirst : Bool) :
    CacheManagement where
  maxCacheSize := ((maxTotalSize.elim 512 Fin.val) * (1024 * 1024)) % 2 ^ 32
  maxCacheFileAge := maxFileAge.elim 30 Fin.val
  timeFirst := timeFirst
  maxCacheSize_lt := Nat.mod_lt _ (by decide)
  maxCacheFileAge_lt := by cases maxFileAge <;> simp

variable {ι : Type} (cfg : CacheManagement) (view : ItemView ι) (clock : Clock)

/-- A call of `received_at()` when the clock has been read `tick` times. -/
def readReceivedAt (tick : Nat) (item : ι) : Nat × Nat :=
  match view.receivedAt item with
  | some r => (r, tick)
  | none => (clock.reading tick, tick + 1)

/-- `time(nullptr) - received_at()` in `unsigned long`. -/
def readAge (tick : Nat) (item : ι) : Nat × Nat :=
  if cfg.timeFirst then
    let now := clock.reading tick
    let (received, tick) := readReceivedAt view clock (tick + 1) item
    ((((now : Int) - received) % 2 ^ 64).toNat, tick)
  else
    let (received, tick) := readReceivedAt view clock tick item
    let now := clock.reading tick
    ((((now : Int) - received) % 2 ^ 64).toNat, tick + 1)

/-- `std::multimap::insert`: behind the entries with the same key. -/
def insertByAge (age : Nat) (location : Str) (items : List (Nat × Str)) : List (Nat × Str) :=
  items.takeWhile (·.1 ≤ age) ++ (age, location) :: items.dropWhile (·.1 ≤ age)

/-- The first loop of `checkFileExpiryAndCacheSize`, over the entries the map
had when it started. -/
def expiryLoop : List ((_ : Str) × ι) → Nat → OrdMap Str ι → List (Nat × Str) →
    OrdMap Str ι × List (Nat × Str)
  | [], _, cache, itemsByAge => (cache, itemsByAge)
  | ⟨location, item⟩ :: rest, tick, cache, itemsByAge =>
    let (received, tick) := readReceivedAt view clock tick item
    if received ≠ 0 then
      let (age, tick) := readAge cfg view clock tick item
      if age > cfg.maxCacheFileAge then
        expiryLoop rest tick (cache.erase location) itemsByAge
      else
        expiryLoop rest tick cache (insertByAge (age % 2 ^ 32) location itemsByAge)
    else expiryLoop rest tick cache itemsByAge

/-- The second loop. The total keeps counting the items it deletes. -/
def sizeLoop : List (Nat × Str) → Nat → OrdMap Str ι → OrdMap Str ι
  | [], _, cache => cache
  | (_, location) :: rest, totalSize, cache =>
    let length := (cache.find? location).elim 0 view.contentLength
    let totalSize := (totalSize + length) % 2 ^ 32
    if totalSize > cfg.maxCacheSize then sizeLoop rest totalSize (cache.erase location)
    else sizeLoop rest totalSize cache

def checkFileExpiryAndCacheSize (cache : OrdMap Str ι) : OrdMap Str ι :=
  let (cache, itemsByAge) := expiryLoop cfg view clock cache.entries 0 cache []
  sizeLoop cfg view itemsByAge 0 cache

end CacheManagement

end MbmsMiddleware
