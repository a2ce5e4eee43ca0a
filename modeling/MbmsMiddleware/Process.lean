import MbmsMiddleware.AnnouncementReception
import MbmsMiddleware.Json

/-! The middleware process: its start-up with a local service announcement, and
the tick that looks for an announcement channel and keeps the cache in order. -/

namespace MbmsMiddleware

/-- What the process reads beside what announcements take: the bootstrap file,
empty where it cannot be opened. -/
structure ProcessEnvironment (D : Type) extends ReceptionEnvironment D where
  readFile : Str → Str

structure ProcessConfig extends Config where
  localServiceEnabled : Bool := false
  localBootstrapFile : Str := []
  localTmgi : Str := []
  serviceAnnouncementTsi : Nat := 0
  cacheManagement : CacheManagement

/-- The class `Middleware`. `timer` is the time at which the tick timer expires
next, in seconds, and `armed` tells whether the handler waits for it. -/
structure Process (D : Type) where
  world : World D
  serviceAnnouncement : Option ServiceAnnouncement := none
  timer : Nat := 1
  armed : Bool := false

abbrev ProcessAction (D α : Type) := EStateM Fault (Process D) α

def World.objects {D : Type} (w : World D) : Objects D where
  segment := w.memory.segment
  text
    | .service address => (w.service address).manifest
    | .stream address => ((w.stream address).asSeamless?.map (·.playlist)).getD []

def isHexDigit (c : Char) : Bool :=
  c.isDigit || ('a' ≤ c && c ≤ 'f') || ('A' ≤ c && c ≤ 'F')

def hexDigitValue (c : Char) : Nat :=
  if c.isDigit then c.toNat - '0'.toNat
  else if 'a' ≤ c then c.toNat - 'a'.toNat + 10
  else c.toNat - 'A'.toNat + 10

/-- An optional `0x` before hexadecimal digits. -/
def dropHexPrefix : Str → Str
  | '0' :: x :: c :: rest =>
    if (x = 'x' ∨ x = 'X') ∧ isHexDigit c then c :: rest else '0' :: x :: c :: rest
  | s => s

/-- `std::stoul(s, nullptr, 16)`. -/
def stoulHex (s : Str) : Except Fault Nat :=
  let (negative, r) := match Text.trimLeft s with
    | '-' :: r => (true, r)
    | '+' :: r => (false, r)
    | r => (false, r)
  let digits := (dropHexPrefix r).takeWhile isHexDigit
  let n := digits.foldl (fun n c => 16 * n + hexDigitValue c) 0
  if digits = [] then throw .invalidArgument
  else if n ≥ 2 ^ 64 then throw .outOfRange
  else pure (if negative then (2 ^ 64 - n) % 2 ^ 64 else n)

/-- What the tick reads of an entry of `mtchs`. -/
structure Mtch where
  tmgi : Str
  dest : Str
  isServiceAnnouncement : Bool

def Mtch.read {D : Type} (mtch : Json D) : Except Fault Mtch := do
  let tmgi ← (← mtch.field "tmgi".toList).asString
  let dest ← (← mtch.field "dest".toList).asString
  let serviceId ← stoulHex (tmgi.take 6)
  pure ⟨tmgi, dest, serviceId < 0xF⟩

namespace Process

variable {D : Type} (env : ProcessEnvironment D) (cfg : ProcessConfig)

/-- The body of the inner loop of `tick_handler`. -/
def handleMtch (mtch : Json D) : ProcessAction D Unit := do
  let mtch ← ofExcept (Mtch.read mtch)
  let m ← get
  if mtch.dest ≠ [] ∧ mtch.isServiceAnnouncement ∧ m.serviceAnnouncement.isNone then
    let sa : ServiceAnnouncement :=
      { tmgi := mtch.tmgi, tsi := cfg.serviceAnnouncementTsi, iface := cfg.iface }
    modify fun m => { m with serviceAnnouncement := some sa }
    let sa ← ofExcept (sa.startFluteReceiver mtch.dest)
    modify fun m => { m with serviceAnnouncement := some sa }

/-- The body of the outer loop. -/
def handleMch (mch : Json D) : ProcessAction D Unit := do
  let mtchs ← ofExcept (mch.field "mtchs".toList >>= Json.asArray)
  mtchs.forM (handleMtch cfg)

def checkFileExpiryAndCacheSize (clock : Clock) (m : Process D) : Process D :=
  let cache := cfg.cacheManagement.checkFileExpiryAndCacheSize (itemView m.world.objects) clock
    m.world.memory.cache
  { m with world := { m.world with memory := { m.world.memory with cache := cache } } }

/-- `mchs` is what `getMchInfo` returns or throws, `clock` the time during the
housekeeping pass. -/
def tickHandler (mchs : Except Fault (Json D)) (clock : Clock) : ProcessAction D Unit := do
  modify fun m => { m with armed := false }
  let mchs ← ofExcept (mchs >>= Json.asArray)
  mchs.forM (handleMch cfg)
  modify (checkFileExpiryAndCacheSize cfg clock)
  modify fun m => { m with timer := m.timer + 1, armed := true }

variable [DoubleText D]

/-- Whether a local announcement was used. `catch (...)` takes any exception. -/
def handleLocalServiceAnnouncement : ProcessAction D Bool := fun m =>
  if cfg.localServiceEnabled ∧ cfg.localBootstrapFile ≠ [] then
    let sa : ServiceAnnouncement := { tmgi := cfg.localTmgi, tsi := 0, iface := cfg.iface }
    let m := { m with serviceAnnouncement := some sa }
    match World.parseBootstrap env.toEnvironment cfg.toConfig (env.readFile cfg.localBootstrapFile)
        m.world with
    | .ok _ w => .ok true { m with world := w }
    | .error e w =>
      if e.isException then .ok false { m with world := w } else .error e { m with world := w }
  else .ok false m

/-- The constructor: the result tells whether a local announcement was used. -/
def start : ProcessAction D Bool := do
  let used ← handleLocalServiceAnnouncement env cfg
  modify fun m => { m with armed := true }
  pure used

end Process

end MbmsMiddleware
