import MbmsMiddleware.Middleware

/-! The object that receives service announcements over FLUTE, beside the items
and the base path, which the middleware's state holds. -/

namespace MbmsMiddleware

/-- What the reception of an announcement takes from outside: `gzip::decompress`
and the memory behind the buffer of a file, which reading the buffer as a C
string may run into. -/
structure ReceptionEnvironment (D : Type) extends Environment D where
  decompress : Str → Except Fault Str
  behind : FluteFile → Str

structure ServiceAnnouncement where
  tmgi : Str
  tsi : Nat
  iface : Str
  bootstrapped : Bool := false
  toi : Nat := 0
  rawContent : Str := []
  mcastAddr : Str := []
  mcastPort : Str := []
  fluteReceiver : Option FluteReceiver := none

namespace ServiceAnnouncement

/-- Without a colon the address is only logged as invalid. -/
def startFluteReceiver (mcastAddress : Str) (sa : ServiceAnnouncement) :
    Except Fault ServiceAnnouncement :=
  if ':' ∈ mcastAddress then
    let mcastAddr := mcastAddress.takeWhile (· ≠ ':')
    let mcastPort := (mcastAddress.dropWhile (· ≠ ':')).drop 1
    match sa.fluteReceiver with
    | some _ => throw .terminate
    | none => pure { sa with
        mcastAddr := mcastAddr
        mcastPort := mcastPort
        fluteReceiver := some ⟨sa.iface, mcastAddr, Text.atoi mcastPort, sa.tsi⟩ }
  else pure sa

/-- A `std::string` made from the address of a buffer. -/
def cString (memory : Str) : Str := memory.takeWhile (· ≠ '\x00')

variable {D : Type} (env : ReceptionEnvironment D)

def bufferText (file : FluteFile) : Str := cString (file.buffer ++ env.behind file)

def contentOf (file : FluteFile) : Except Fault Str :=
  if file.contentType = "application/x-gzip".toList then env.decompress file.buffer
  else pure (bufferText env file)

/-- The completion callback of the FLUTE receiver up to the call of
`parse_bootstrap`: the text that it is called with, if it is. -/
def textToParse (file : FluteFile) (sa : ServiceAnnouncement) :
    ServiceAnnouncement × Except Fault (Option Str) :=
  if !sa.bootstrapped || sa.toi ≠ file.toi then
    let sa := { sa with toi := file.toi }
    match contentOf env file with
    | .error e => (sa, .error e)
    | .ok content => ({ sa with rawContent := content }, .ok (some (bufferText env file)))
  else (sa, .ok none)

/-- The completion callback. -/
def fluteFileReceived [DoubleText D] (cfg : Config) (file : FluteFile) (sa : ServiceAnnouncement)
    (w : World D) : ServiceAnnouncement × EStateM.Result Fault (World D) Unit :=
  match textToParse env file sa with
  | (sa, .ok (some str)) => (sa, World.parseBootstrap env.toEnvironment cfg str w)
  | (sa, .ok none) => (sa, .ok () w)
  | (sa, .error e) => (sa, .error e w)

end ServiceAnnouncement

end MbmsMiddleware
