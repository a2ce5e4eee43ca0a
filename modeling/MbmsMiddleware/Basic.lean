import MbmsMiddleware.Exceptions
import MbmsMiddleware.Text

/-! What the rest of the model shares: how a call can end other than by
returning, the `double` values the middleware passes on, received files. -/

namespace MbmsMiddleware

/-- The ends of a call that does not return. The first group are C++
exceptions, the others are undefined or end the process. -/
inductive Fault where
  | cString (what : Str)
  | logicError
  | invalidArgument
  | outOfRange
  | uriException
  | jsonException
  | nullDereference
  | outOfBounds
  | danglingPointer
  | terminate
  deriving DecidableEq, Repr

/-- Caught by `catch (std::exception e)`. A thrown string literal is not. -/
def Fault.isStdException : Fault → Bool
  | .logicError | .invalidArgument | .outOfRange | .uriException | .jsonException => true
  | .cString _ | .nullDereference | .outOfBounds | .danglingPointer | .terminate => false

/-- An exception, caught or not, rather than the end of the process. -/
def Fault.isException : Fault → Bool
  | .nullDereference | .outOfBounds | .danglingPointer | .terminate => false
  | _ => true

/-- The values of `double`: the middleware only reads them from text, copies
them and prints them. -/
class DoubleText (D : Type) where
  ofInt : Int → D
  atof : Str → D
  /-- `operator<<` with the default format. -/
  put : D → Str
  /-- `operator<<` after `std::fixed << std::setprecision(3)`. -/
  putFixed3 : D → Str

/-- A printed `double` is made of digits, signs, a point, letters. -/
class LawfulDoubleText (D : Type) [DoubleText D] : Prop where
  put_chars : ∀ (d : D), ∀ c ∈ DoubleText.put d, c ≠ ':' ∧ Text.isspace c = false

/-- Whole numbers as `double` values. -/
instance : DoubleText Int where
  ofInt := id
  atof s := Text.strtol s
  put := Text.showInt
  putFixed3 i := Text.showInt i ++ ".000".toList

instance : LawfulDoubleText Int where
  put_chars d _ hc :=
    ⟨fun h => Text.notMem_showInt (by decide) (by decide) d (h ▸ hc), Text.isspace_of_mem_showInt hc⟩

inductive ItemSource where
  | broadcast
  | cdn
  | generated
  | unavailable
  deriving DecidableEq, Repr

inductive DeliveryProtocol where
  | hls
  | dash
  | rtp
  deriving DecidableEq, Repr

/-- `LibFlute::File` with the metadata of its FDT entry. -/
structure FluteFile where
  contentLocation : Str
  toi : Nat
  contentType : Str
  buffer : Str
  receivedAt : Nat
  complete : Bool
  deriving DecidableEq, Repr

end MbmsMiddleware
