import MbmsMiddleware.Basic

/-! JSON values, and the accessors of `web::json::value` that throw where the
value is of another kind. -/

namespace MbmsMiddleware

inductive Json (D : Type) where
  | null
  | boolean (b : Bool)
  | integer (i : Int)
  | double (d : D)
  | string (s : Str)
  | array (values : List (Json D))
  | object (fields : List (Str × Json D))

namespace Json

variable {D : Type}

def asArray : Json D → Except Fault (List (Json D))
  | .array values => pure values
  | _ => throw .jsonException

def asString : Json D → Except Fault Str
  | .string s => pure s
  | _ => throw .jsonException

/-- `at` -/
def field (key : Str) : Json D → Except Fault (Json D)
  | .object fields =>
    match fields.lookup key with
    | some value => pure value
    | none => throw .jsonException
  | _ => throw .jsonException

end Json

end MbmsMiddleware
