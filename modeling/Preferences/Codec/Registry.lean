import Preferences.Codec.Adapter
import Preferences.Error

/-!
# Registries of adapters

A registry has an engine and, for some types, an adapter in its place. Encoding and decoding consult
the adapter of the exact type and no other, by calls that count themselves.
-/

namespace Preferences

/-- An engine and the adapters by type. -/
structure Registry where
  engine : Engine := .json
  adapter? : (t : PrefType) → Option (Adapter t.Val) := fun _ => none

namespace Registry

/-- Registers an adapter for a type in place of any earlier one. -/
def add (r : Registry) (t : PrefType) (a : Adapter t.Val) : Registry :=
  { r with adapter? := fun u => if h : t = u then some (h ▸ a) else r.adapter? u }

/-- Has the type an adapter? -/
def has (r : Registry) (t : PrefType) : Bool := (r.adapter? t).isSome

/-- The text of a value. -/
def encode (r : Registry) (t : PrefType) (v : t.Val) : Counted (Except Error String) :=
  let failure (reason : String) : Error := .encode t.typeName reason
  match r.adapter? t with
  | some a => (a.callEncode v).map (·.mapError failure)
  | none => .uncalled ((r.engine.encodeAs t v).mapError failure)

/-- The value of a text. The empty text gives the default and calls nothing. -/
def decode (r : Registry) (t : PrefType) (input : String) (default : t.Val) :
    Counted (Except Error t.Val) :=
  let failure (reason : String) : Error := .decode input t.typeName reason
  if input = "" then .uncalled (.ok default)
  else
    match r.adapter? t with
    | some a => (a.callDecode input).map (·.mapError failure)
    | none => .uncalled ((r.engine.decodeAs t input).mapError failure)

end Registry

end Preferences
