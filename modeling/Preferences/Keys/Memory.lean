import Preferences.Data.Table
import Preferences.Keys.Facility

/-!
# Key facilities in memory

Records by alias, in the texts that every facility keeps, with a count of the keypairs ever
generated and a switch that makes every call fail.
-/

namespace Preferences

/-- A facility in memory. -/
structure MemoryFacility where
  records : Table String String := ∅
  /-- The number of keypairs generated so far. -/
  generated : Nat := 0
  unavailable : Bool := false

namespace MemoryFacility

/-- Fails where the facility is switched off. -/
def checkAvailable (f : MemoryFacility) : Except KeyError Unit :=
  if f.unavailable then .error (.unavailable .marked) else .ok ()

/-- Is there a record for the alias? -/
def hasKeypair (f : MemoryFacility) (keyAlias : String) : Except KeyError Bool := do
  f.checkAvailable
  return f.records.contains keyAlias

/-- The text kept for an alias. -/
def load (f : MemoryFacility) (keyAlias : String) : Except KeyError String := do
  f.checkAvailable
  match f.records.get? keyAlias with
  | some text => return text
  | none => .error (.notFound keyAlias)

/-- The facility with a keypair kept for an alias. -/
def generate (f : MemoryFacility) (keyAlias : String) (validity : Validity) (pair : Keypair) :
    Except KeyError MemoryFacility := do
  f.checkAvailable
  let text := (KeypairRecord.make keyAlias validity pair).render
  return { f with records := f.records.insert keyAlias text, generated := f.generated + 1 }

/-- The facility as debugging output shows it. -/
def debug (f : MemoryFacility) : String :=
  "InMemoryKeyFacility \x7b generated: " ++ String.ofList (natDigits f.generated) ++ ", .. \x7d"

end MemoryFacility

instance : KeyFacility MemoryFacility where
  hasKeypair keyAlias := lookUp fun f => f.hasKeypair keyAlias
  generate keyAlias validity pair := fun f =>
    match f.generate keyAlias validity pair with
    | .ok f => (.ok (), f)
    | .error e => (.error (.error e), f)
  publicKey keyAlias := lookUp fun f => f.load keyAlias >>= decodePublic keyAlias
  secretKey keyAlias := lookUp fun f => f.load keyAlias >>= decodeSecret keyAlias

end Preferences
