import Preferences.Data.Attempt
import Preferences.Keys.Record

/-!
# Key facilities

Whatever keeps keypairs by alias. Every call may fail and every call may change the facility; a
sound one changes only when it generates.
-/

namespace Preferences

/-- A call to a facility with states `φ`. -/
abbrev KeyCall (φ α : Type) := Attempt φ (Halt KeyError) α

/-- A kind of facility with states `φ`. -/
class KeyFacility (φ : Type) where
  /-- Is there a keypair for the alias? -/
  hasKeypair (keyAlias : String) : KeyCall φ Bool
  /-- Keeps a new keypair for the alias, in place of any earlier one. -/
  generate (keyAlias : String) (validity : Validity) (pair : Keypair) : KeyCall φ Unit
  /-- The public half of the alias's keypair. -/
  publicKey (keyAlias : String) : KeyCall φ PublicKey
  /-- The secret half of the alias's keypair. -/
  secretKey (keyAlias : String) : KeyCall φ SecretKey

/-- A call that only looks at the facility. -/
def lookUp {φ α : Type} (f : φ → Except KeyError α) : KeyCall φ α :=
  .look fun s => (f s).mapError .error

/-- A facility that can be set to crash when it is next asked for a keypair. -/
structure Trapped (φ : Type) where
  base : φ
  armed : Bool := false

/-- A call to the facility behind the trap. -/
def Trapped.behind {φ α : Type} (call : KeyCall φ α) : KeyCall (Trapped φ) α := fun t =>
  let (result, base) := call t.base
  (result, { t with base })

instance {φ : Type} [KeyFacility φ] : KeyFacility (Trapped φ) where
  hasKeypair keyAlias := fun t =>
    if t.armed then (.error .crash, { t with armed := false })
    else Trapped.behind (KeyFacility.hasKeypair keyAlias) t
  generate keyAlias validity pair := Trapped.behind (KeyFacility.generate keyAlias validity pair)
  publicKey keyAlias := Trapped.behind (KeyFacility.publicKey keyAlias)
  secretKey keyAlias := Trapped.behind (KeyFacility.secretKey keyAlias)

end Preferences
