import Preferences.Keys.Validity
import Preferences.Text.Base64

/-!
# Keys

Halves of keypairs: 32 bytes each. The secret half never shows.
-/

namespace Preferences

/-- The size of a key in bytes. -/
def keySize : Nat := 32

/-- The public half of a keypair. -/
structure PublicKey where
  bytes : Bytes
  size_eq : bytes.length = keySize
  deriving DecidableEq

/-- The secret half of a keypair. -/
structure SecretKey where
  bytes : Bytes
  size_eq : bytes.length = keySize
  deriving DecidableEq

/-- The public key of bytes, if they are of its size. -/
def PublicKey.ofBytes? (bs : Bytes) : Option PublicKey :=
  if h : bs.length = keySize then some ⟨bs, h⟩ else none

/-- The secret key of bytes, if they are of its size. -/
def SecretKey.ofBytes? (bs : Bytes) : Option SecretKey :=
  if h : bs.length = keySize then some ⟨bs, h⟩ else none

/-- A public key as debugging output shows it: its first two bytes. -/
def PublicKey.debug (k : PublicKey) : String := "PublicKey(" ++ Hex.encode (k.bytes.take 2) ++ "..)"

/-- A secret key as debugging output shows it. -/
def SecretKey.debug (_ : SecretKey) : String := "SecretKey([REDACTED])"

end Preferences
