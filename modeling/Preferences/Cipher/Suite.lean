import Preferences.Cipher.Gcm
import Preferences.Cipher.Sha256
import Preferences.Cipher.X25519
import Preferences.Keys.Record

/-!
# Cipher suites

The operations that sealing is made of, as a record: what is said about sealed texts depends on
their laws only, and `Suite.standard` is the suite that is used.
-/

namespace Preferences

/-- The size of a nonce in bytes. -/
def nonceSize : Nat := 12

/-- A number that is used once. -/
structure Nonce where
  bytes : Bytes
  size_eq : bytes.length = nonceSize
  deriving DecidableEq

/-- The nonce of bytes, if they are of its size. -/
def Nonce.ofBytes? (bs : Bytes) : Option Nonce :=
  if h : bs.length = nonceSize then some ⟨bs, h⟩ else none

/-- The operations of a cipher suite. -/
structure Suite where
  /-- The public half of a secret key. -/
  publicOf : SecretKey → PublicKey
  /-- What a secret key and another's public key agree on. -/
  agree : SecretKey → PublicKey → Bytes
  /-- The key derived from a secret, with a salt, for a purpose. -/
  derive : (salt secret purpose : Bytes) → Bytes
  /-- Encrypts and authenticates a text. -/
  sealText : (key : Bytes) → Nonce → (text : Bytes) → Bytes
  /-- The text of a sealed text, unless the seal does not fit. -/
  openText? : (key : Bytes) → Nonce → (sealedText : Bytes) → Option Bytes
  /-- A sealed text is never empty. -/
  sealText_ne_nil : ∀ key nonce text, sealText key nonce text ≠ []
  /-- What was sealed is opened under the same key and nonce. -/
  open_seal : ∀ key nonce text, openText? key nonce (sealText key nonce text) = some text

namespace Suite

/-- The keypair of a secret key. -/
def keypair (s : Suite) (secret : SecretKey) : Keypair := ⟨s.publicOf secret, secret⟩

/-- Curve25519, HKDF over SHA-256 and AES-256 in Galois counter mode. -/
def standard : Suite where
  publicOf := X25519.publicOf
  agree := X25519.agree
  derive := Hkdf.derive
  sealText key nonce text := Gcm.sealText key nonce.bytes text
  openText? key nonce sealedText := Gcm.openText? key nonce.bytes sealedText
  sealText_ne_nil key nonce text := Gcm.sealText_ne_nil key nonce.bytes text
  open_seal key nonce text := Gcm.openText?_sealText key nonce.bytes text

end Suite

end Preferences
