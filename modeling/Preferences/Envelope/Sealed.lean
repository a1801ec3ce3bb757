import Preferences.Cipher.Suite
import Preferences.Error

/-!
# Sealed texts

A sealed text is the base64 of an ephemeral public key, a nonce and a ciphertext, which is not
empty. It says neither which key it is for nor how it was made.
-/

namespace Preferences

/-- The parts of a sealed text. -/
structure Sealed where
  ephemeral : PublicKey
  nonce : Nonce
  ciphertext : Bytes
  deriving DecidableEq

namespace Sealed

/-- Bytes before the ciphertext. -/
def headerSize : Nat := keySize + nonceSize

/-- The parts in order. -/
def toBytes (s : Sealed) : Bytes := s.ephemeral.bytes ++ s.nonce.bytes ++ s.ciphertext

/-- The parts of bytes, unless nothing is left for the ciphertext. -/
def ofBytes (bs : Bytes) : Except CipherFault Sealed :=
  if h : headerSize < bs.length then
    .ok {
      ephemeral := ⟨bs.take keySize, by
        simp only [headerSize, keySize, nonceSize, List.length_take] at *; omega⟩
      nonce := ⟨(bs.drop keySize).take nonceSize, by
        simp only [headerSize, keySize, nonceSize, List.length_take, List.length_drop] at *; omega⟩
      ciphertext := bs.drop headerSize }
  else .error (.tooShort bs.length)

/-- The text of the parts. -/
def render (s : Sealed) : String := Base64.encode s.toBytes

/-- The parts of a text. -/
def parse (text : String) : Except CipherFault Sealed :=
  match Base64.decode text with
  | .ok bs => ofBytes bs
  | .error fault => .error (.encoding fault)

end Sealed

/-- What derived keys are for. -/
def sealPurpose : Bytes := utf8 "prefs-helper envelope v1"

namespace Suite

/-- The key for a text sealed with an ephemeral key for a recipient. -/
def textKey (s : Suite) (secret : Bytes) (ephemeral recipient : PublicKey) : Bytes :=
  s.derive (ephemeral.bytes ++ recipient.bytes) secret sealPurpose

/-- Seals a text for a recipient. -/
def sealFor (s : Suite) (recipient : PublicKey) (ephemeral : SecretKey) (nonce : Nonce)
    (text : String) : Sealed :=
  let shown := s.publicOf ephemeral
  let key := s.textKey (s.agree ephemeral recipient) shown recipient
  ⟨shown, nonce, s.sealText key nonce (utf8 text)⟩

/-- Opens a text sealed for a keypair. -/
def openSealed (s : Suite) (pair : Keypair) (e : Sealed) : Except CipherFault String :=
  let key := s.textKey (s.agree pair.secretKey e.ephemeral) e.ephemeral pair.publicKey
  match s.openText? key e.nonce e.ciphertext with
  | none => .error .rejected
  | some bs =>
    match Utf8.decode bs with
    | .ok text => .ok text
    | .error fault => .error (.notText fault)

end Suite

end Preferences
