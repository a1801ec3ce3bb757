import Preferences.Keys.Basic
import Preferences.Keys.Error

/-!
# Keypair records

A facility keeps a keypair as a JSON text: whom it is for, both halves in base64 and the window in
which it is meant to be used. The window is for information and never keeps a key from being read.
-/

namespace Preferences

/-- Both halves of a keypair. -/
structure Keypair where
  publicKey : PublicKey
  secretKey : SecretKey
  deriving DecidableEq

/-- A keypair as it is kept. -/
structure KeypairRecord where
  subject : String
  /-- The public half in base64. -/
  publicText : String
  /-- The secret half in base64. -/
  secretText : String
  notBefore : Instant
  notAfter : Instant
  deriving DecidableEq

instance : Shaped KeypairRecord where
  shape := .record "KeypairRecord"
    (.cons "subject" .text (.cons "public" .text (.cons "secret" .text
      (.cons "not_before" .instant (.cons "not_after" .instant .nil)))))
  toVal r := (r.subject, r.publicText, r.secretText, r.notBefore, r.notAfter, ())
  ofVal v := ⟨v.1, v.2.1, v.2.2.1, v.2.2.2.1, v.2.2.2.2.1⟩

namespace KeypairRecord

/-- The record of a keypair for an alias. -/
def make (keyAlias : String) (validity : Validity) (pair : Keypair) : KeypairRecord where
  subject := "CN=" ++ keyAlias ++ ", O=prefs-helper"
  publicText := Base64.encode pair.publicKey.bytes
  secretText := Base64.encode pair.secretKey.bytes
  notBefore := validity.notBefore
  notAfter := validity.notAfter

/-- The JSON value of a record. -/
def toJson (r : KeypairRecord) : Json :=
  .object [("subject", .string r.subject), ("public", .string r.publicText),
    ("secret", .string r.secretText),
    ("not_before", .string (String.ofList (Timestamp.render r.notBefore))),
    ("not_after", .string (String.ofList (Timestamp.render r.notAfter)))]

/-- The text of a record. -/
def render (r : KeypairRecord) : String := r.toJson.compact

/-- The record of a text kept for an alias. -/
def parse (keyAlias text : String) : Except KeyError KeypairRecord :=
  match (Shaped.shape KeypairRecord).parse text with
  | .ok v => .ok (Shaped.ofVal v)
  | .error fault => .error (.corrupt keyAlias (.record text.toList fault))

end KeypairRecord

/-- The bytes of a key's text, which are as many as a key has. -/
def decodeKey (keyAlias text : String) : Except KeyError { bs : Bytes // bs.length = keySize } :=
  match Base64.decode text with
  | .error fault => .error (.corrupt keyAlias (.encoding fault))
  | .ok bs =>
    if h : bs.length = keySize then .ok ⟨bs, h⟩
    else .error (.corrupt keyAlias (.length bs.length))

/-- The public half in a text kept for an alias. -/
def decodePublic (keyAlias text : String) : Except KeyError PublicKey := do
  let record ← KeypairRecord.parse keyAlias text
  let key ← decodeKey keyAlias record.publicText
  return ⟨key.1, key.2⟩

/-- The secret half in a text kept for an alias. -/
def decodeSecret (keyAlias text : String) : Except KeyError SecretKey := do
  let record ← KeypairRecord.parse keyAlias text
  let key ← decodeKey keyAlias record.secretText
  return ⟨key.1, key.2⟩

end Preferences
