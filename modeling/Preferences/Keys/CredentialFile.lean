import Preferences.Keys.Keyring
import Preferences.Shape.Reader

/-!
# Credential files

A text that holds the entries of a credential store, for a machine that has no other place for them.
-/

namespace Preferences.CredentialFile

/-- How the entries are written: the account and the bytes in base64. -/
def shape : Shape :=
  .sequence (.record "Credential"
    (.cons "service" .text (.cons "user" .text (.cons "bytes" .text .nil))))

/-- The text of all entries. -/
def render (c : CredentialStore) : String :=
  Json.pretty <| .array <| c.entries.entries.map fun e =>
    .object [("service", .string e.1.service), ("user", .string e.1.user),
      ("bytes", .string (Base64.encode e.2))]

/-- Puts back an entry, unless its bytes cannot be read. -/
def put (c : CredentialStore) (service user bytes : String) : CredentialStore :=
  match Base64.decode bytes with
  | .ok bs => c.put ⟨service, user⟩ bs
  | .error _ => c

/-- The credential store of a text. -/
def parse (text : String) : Except JsonFault CredentialStore := do
  let entries : List (String × String × String × Unit) ← shape.parse text
  return entries.foldl (fun c e => put c e.1 e.2.1 e.2.2.1) {}

end Preferences.CredentialFile
