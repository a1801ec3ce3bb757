import Preferences.Data.Table
import Preferences.Keys.Facility

/-!
# Keyrings

A credential store keeps bytes by service and user. A keyring is a key facility over one service of
it, with an entry for every alias. Each stage of a call to the store may be made to fail.
-/

namespace Preferences

/-- Whose credential an entry is. -/
structure Account where
  service : String
  user : String
  deriving DecidableEq

namespace Account

/-- The parts that decide the order, service first. -/
def orderKey (a : Account) : List String := [a.service, a.user]

/-- No two accounts have the same parts. -/
theorem orderKey_inj {a b : Account} (h : a.orderKey = b.orderKey) : a = b := by
  cases a; cases b; simp_all [orderKey]

instance : Ord Account := ⟨fun a b => compare a.orderKey b.orderKey⟩

/-- Accounts are compared by their parts. -/
theorem compare_def (a b : Account) : compare a b = compare a.orderKey b.orderKey := rfl

instance : Std.TransOrd Account where
  eq_swap {a b} := by rw [compare_def, compare_def]; exact Std.OrientedOrd.eq_swap
  isLE_trans {a b c} := by
    rw [compare_def, compare_def, compare_def]; exact Std.TransOrd.isLE_trans

instance : Std.LawfulEqOrd Account where
  compare_self {a} := by rw [compare_def]; exact Std.ReflOrd.compare_self
  eq_of_compare {_ _} h := orderKey_inj (Std.LawfulEqOrd.eq_of_compare h)

end Account

/-- The stages of calls to a credential store. -/
inductive CredentialStage where
  /-- Naming the entry, the first stage of every call. -/
  | build
  | get
  | set
  | delete
  deriving DecidableEq

/-- A credential store. -/
structure CredentialStore where
  entries : Table Account Bytes := ∅
  /-- The failure that a stage is made to report. -/
  fault? : CredentialStage → Option CredentialFault := fun _ => none

namespace CredentialStore

/-- Sets or clears the failure of a stage. -/
def setFault (c : CredentialStore) (stage : CredentialStage) (fault : Option CredentialFault) :
    CredentialStore :=
  { c with fault? := fun s => if s = stage then fault else c.fault? s }

/-- Puts bytes into an entry. -/
def put (c : CredentialStore) (a : Account) (bs : Bytes) : CredentialStore :=
  { c with entries := c.entries.insert a bs }

/-- Fails where the stage is made to fail. -/
def pass (c : CredentialStore) (stage : CredentialStage) : Except CredentialFault Unit :=
  match c.fault? stage with
  | some fault => .error fault
  | none => .ok ()

/-- The text of an entry. -/
def getText (c : CredentialStore) (a : Account) : Except CredentialFault String := do
  c.pass .get
  match c.entries.get? a with
  | none => .error .noEntry
  | some bs =>
    match Utf8.decode bs with
    | .ok s => return s
    | .error _ => .error .notText

/-- The store with a text as an entry. -/
def setText (c : CredentialStore) (a : Account) (s : String) :
    Except CredentialFault CredentialStore := do
  c.pass .set
  return c.put a (utf8 s)

/-- The store without an entry. -/
def delete (c : CredentialStore) (a : Account) : Except CredentialFault CredentialStore := do
  c.pass .delete
  if c.entries.contains a then return { c with entries := c.entries.erase a }
  else .error .noEntry

end CredentialStore

/-- A key facility over one service of a credential store. -/
structure Keyring where
  service : String
  credentials : CredentialStore := {}

namespace Keyring

/-- The entry of an alias, once it can be named. -/
def entry (k : Keyring) (keyAlias : String) : Except KeyError Account :=
  match k.credentials.pass .build with
  | .ok _ => .ok ⟨k.service, keyAlias⟩
  | .error fault => .error (.unavailable (.credential fault))

/-- The text kept for an alias. -/
def load (k : Keyring) (keyAlias : String) : Except KeyError String := do
  let account ← k.entry keyAlias
  match k.credentials.getText account with
  | .ok text => return text
  | .error .noEntry => .error (.notFound keyAlias)
  | .error fault => .error (.unavailable (.credential fault))

/-- Is there an entry for the alias? -/
def hasKeypair (k : Keyring) (keyAlias : String) : Except KeyError Bool :=
  match k.load keyAlias with
  | .ok _ => .ok true
  | .error (.notFound _) => .ok false
  | .error e => .error e

/-- The keyring with a keypair kept for an alias. -/
def generate (k : Keyring) (keyAlias : String) (validity : Validity) (pair : Keypair) :
    Except KeyError Keyring := do
  let account ← k.entry keyAlias
  -- both halves are in one text, so that they are kept together or not at all
  match k.credentials.setText account (KeypairRecord.make keyAlias validity pair).render with
  | .ok credentials => return { k with credentials }
  | .error fault => .error (.unavailable (.credential fault))

/-- The keyring without a keypair for an alias; it need not have had one. -/
def delete (k : Keyring) (keyAlias : String) : Except KeyError Keyring := do
  let account ← k.entry keyAlias
  match k.credentials.delete account with
  | .ok credentials => return { k with credentials }
  | .error .noEntry => return k
  | .error fault => .error (.unavailable (.credential fault))

end Keyring

instance : KeyFacility Keyring where
  hasKeypair keyAlias := lookUp fun k => k.hasKeypair keyAlias
  generate keyAlias validity pair := fun k =>
    match k.generate keyAlias validity pair with
    | .ok k => (.ok (), k)
    | .error e => (.error (.error e), k)
  publicKey keyAlias := lookUp fun k => k.load keyAlias >>= decodePublic keyAlias
  secretKey keyAlias := lookUp fun k => k.load keyAlias >>= decodeSecret keyAlias

end Preferences
