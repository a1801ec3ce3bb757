import Preferences.Keys.Keyring
import Preferences.Keys.Memory
import Preferences.Store.File
import Preferences.Store.Memory

/-!
# Stores and key facilities of any sort
-/

namespace Preferences

/-- A store of any sort. -/
inductive Stock where
  | memory (s : MemoryStore)
  | faulty (s : FaultyStore)
  | file (s : Mounted)

instance : Store Stock where
  read
    | .memory s, key => Store.read s key
    | .faulty s, key => Store.read s key
    | .file s, key => Store.read s key
  write
    | .memory s, key, v, mode =>
      let (result, s) := Store.write s key v mode
      (result, .memory s)
    | .faulty s, key, v, mode =>
      let (result, s) := Store.write s key v mode
      (result, .faulty s)
    | .file s, key, v, mode =>
      let (result, s) := Store.write s key v mode
      (result, .file s)

/-- The number of keys of a store in memory that hold a value. -/
def Stock.size? : Stock → Option Nat
  | memory s => some s.size
  | faulty s => some s.base.size
  | file _ => none

/-- A key facility of any sort. -/
inductive Vault where
  | memory (f : MemoryFacility)
  | keyring (k : Keyring)

/-- A call to whichever facility there is. -/
def Vault.call {α : Type} (inMemory : KeyCall MemoryFacility α) (inKeyring : KeyCall Keyring α) :
    KeyCall Vault α
  | .memory f =>
    let (result, f) := inMemory f
    (result, .memory f)
  | .keyring k =>
    let (result, k) := inKeyring k
    (result, .keyring k)

instance : KeyFacility Vault where
  hasKeypair keyAlias :=
    Vault.call (KeyFacility.hasKeypair keyAlias) (KeyFacility.hasKeypair keyAlias)
  generate keyAlias validity pair :=
    Vault.call (KeyFacility.generate keyAlias validity pair)
      (KeyFacility.generate keyAlias validity pair)
  publicKey keyAlias := Vault.call (KeyFacility.publicKey keyAlias) (KeyFacility.publicKey keyAlias)
  secretKey keyAlias := Vault.call (KeyFacility.secretKey keyAlias) (KeyFacility.secretKey keyAlias)

end Preferences
