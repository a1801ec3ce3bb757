import Preferences.Json.Fault
import Preferences.Text.Base64

/-!
# Failures of key facilities
-/

namespace Preferences

/-- Why a credential store did not answer. -/
inductive CredentialFault where
  | platform
  | access
  | tooLong
  | invalid
  | noEntry
  /-- The entry is not UTF-8. -/
  | notText
  deriving DecidableEq

/-- The words for a credential store's failure. -/
def CredentialFault.message : CredentialFault → String
  | platform => "Platform secure storage failure: dbus went away"
  | access => "Couldn't access platform secure storage: keyring locked"
  | tooLong => "Attribute 'user' is longer than platform limit of 16 chars"
  | invalid => "Attribute service is invalid: bad"
  | noEntry => "No matching entry found in secure storage"
  | notText => "Data is not UTF-8 encoded"

/-- Why a facility is unavailable. -/
inductive Outage where
  | marked
  | credential (fault : CredentialFault)
  /-- An earlier task failed while it held the state. -/
  | poisoned
  deriving DecidableEq

/-- The words for an outage. -/
def Outage.message : Outage → String
  | marked => "in-memory facility marked unavailable"
  | credential fault => fault.message
  | poisoned => "lock poisoned: poisoned lock: another task failed inside"

/-- What is wrong with a stored keypair. -/
inductive Corruption where
  | record (text : List Char) (fault : JsonFault)
  | encoding (fault : Base64.Fault)
  | length (bytes : Nat)

/-- The words for a corruption. -/
def Corruption.message : Corruption → String
  | record text fault => fault.message text
  | encoding fault => fault.message
  | length bytes => s!"expected 32 bytes, got {bytes}"

/-- Why a key facility did not answer. -/
inductive KeyError where
  | notFound (keyAlias : String)
  | unavailable (outage : Outage)
  | corrupt (keyAlias : String) (corruption : Corruption)

/-- The words for a key facility's failure. -/
def KeyError.message : KeyError → String
  | notFound keyAlias => s!"no keypair stored under alias {keyAlias}"
  | unavailable outage => s!"key facility unavailable: {outage.message}"
  | corrupt keyAlias corruption =>
    s!"stored keypair for alias {keyAlias} is corrupt: {corruption.message}"

end Preferences
