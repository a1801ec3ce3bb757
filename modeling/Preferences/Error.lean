import Preferences.Keys.Error
import Preferences.Store.Error

/-!
# Failures of preference operations
-/

namespace Preferences

/-- What is wrong with an argument. -/
inductive ArgumentFault where
  | emptyKey
  | emptyAlias
  | emptyPlaintext
  | emptyCiphertext
  /-- A structured type has no value of its own to fall back on. -/
  | noDefault (typeName : String)
  deriving DecidableEq

/-- The words for a wrong argument. -/
def ArgumentFault.message : ArgumentFault → String
  | emptyKey => "preference key must not be empty"
  | emptyAlias => "key alias must not be empty"
  | emptyPlaintext => "plaintext must not be empty"
  | emptyCiphertext => "ciphertext must not be empty"
  | noDefault typeName => s!"reading {typeName} requires a default value"

/-- Why a sealed text cannot be opened. -/
inductive CipherFault where
  | encoding (fault : Base64.Fault)
  | tooShort (bytes : Nat)
  /-- The seal does not fit the key and the contents. -/
  | rejected
  | notText (fault : Utf8Fault)
  deriving DecidableEq

/-- The words for a cipher's failure. -/
def CipherFault.message : CipherFault → String
  | encoding fault => s!"envelope decode failed: {fault.message}"
  | tooShort bytes => s!"envelope too short: {bytes} bytes"
  | rejected => "decrypt failed: aead::Error"
  | notText fault => s!"decrypted value is not utf-8: {fault.message}"

/-- Why an operation on preferences failed. -/
inductive Error where
  | invalidArgument (fault : ArgumentFault)
  | decode (input typeName reason : String)
  | encode (typeName reason : String)
  /-- No alias has been chosen. -/
  | noAlias
  | keyFacility (error : KeyError)
  | cipher (fault : CipherFault)
  | store (error : StoreError)

/-- The words for a failure. -/
def Error.message : Error → String
  | invalidArgument fault => s!"invalid argument: {fault.message}"
  | decode input typeName reason => s!"unable to decode {quoted input} into {typeName}: {reason}"
  | encode typeName reason => s!"unable to encode {typeName}: {reason}"
  | noAlias => "configuration error: key alias must be set before use"
  | keyFacility error => s!"key facility error: {error.message}"
  | cipher fault => s!"cipher failure: {fault.message}"
  | store error => error.message

end Preferences
