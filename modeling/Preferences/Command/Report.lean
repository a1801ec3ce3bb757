import Preferences.Error
import Preferences.Number.Parse

/-!
# Reports of commands

Why a command failed, and the chain of messages that tells it, outermost first.
-/

namespace Preferences

/-- How a word of the command line becomes a preference. -/
inductive ValueKind where
  | long
  | int
  | bool
  | string
  /-- Any JSON value, kept as a structured value. -/
  | json
  deriving DecidableEq

namespace ValueKind

/-- The name of a kind on the command line. -/
def name : ValueKind → String
  | long => "long"
  | int => "int"
  | bool => "bool"
  | string => "string"
  | json => "json"

/-- All kinds. -/
def all : List ValueKind := [long, int, bool, string, json]

/-- The kind of a name. -/
def ofName? (s : String) : Option ValueKind := all.find? fun k => k.name == s

/-- The name of a kind in messages. -/
def label : ValueKind → String
  | long => "Long"
  | int => "Int"
  | bool => "Bool"
  | string => "String"
  | json => "Json"

end ValueKind

/-- Why a word is no value of a kind. -/
inductive ValueFault where
  | integer (fault : IntegerFault)
  | notBool
  | json (text : List Char) (fault : JsonFault)

/-- The words for a wrong value. -/
def ValueFault.message : ValueFault → String
  | integer fault => fault.message
  | notBool => "provided string was not `true` or `false`"
  | json text fault => fault.message text

/-- What the health check tries. -/
inductive Probe where
  | long
  | int
  | bool
  | string
  | structured
  | adapterEncoding
  | adapter
  | ciphertext
  | encryption
  deriving DecidableEq

/-- The name of a probe. -/
def Probe.label : Probe → String
  | long => "long"
  | int => "int"
  | bool => "bool"
  | string => "string"
  | structured => "structured"
  | adapterEncoding => "adapter encoding"
  | adapter => "adapter"
  | ciphertext => "ciphertext"
  | encryption => "encryption"

/-- Why a configuration could not be read or written. -/
inductive ConfigFault where
  | system (error : FileError)
  /-- The file is no valid configuration. -/
  | malformed
  deriving DecidableEq

/-- The words for a configuration's failure. -/
def ConfigFault.message : ConfigFault → String
  | system error => error.message
  | malformed => "invalid configuration"

/-- Why a command failed. -/
inductive Report where
  | preferences (error : Error)
  /-- The store failed when it was asked directly. -/
  | store (error : StoreError)
  | invalidValue (raw : String) (kind : ValueKind) (fault : ValueFault)
  /-- A probe did not come back as it was written. -/
  | unhealthy (probe : Probe)
  | config (fault : ConfigFault)

/-- The messages of a report, outermost first. -/
def Report.chain : Report → List String
  | preferences (.keyFacility error) => [(Error.keyFacility error).message, error.message]
  | preferences error => [error.message]
  | store error => [error.message]
  | invalidValue raw kind fault =>
    ["`" ++ raw ++ "` is not a valid " ++ kind.label ++ " value", fault.message]
  | unhealthy probe => [probe.label ++ " round-trip failed"]
  | config fault => [fault.message]

end Preferences
