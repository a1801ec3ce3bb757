import Preferences.Files.Disk
import Preferences.Json.Fault
import Preferences.Value.Basic

/-!
# Failures of preference stores
-/

namespace Preferences

/-- Why storage failed. -/
inductive StorageFault where
  /-- The background writer no longer takes snapshots. -/
  | writerStopped
  /-- The path has no directory to write into. -/
  | invalidPath
  /-- The file is of a version that is not understood. -/
  | unsupportedVersion (version : Word .nat32)
  /-- The file's text is not the JSON of a preference file. -/
  | malformed (text : List Char) (fault : JsonFault)
  | system (error : FileError)
  /-- No scratch file could be made at a path, to replace the file by. -/
  | scratch (error : FileError) (path : String)
  /-- A reason given from outside. -/
  | reported (reason : String)

/-- The words for a storage failure. -/
def StorageFault.message : StorageFault → String
  | writerStopped => "background writer stopped"
  | invalidPath => "invalid storage path"
  | unsupportedVersion version => s!"unsupported preference file version {version.val}"
  | malformed text fault => fault.message text
  | system error => error.message
  | scratch error path => s!"{error.message} at path {quoted path}"
  | reported reason => reason

/-- Why a store did not answer. -/
inductive StoreError where
  /-- The key holds a value of another kind than asked for. -/
  | typeMismatch (key : String) (expected found : Primitive)
  | storage (fault : StorageFault)

/-- The words for a store's failure. -/
def StoreError.message : StoreError → String
  | typeMismatch key expected found =>
    s!"value for key {key} is a {found.label}, not a {expected.label}"
  | storage fault => s!"storage failure: {fault.message}"

end Preferences
