import Preferences.Shape.Reader
import Preferences.Store.Error
import Preferences.Text.Characters

/-!
# Preference files

The text of a preference file: a version and all values, as JSON with a line for every item. A
missing or blank file holds no values.
-/

namespace Preferences.PreferenceFile

/-- The version that is written and understood. -/
def version : Word .nat32 := ⟨1, by decide, by decide⟩

/-- How a preference file is written. -/
def shape : Shape :=
  .record "StoredDocument"
    (.cons "version" (.word .nat32) (.cons "values" (.table .stored) .nil))

/-- The JSON value of all values. -/
def toJson (values : Table String Value) : Json :=
  .object [("version", .number (.int (Value.wire version (by decide)))),
    ("values", .object (values.entries.map fun e => (e.1, e.2.toJson)))]

/-- The text of a preference file. -/
def render (values : Table String Value) : String := (toJson values).pretty

/-- The values of a preference file's text. -/
def parse (text : String) : Except StoreError (Table String Value) :=
  if allBlank text then .ok ∅
  else
    match shape.parse text with
    | .error fault => .error (.storage (.malformed text.toList fault))
    | .ok contents =>
      let found : Word .nat32 := contents.1
      let values : Table String Value := contents.2.1
      if found = version then .ok values else .error (.storage (.unsupportedVersion found))

/-- Reads a preference file. -/
def load (disk : Disk) (path : Path) : Except StoreError (Table String Value) :=
  match disk.readText path with
  | .error .notFound => .ok ∅
  | .error e => .error (.storage (.system e))
  | .ok text => parse text

/-- Writes a preference file, making the directories above it. The file is replaced at once by a
scratch file beside it; a failure leaves the directories that were made. -/
def save (disk : Disk) (path : Path) (values : Table String Value) :
    Except (StoreError × Disk) Disk :=
  match path.parent? with
  | none => .error (.storage .invalidPath, disk)
  | some parent =>
    match disk.ensureDirectories parent with
    | .error (e, disk) => .error (.storage (.system e), disk)
    | .ok disk =>
      match disk.tryScratch parent with
      | .error e => .error (.storage (.scratch e (disk.scratchPath parent).text), disk)
      | .ok () =>
        match disk.replaceFile path (utf8 (render values)) with
        | .error e => .error (.storage (.system e), disk)
        | .ok disk => .ok disk

/-- Writes a preference file: how it went, and the disk afterwards. -/
def write (disk : Disk) (path : Path) (values : Table String Value) :
    Except StoreError Unit × Disk :=
  match save disk path values with
  | .error (e, disk) => (.error e, disk)
  | .ok disk => (.ok (), disk)

end Preferences.PreferenceFile
