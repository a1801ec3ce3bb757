import Preferences.Command.Report
import Preferences.Text.Characters
import Preferences.Toml.Reader
import Preferences.Toml.Writer

/-!
# Configuration

Where the preference file is, which alias confidential texts are sealed under and which keyring
service keeps the keypairs. All three have defaults, and the configuration is a TOML file.
-/

namespace Preferences

/-- Where the user's directories are. -/
structure Environment where
  home : String
  /-- The base of configuration files, if one is set. -/
  configHome : Option String := none
  /-- The base of data files, if one is set. -/
  dataHome : Option String := none

namespace Environment

/-- A directory that is set, if its path starts at the root, or else one in the home directory. -/
def baseOr (set : Option String) (otherwise : String) : String :=
  match set with
  | some dir => if dir.toList.head? = some '/' then dir else otherwise
  | none => otherwise

/-- The path of the configuration file. -/
def configFile (e : Environment) : String :=
  joinPath (joinPath (baseOr e.configHome (joinPath e.home ".config")) "prefs") "config.toml"

/-- The path of the preference file where none is configured. -/
def dataFile (e : Environment) : String :=
  let base := baseOr e.dataHome (joinPath (joinPath e.home ".local") "share")
  joinPath (joinPath base "prefs") "preferences.json"

end Environment

/-- A configuration. What is not set has a default. -/
structure Config where
  dataFile : Option String := none
  keyAlias : Option String := none
  keyringService : Option String := none
  deriving DecidableEq

namespace Config

/-- The alias where none is configured. -/
def defaultAlias : String := "prefs-default"

/-- The keyring service where none is configured. -/
def defaultService : String := "prefs-cli"

/-- The path of the preference file. -/
def effectiveDataFile (c : Config) (e : Environment) : String := c.dataFile.getD e.dataFile

/-- The alias for confidential texts. -/
def effectiveAlias (c : Config) : String := c.keyAlias.getD defaultAlias

/-- The keyring service. -/
def effectiveService (c : Config) : String := c.keyringService.getD defaultService

/-- The same configuration with everything set. -/
def resolved (c : Config) (e : Environment) : Config :=
  ⟨some (c.effectiveDataFile e), some c.effectiveAlias, some c.effectiveService⟩

/-- The text of a key of a document, if it is there. -/
def textOf (k : String) (es : Toml.Entries) : Except ConfigFault (Option String) :=
  match Toml.lookup k es with
  | none => .ok none
  | some (.string s) => .ok (some s)
  | some _ => .error .malformed

/-- The configuration that a document holds. Keys that are not known do not matter. -/
def ofEntries (es : Toml.Entries) : Except ConfigFault Config := do
  let dataFile ← textOf "data_file" es
  let keyAlias ← textOf "alias" es
  let keyringService ← textOf "keyring_service" es
  return { dataFile, keyAlias, keyringService }

/-- The configuration of a file's text. A blank one sets nothing. -/
def parse (text : String) : Except ConfigFault Config :=
  if allBlank text then .ok {}
  else
    match Toml.parse text with
    | some es => ofEntries es
    | none => .error .malformed

/-- A line for what is set. -/
def lineOf (k : String) : Option String → String
  | some s => Toml.lineFor k s
  | none => ""

/-- The text of a configuration. -/
def render (c : Config) : String :=
  lineOf "data_file" c.dataFile ++ lineOf "alias" c.keyAlias ++
    lineOf "keyring_service" c.keyringService

/-- Reads the configuration file. A missing one sets nothing. -/
def load (disk : Disk) (path : String) : Except ConfigFault Config :=
  if disk.isThere (Path.ofString path) then
    match disk.readText (Path.ofString path) with
    | .ok text => parse text
    | .error e => .error (.system e)
  else .ok {}

/-- Writes the configuration file unless something is there, making the directories above it. A
failure leaves the directories that were made, and what was written of a file. -/
def save (disk : Disk) (path : String) (c : Config) : Except (ConfigFault × Disk) Disk :=
  let p := Path.ofString path
  if disk.isThere p then .ok disk
  else
    let above := match p.parent? with
      | some parent => disk.ensureDirectories parent
      | none => .ok disk
    match above with
    | .error (e, disk) => .error (.system e, disk)
    | .ok disk => (disk.writeFile p (utf8 c.render)).mapError fun (e, disk) => (.system e, disk)

/-- The disk with the configuration file, if it could be written or something was there. -/
def writeIfMissing (disk : Disk) (path : String) (c : Config) : Except ConfigFault Disk :=
  (c.save disk path).mapError (·.1)

end Config

end Preferences
