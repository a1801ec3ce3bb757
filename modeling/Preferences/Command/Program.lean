import Preferences.Command.Arguments
import Preferences.Command.Config
import Preferences.Command.Health
import Preferences.Keys.Keyring
import Preferences.Keys.Memory
import Preferences.Store.File

/-!
# The program

One run of the command line: its words are read, then the configuration, then the command is done.
What a run leaves behind is the disk and the credential store.
-/

namespace Preferences

/-- What runs of the program share. -/
structure World where
  disk : Disk
  credentials : CredentialStore := {}
  supply : Supply
  suite : Suite := .standard

/-- How a run ends. -/
inductive Outcome where
  | usage (fault : UsageFault)
  | failed (report : Report)
  | crashed
  /-- It prints a text. -/
  | done (output : String)

namespace Outcome

/-- The exit code of a run. -/
def exitCode : Outcome → Nat
  | usage fault => fault.exitCode
  | failed _ => 1
  | crashed => 101
  | done _ => 0

/-- What is printed to the standard output, but for help pages. -/
def output? : Outcome → Option String
  | usage .help => none
  | usage (.version name) => some (versionLine name)
  | usage _ => some ""
  | failed _ => some ""
  | crashed => some ""
  | done output => some output

/-- A text with a line end behind it. -/
def line (s : String) : Outcome := done (s ++ "\n")

/-- The outcome of a step that cannot crash. -/
def ofReport {α : Type} (shown : α → Outcome) : Except Report α → Outcome
  | .ok a => shown a
  | .error r => failed r

/-- The outcome of a step on a typed store. -/
def ofHalt {α : Type} (shown : α → Outcome) : Except (Halt Report) α → Outcome
  | .ok a => shown a
  | .error (.error r) => failed r
  | .error .crash => crashed

end Outcome

namespace World

/-- The typed store that a configuration describes. -/
def openTyped (w : World) (env : Environment) (config : Config) :
    Except Report (TypedStore Mounted Keyring) := do
  let path := Path.ofString (config.effectiveDataFile env)
  let store ← (FileStore.openAt w.disk path).mapError .store
  let typed : TypedStore Mounted Keyring := {
    store := ⟨store, w.disk⟩
    facility := ⟨config.effectiveService, w.credentials⟩
    supply := w.supply
    suite := w.suite }
  match typed.setAlias config.effectiveAlias with
  | (.ok _, typed) => return typed
  | (.error e, _) => .error (.preferences e)

/-- What a typed store leaves behind when it is closed. -/
def afterClosing (w : World) (t : TypedStore Mounted Keyring) : World :=
  { w with
    disk := (t.store.store.drain t.store.disk).2
    credentials := t.facility.credentials
    supply := t.supply }

/-- Does something with the configured typed store and closes it. -/
def withTyped (w : World) (env : Environment) (config : Config)
    (f : TypedStore Mounted Keyring → Outcome × TypedStore Mounted Keyring) : Outcome × World :=
  match w.openTyped env config with
  | .error r => (.failed r, w)
  | .ok t =>
    let (outcome, t) := f t
    (outcome, w.afterClosing t)

/-- The place of the scratch file that the health check uses. -/
def scratchDirectory : List String := ["scratch"]

/-- Checks a typed store in a scratch file whose keys are nowhere else. -/
def checkHealth (w : World) (config : Config) : Outcome :=
  let disk := Disk.fresh scratchDirectory
  match FileStore.openAt disk ⟨true, scratchDirectory ++ ["preferences.json"], .name, []⟩ with
  | .error e => .failed (.store e)
  | .ok store =>
    let typed : TypedStore Mounted MemoryFacility :=
      { store := ⟨store, disk⟩, facility := {}, supply := w.supply, suite := w.suite }
    match typed.setAlias config.effectiveAlias with
    | (.error e, _) => .failed (.preferences e)
    | (.ok _, typed) => .ofHalt (fun _ => .line "Preferences: ok") (Health.check typed).1

/-- Writes the configuration file, if there is none. -/
def initConfig (w : World) (env : Environment) (config : Config) : Outcome × World :=
  match (config.resolved env).save w.disk env.configFile with
  | .error (fault, disk) => (.failed (.config fault), { w with disk })
  | .ok disk => (.line ("Config initialized at " ++ env.configFile), { w with disk })

/-- Does a command. -/
def perform (w : World) (env : Environment) (config : Config) : Command → Outcome × World
  | .version => (.done (versionLine "prefs"), w)
  | .health => (w.checkHealth config, w)
  | .configInit => w.initConfig env config
  | .get key kind => w.withTyped env config fun t =>
    let (result, t) := t.display key kind
    (.ofReport .line (result.mapError .preferences), t)
  | .set key value kind sync => w.withTyped env config fun t =>
    let (result, t) := t.enter key value kind (if sync then .commit else .apply)
    (.ofReport (fun _ => .done "") result, t)
  | .contains key => w.withTyped env config fun t =>
    let result := (t.contains key).mapError .preferences
    (.ofReport (fun b => .line (if b then "true" else "false")) result, t)
  | .encryptSet key value => w.withTyped env config fun t =>
    let (result, t) := t.setSealed key value
    (.ofHalt (fun _ => .done "") (result.mapError (Halt.map .preferences)), t)
  | .encryptGet key => w.withTyped env config fun t =>
    let (result, t) := t.getSealed key
    (.ofHalt .line (result.mapError (Halt.map .preferences)), t)

/-- Runs the program on the words behind its name. -/
def run (w : World) (env : Environment) (words : List String) : Outcome × World :=
  match Command.parse words with
  | .error fault => (.usage fault, w)
  | .ok command =>
    match Config.load w.disk env.configFile with
    | .error fault => (.failed (.config fault), w)
    | .ok config => w.perform env config command

end World

end Preferences
