import Preferences.Command.Program
import Preferences.Keys.CredentialFile
import Std.Time.DateTime.Timestamp

/-!
# The command line program

Reads the files that a run may look at, draws what it takes from outside, runs it and writes back
what it changed.
-/

namespace Preferences.Shell

/-- What is at a place of the machine's disk. -/
def nodeAt (place : List String) : IO (Option Node) := do
  let path := (← IO.currentDir) / ("/" ++ "/".intercalate place)
  if ← path.isDir then return some .directory
  if ← path.pathExists then return some (.file (← IO.FS.readBinFile path).toList)
  return none

/-- Reads what is at a place and at all places above it. -/
def survey (disk : Disk) (place : List String) : IO Disk :=
  (List.range place.length).foldlM (fun disk n => do
    let above := place.take (n + 1)
    match ← nodeAt above with
    | some node => return { disk with nodes := disk.nodes.insert above node }
    | none => return disk) disk

/-- Writes a file next to its place and puts it there at once. -/
def replaceFile (path : String) (content : Bytes) : IO Unit := do
  let scratch := path ++ ".new"
  IO.FS.writeBinFile scratch ⟨content.toArray⟩
  IO.FS.rename scratch path

/-- Writes back what a run changed. -/
def writeBack (before after : Disk) : IO Unit :=
  for (place, node) in after.nodes.entries do
    if before.nodes.get? place ≠ some node then
      let path := "/" ++ "/".intercalate place
      match node with
      | .directory => IO.FS.createDirAll path
      | .file content => replaceFile path content
      | .guarded _ _ => pure ()

/-- Draws a secret key. -/
def drawSecret : IO SecretKey := do
  match SecretKey.ofBytes? (← IO.getRandomBytes 32).toList with
  | some key => return key
  | none => throw (IO.userError "not enough random bytes")

/-- Draws the choices of one operation. -/
def drawChance : IO Chance := do
  let time ← Std.Time.Timestamp.now
  match Instant.ofUnix? time.toSecondsSinceUnixEpoch.val time.val.nano.val.toNat,
      Nonce.ofBytes? (← IO.getRandomBytes 12).toList with
  | some now, some nonce =>
    return { now, nonce, keypairSecret := ← drawSecret, ephemeral := ← drawSecret }
  | _, _ => throw (IO.userError "no usable time or random bytes")

/-- The directories of the user. -/
def environment : IO Environment := do
  return {
    home := (← IO.getEnv "HOME").getD "/"
    configHome := ← IO.getEnv "XDG_CONFIG_HOME"
    dataHome := ← IO.getEnv "XDG_DATA_HOME" }

/-- Where credentials are kept. -/
def credentialPath (env : Environment) : String :=
  joinPath (joinPath (Environment.baseOr env.dataHome (joinPath env.home ".local/share")) "prefs")
    "credentials.json"

/-- Reads the credentials. A missing file holds none. -/
def readCredentials (disk : Disk) (path : Path) : IO CredentialStore :=
  match disk.readText path with
  | .error _ => return {}
  | .ok text =>
    match CredentialFile.parse text with
    | .ok credentials => return credentials
    | .error fault => throw (IO.userError ("credentials: " ++ fault.message text.toList))

/-- The disk with the credentials written to it, where a run changed them. -/
def keepCredentials (before after : CredentialStore) (path : Path) (disk : Disk) : Disk :=
  if before.entries.entries = after.entries.entries then disk
  else
    let above := (path.parent?.map disk.ensureDirectories).getD (.ok disk)
    match above with
    | .error (_, disk) => disk
    | .ok disk => (disk.writeFile path (utf8 (CredentialFile.render after))).toOption.getD disk

/-- A page of help. -/
def helpPage : String :=
  "Typed, optionally encrypted, local preferences\n\n" ++
    "Usage: prefs <COMMAND>\n\n" ++
    "Commands:\n" ++
    "  version\n  health\n  config init\n" ++
    "  get <KEY> [--kind <KIND>]\n" ++
    "  set <KEY> <VALUE> [--kind <KIND>] [--sync]\n" ++
    "  contains <KEY>\n  encrypt-set <KEY> <VALUE>\n  encrypt-get <KEY>\n  help\n"

/-- Prints how a run ended. -/
def printOutcome (outcome : Outcome) : IO Unit := do
  IO.print (outcome.output?.getD helpPage)
  match outcome with
  | .usage fault => if fault.exitCode ≠ 0 then IO.eprint helpPage
  | .failed report =>
    IO.eprintln "Error:"
    for (n, message) in (List.range report.chain.length).zip report.chain do
      IO.eprintln s!"   {n}: {message}"
  | _ => pure ()

/-- One run of the program. -/
def run (words : List String) : IO UInt32 := do
  let env ← environment
  let cwd := (Path.ofString (← IO.currentDir).toString).names
  let place (path : String) := (Path.ofString path).fromRoot cwd
  let disk ← survey { nodes := ∅, cwd } (place env.configFile)
  let config := (Config.load disk env.configFile).toOption.getD {}
  let disk ← survey disk (place (config.effectiveDataFile env))
  let disk ← survey disk (place (credentialPath env))
  let path := Path.ofString (credentialPath env)
  let credentials ← readCredentials disk path
  let first ← drawChance
  let second ← drawChance
  let supply : Supply := { chance := fun n => if n % 2 = 0 then first else second }
  let (outcome, world) := World.run { disk, credentials, supply } env words
  writeBack disk (keepCredentials credentials world.credentials path world.disk)
  printOutcome outcome
  return UInt32.ofNat outcome.exitCode

end Preferences.Shell

/-- Runs the program on the words behind its name. -/
def main (words : List String) : IO UInt32 := Preferences.Shell.run words
