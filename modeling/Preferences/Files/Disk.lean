import Preferences.Data.Table
import Preferences.Files.Path

/-!
# A disk

Files and directories by their place, with the operations that preference files need and the faults
of each. A process may be refused to pass a directory, to put something into it, and to read a
file, write over it or replace it. Replacing a file puts the new one there as a whole or leaves the
old one as it was, while a write may break off.
-/

namespace Preferences

/-- Why a process is refused something on a disk. -/
inductive Refusal where
  | denied
  | notPermitted
  | noSpace
  | readOnly
  deriving DecidableEq

/-- Why an operation on the disk failed. -/
inductive FileError where
  | notFound
  | busy
  | alreadyExists
  | notDirectory
  | isDirectory
  | nameTooLong
  | refused (why : Refusal)
  | zeroByte
  | notText
  deriving DecidableEq

/-- The words for a failure. -/
def FileError.message : FileError → String
  | notFound => "No such file or directory (os error 2)"
  | busy => "Device or resource busy (os error 16)"
  | alreadyExists => "File exists (os error 17)"
  | notDirectory => "Not a directory (os error 20)"
  | isDirectory => "Is a directory (os error 21)"
  | nameTooLong => "File name too long (os error 36)"
  | refused .denied => "Permission denied (os error 13)"
  | refused .notPermitted => "Operation not permitted (os error 1)"
  | refused .noSpace => "No space left on device (os error 28)"
  | refused .readOnly => "Read-only file system (os error 30)"
  | zeroByte => "file name contained an unexpected NUL byte"
  | notText => "stream did not contain valid UTF-8"

/-- What a place of the disk holds. -/
inductive Node where
  | directory
  | file (content : Bytes)
  /-- A file that the process may not write over, with its content if it may read that. -/
  | guarded (content : Option Bytes) (why : Refusal)
  deriving DecidableEq

/-- What a file holds, if the process may read it. -/
def Node.content? : Node → Option Bytes
  | directory => none
  | file content => some content
  | guarded content _ => content

/-- What a process is refused at the places of a disk, those where nothing is yet among them. -/
structure Rights where
  /-- Directories through which no path leads. -/
  barred : List String → Bool := fun _ => false
  /-- Directories into which nothing can be put. -/
  locked : List String → Option Refusal := fun _ => none
  /-- Files that nothing can take the place of. -/
  pinned : List String → Option Refusal := fun _ => none
  /-- Files to which a write breaks off for want of space, and after how many bytes. -/
  breaks : List String → Option Nat := fun _ => none

/-- A disk. The root is a directory that is always there. -/
structure Disk where
  nodes : Table (List String) Node
  /-- The working directory. -/
  cwd : List String
  rights : Rights := {}

/-- The bytes of a path that the system takes, with a zero byte behind them. -/
def longestPath : Nat := 4096

/-- The bytes of a name that a directory takes. -/
def longestName : Nat := 255

/-- Why the system takes no path like this, wherever it leads. -/
def Path.fault? (p : Path) : Option FileError :=
  if p.names.any fun name => name.toList.contains '\x00' then some .zeroByte
  else if longestPath < p.size then some .nameTooLong
  else none

namespace Disk

/-- A disk on which only the working directory and those above it exist. -/
def fresh (cwd : List String) : Disk where
  nodes := (List.range cwd.length).foldl (fun t n => t.insert (cwd.take (n + 1)) .directory) ∅
  cwd := cwd

/-- What is at a place. -/
def node? (d : Disk) (place : List String) : Option Node :=
  if place = [] then some .directory else d.nodes.get? place

/-- Where a name leads from a directory. -/
def entered (place : List String) (name : String) : List String :=
  if name = "." then place else if name = ".." then place.dropLast else place ++ [name]

/-- Looks up one name at a place. Something need not be there, but the place is a directory. -/
def enter (d : Disk) (place : List String) (name : String) : Except FileError (List String) :=
  match d.node? place with
  | none => .error .notFound
  | some .directory =>
    if d.rights.barred place then .error (.refused .denied)
    else if longestName < utf8Size name.toList then .error .nameTooLong
    else .ok (entered place name)
  | some _ => .error .notDirectory

/-- Follows names from a place on. -/
def follow (d : Disk) (place names : List String) : Except FileError (List String) :=
  names.foldlM d.enter place

/-- The place that a path leads to. The empty path leads nowhere. -/
def locate (d : Disk) (p : Path) : Except FileError (List String) :=
  if p.isEmpty then .error .notFound
  else
    match p.fault? with
    | some e => .error e
    | none => d.follow (p.start d.cwd) p.steps

/-- What a path leads to. -/
def lookup (d : Disk) (p : Path) : Except FileError Node := do
  let place ← d.locate p
  match d.node? place with
  | none => .error .notFound
  | some .directory => return .directory
  | some node => if p.ending = .slash then .error .notDirectory else return node

/-- Does the path lead to something? -/
def isThere (d : Disk) (p : Path) : Bool := (d.lookup p).isOk

/-- Does the path lead to a directory? -/
def isDirectory (d : Disk) (p : Path) : Bool :=
  match d.lookup p with
  | .ok .directory => true
  | _ => false

/-- The bytes of a file. -/
def readBytes (d : Disk) (p : Path) : Except FileError Bytes := do
  match ← d.lookup p with
  | .directory => .error .isDirectory
  | node =>
    match node.content? with
    | some content => return content
    | none => .error (.refused .denied)

/-- The text of a file. -/
def readText (d : Disk) (p : Path) : Except FileError String := do
  match Utf8.decode (← d.readBytes p) with
  | .ok s => return s
  | .error _ => .error .notText

/-- Why nothing can be put at a place, if that is so: its directory takes nothing. -/
def refusal? (d : Disk) (place : List String) : Option Refusal := d.rights.locked place.dropLast

/-- Makes one directory. -/
def makeDirectory (d : Disk) (p : Path) : Except FileError Disk := do
  let place ← d.locate p
  match d.node? place with
  | some _ => .error .alreadyExists
  | none =>
    match d.refusal? place with
    | some why => .error (.refused why)
    | none => return { d with nodes := d.nodes.insert place .directory }

/-- Makes one directory, or takes one that is there. -/
def ensureDirectory (d : Disk) (p : Path) : Except FileError Disk :=
  match d.makeDirectory p with
  | .ok d => .ok d
  | .error e => if d.isDirectory p then .ok d else .error e

/-- Makes a directory and those above it, outermost first; `names` counts those still to try. A
failure leaves what was made before it. -/
def ensureAbove (d : Disk) (p : Path) : Nat → Except (FileError × Disk) Disk
  | 0 => .ok d
  | n + 1 =>
    match d.ensureDirectory p with
    | .ok d => .ok d
    | .error .notFound =>
      match p.parent? with
      | none => .error (.notFound, d)
      | some q =>
        match d.ensureAbove q n with
        | .error e => .error e
        | .ok d => (d.ensureDirectory p).mapError (·, d)
    | .error e => .error (e, d)

/-- Makes a directory and all that are missing above it. The empty path is the working directory. -/
def ensureDirectories (d : Disk) (p : Path) : Except (FileError × Disk) Disk :=
  if p.isEmpty then .ok d else d.ensureAbove p (p.names.length + 1)

/-- The disk with a file at a place. -/
def putFile (d : Disk) (place : List String) (content : Bytes) : Disk :=
  { d with nodes := d.nodes.insert place (.file content) }

/-- Why a file cannot be written at a place, if that is so: what is there is written over as it
stands, and only where nothing is, its directory takes the file. -/
def writeRefusal? (d : Disk) (place : List String) : Option Refusal :=
  match d.node? place with
  | none => d.refusal? place
  | some (.guarded _ why) => some why
  | some _ => none

/-- Writes a file, over what was in it or where nothing was. One that breaks off leaves what was
written before. -/
def writeFile (d : Disk) (p : Path) (content : Bytes) : Except (FileError × Disk) Disk :=
  match d.locate p with
  | .error e => .error (e, d)
  | .ok place =>
    if !p.isNamed || p.ending = .slash || d.node? place = some .directory then
      .error (.isDirectory, d)
    else
      match d.writeRefusal? place with
      | some why => .error (.refused why, d)
      | none =>
        match d.rights.breaks place with
        | some n => .error (.refused .noSpace, d.putFile place (content.take n))
        | none => .ok (d.putFile place content)

/-- The path of the scratch file that is written in a directory before it replaces another one. Of
its name the last six letters are drawn each time. -/
def scratchPath (d : Disk) (directory : Path) : Path :=
  let above := (directory.start d.cwd).length
  { absolute := true
    names := directory.fromRoot d.cwd ++ [".tmpAAAAAA"]
    passedOver := directory.passedOver.map fun e => (e.1 + above, e.2) }

/-- Writes a scratch file in a directory, which is not there any more when it has replaced another
file or that has failed. -/
def tryScratch (d : Disk) (directory : Path) : Except FileError Unit := do
  let place ← d.locate (d.scratchPath directory)
  match d.refusal? place with
  | some why => .error (.refused why)
  | none => if (d.rights.breaks place).isSome then .error (.refused .noSpace) else return ()

/-- Why nothing can take the place of what is at a place, if that is so. -/
def replaceRefusal? (d : Disk) (place : List String) : Option Refusal :=
  (d.refusal? place).or (d.rights.pinned place)

/-- Puts a scratch file of the same directory in the place of a file, or where nothing was. -/
def replaceFile (d : Disk) (p : Path) (content : Bytes) : Except FileError Disk := do
  let place ← d.locate p
  if !p.isNamed then .error .busy
  if p.ending = .slash then .error .notDirectory
  if d.node? place = some .directory then .error .isDirectory
  match d.replaceRefusal? place with
  | some why => .error (.refused why)
  | none => return d.putFile place content

/-- Takes away what a path leads to, with all below it. -/
def remove (d : Disk) (p : Path) : Disk :=
  match d.locate p with
  | .error _ => d
  | .ok place =>
    { d with nodes :=
        ⟨d.nodes.entries.filter fun e => !place.isPrefixOf e.1, d.nodes.increasing.filter _⟩ }

/-- The names below the working directory in order, directories with a final slash. -/
def listing (d : Disk) : List String :=
  let below := d.nodes.entries.filterMap fun e =>
    if d.cwd.isPrefixOf e.1 && d.cwd.length < e.1.length then
      let name := "/".intercalate (e.1.drop d.cwd.length)
      some (match e.2 with | .directory => name ++ "/" | _ => name)
    else none
  below.mergeSort fun a b => !(b < a)

end Disk

end Preferences
