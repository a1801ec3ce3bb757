import Preferences.Command.Report

/-!
# Arguments

The commands, and how they are read from the words of a command line. Options may stand anywhere
among the other words, a word `--` makes all words after it plain, and the first thing that is wrong
is reported. The value of an option is looked at only when the next word is taken.
-/

namespace Preferences

/-- What the program is asked to do. -/
inductive Command where
  | version
  | health
  | configInit
  | get (key : String) (kind : ValueKind)
  | set (key value : String) (kind : ValueKind) (sync : Bool)
  | contains (key : String)
  | encryptSet (key value : String)
  | encryptGet (key : String)
  deriving DecidableEq

/-- Why the words are no command. -/
inductive UsageFault where
  /-- Help is asked for. -/
  | help
  /-- The version of a command is asked for. -/
  | version (name : String)
  | missingSubcommand
  | invalidSubcommand
  | unknownArgument
  | missingArgument
  | invalidValue
  /-- An option is given twice. -/
  | conflict
  /-- A value is given to an option that takes none. -/
  | tooManyValues
  deriving DecidableEq

namespace UsageFault

/-- The exit code after a fault. -/
def exitCode : UsageFault → Nat
  | help => 0
  | version _ => 0
  | _ => 2

/-- Does the fault wait until an option's value that was put off has been looked at? -/
def waits : UsageFault → Bool
  | help => true
  | version _ => true
  | _ => false

end UsageFault

/-- The version of the program. -/
def programVersion : String := "0.1.0"

/-- The line that tells the version of a command. -/
def versionLine (name : String) : String := name ++ " " ++ programVersion ++ "\n"

namespace Arguments

/-- An option as a word writes it. -/
inductive OptionWord where
  /-- A name behind two hyphens, and what follows an equals sign. -/
  | long (name : String) (value : Option String)
  /-- The first letter behind one hyphen. -/
  | short (letter : Char)

/-- The option that a word writes. One hyphen alone is a plain word. -/
def option? (word : String) : Option OptionWord :=
  match word.toList with
  | '-' :: '-' :: cs =>
    let name := String.ofList (cs.takeWhile (· ≠ '='))
    match cs.dropWhile (· ≠ '=') with
    | _ :: v => some (.long name (some (String.ofList v)))
    | [] => some (.long name none)
  | '-' :: c :: _ => some (.short c)
  | _ => none

/-- What a command without subcommands takes. -/
structure Form where
  name : String
  /-- The number of plain words. -/
  arity : Nat := 0
  takesKind : Bool := false
  takesSync : Bool := false

/-- The words read so far. -/
structure Words where
  plain : List String := []
  kind : Option ValueKind := none
  sync : Bool := false
  /-- A kind that is still to be looked at, with its word if that has been read. -/
  pending : Option (Option String) := none
  deriving DecidableEq

/-- Looks at the kind that was put off. -/
def Words.settle (w : Words) : Except UsageFault Words :=
  match w.pending with
  | none => .ok w
  | some none => .error .invalidValue
  | some (some word) =>
    if w.kind.isSome then .error .conflict
    else
      match ValueKind.ofName? word with
      | some kind => .ok { w with kind := some kind, pending := none }
      | none => .error .invalidValue

/-- Help and version, which every command has. -/
def common (name : String) : OptionWord → UsageFault
  | .long "help" none => .help
  | .long "help" (some _) => .tooManyValues
  | .long "version" none => .version name
  | .long "version" (some _) => .tooManyValues
  | .long _ _ => .unknownArgument
  | .short letter =>
    if letter = 'h' then .help
    else if letter = 'V' then .version name
    else .unknownArgument

/-- Reports help or version, after a kind that was put off. -/
def Words.report (w : Words) (fault : UsageFault) : Except UsageFault Words :=
  if fault.waits then
    match w.settle with
    | .ok _ => .error fault
    | .error earlier => .error earlier
  else .error fault

/-- Takes an option. -/
def Words.takeOption (form : Form) (w : Words) (o : OptionWord) : Except UsageFault Words :=
  match o with
  | .long "kind" value =>
    if form.takesKind then do
      let w ← w.settle
      match value with
      | none => return { w with pending := some none }
      | some word => Words.settle { w with pending := some (some word) }
    else .error .unknownArgument
  | .long "sync" value =>
    if form.takesSync then
      if value.isSome then .error .tooManyValues
      else do
        let w ← w.settle
        if w.sync then .error .conflict else return { w with sync := true }
    else .error .unknownArgument
  | o => w.report (common form.name o)

/-- Takes a plain word. -/
def Words.takePlain (form : Form) (w : Words) (word : String) : Except UsageFault Words :=
  if w.plain.length < form.arity then do
    let w ← w.settle
    return { w with plain := w.plain ++ [word] }
  else .error .unknownArgument

/-- Reads the words of a command without subcommands. -/
def read (form : Form) (escaped : Bool) (w : Words) : List String → Except UsageFault Words
  | [] => w.settle
  | word :: rest =>
    if escaped then do read form true (← w.takePlain form word) rest
    else if word = "--" then read form true w rest
    else
      match option? word with
      | some o => do read form false (← w.takeOption form o) rest
      | none =>
        -- the option before it still wants a value
        if w.pending = some none then read form false { w with pending := some (some word) } rest
        else do read form false (← w.takePlain form word) rest

/-- The program and its subcommands. -/
inductive Subcommand where
  | version
  | health
  | config
  | get
  | set
  | contains
  | encryptSet
  | encryptGet
  deriving DecidableEq

namespace Subcommand

/-- The name of a subcommand. -/
def name : Subcommand → String
  | version => "version"
  | health => "health"
  | config => "config"
  | get => "get"
  | set => "set"
  | contains => "contains"
  | encryptSet => "encrypt-set"
  | encryptGet => "encrypt-get"

/-- All subcommands. -/
def all : List Subcommand :=
  [version, health, config, get, set, contains, encryptSet, encryptGet]

/-- The subcommand of a name. -/
def ofName? (s : String) : Option Subcommand := all.find? fun c => c.name == s

/-- What a subcommand takes. -/
def form (c : Subcommand) : Form :=
  let name := "prefs-" ++ c.name
  match c with
  | version | health | config => { name }
  | get => { name, arity := 1, takesKind := true }
  | set => { name, arity := 2, takesKind := true, takesSync := true }
  | contains | encryptGet => { name, arity := 1 }
  | encryptSet => { name, arity := 2 }

/-- The command that the words of a subcommand make. -/
def command (c : Subcommand) (w : Words) : Except UsageFault Command :=
  match c, w.plain with
  | version, _ => .ok .version
  | health, _ => .ok .health
  | config, _ => .error .missingSubcommand
  | get, [key] => .ok (.get key (w.kind.getD .string))
  | set, [key, value] => .ok (.set key value (w.kind.getD .string) w.sync)
  | contains, [key] => .ok (.contains key)
  | encryptSet, [key, value] => .ok (.encryptSet key value)
  | encryptGet, [key] => .ok (.encryptGet key)
  | _, _ => .error .missingArgument

end Subcommand

/-- Reads words up to the name of a subcommand and hands the rest over. -/
def readGroup (name : String) (dispatch : String → Option (List String → Except UsageFault Command))
    (escaped : Bool) : List String → Except UsageFault Command
  | [] => .error .missingSubcommand
  | word :: rest =>
    if escaped then
      .error (if (dispatch word).isSome then .unknownArgument else .invalidSubcommand)
    else
      match dispatch word with
      | some next => next rest
      | none =>
        if word = "--" then readGroup name dispatch true rest
        else
          match option? word with
          | some o => .error (common name o)
          | none => .error .invalidSubcommand

/-- Help about a subcommand of `config`. -/
def configHelp : List String → UsageFault
  | [] => .help
  | [word] => if word = "init" ∨ word = "help" then .help else .invalidSubcommand
  | _ => .invalidSubcommand

/-- Help about a subcommand of the program. -/
def programHelp : List String → UsageFault
  | [] => .help
  | word :: rest =>
    if word = "config" then configHelp rest
    else if (Subcommand.ofName? word).isSome ∨ word = "help" then
      (if rest.isEmpty then .help else .invalidSubcommand)
    else .invalidSubcommand

/-- The subcommands of `config`. -/
def configDispatch (word : String) : Option (List String → Except UsageFault Command) :=
  if word = "init" then
    some fun rest => (read { name := "prefs-config-init" } false {} rest).map fun _ => .configInit
  else if word = "help" then some fun rest => .error (configHelp rest)
  else none

/-- The subcommands of the program. -/
def programDispatch (word : String) : Option (List String → Except UsageFault Command) :=
  if word = "help" then some fun rest => .error (programHelp rest)
  else
    match Subcommand.ofName? word with
    | some .config => some (readGroup "prefs-config" configDispatch false)
    | some c => some fun rest => do c.command (← read c.form false {} rest)
    | none => none

end Arguments

/-- The command that the words behind the program's name make. -/
def Command.parse (words : List String) : Except UsageFault Command :=
  Arguments.readGroup "prefs" Arguments.programDispatch false words

end Preferences
