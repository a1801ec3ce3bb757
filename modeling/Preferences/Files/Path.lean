import Preferences.Text.Bytes

/-!
# Paths

A path is a list of names, from the root or from the working directory. Names `.` are passed over
but for a leading one, as are slashes in a row, and `..` is left to the disk. A slash or a name `.`
behind the last name asks for a directory, each in its way. What is passed over leads nowhere else,
but counts for the length of the path.
-/

namespace Preferences

/-- What the text of a path ends in. -/
inductive PathEnd where
  /-- Its last name. -/
  | name
  /-- A slash behind its last name. -/
  | slash
  /-- A name `.` behind its last name, which the system looks up in a directory of that name. -/
  | dot
  deriving DecidableEq

/-- A path of a file or directory. -/
structure Path where
  /-- Does it start at the root? -/
  absolute : Bool
  names : List String
  ending : PathEnd := .name
  /-- What the text has beside these: slashes, and names `.` with the slash behind them, each with
  the number of names before it. -/
  passedOver : List (Nat × String) := []
  deriving DecidableEq

namespace Path

/-- The characters before the first slash, and the texts behind each slash up to the next one. -/
def segments : List Char → List Char × List String
  | [] => ([], [])
  | c :: cs =>
    let (first, rest) := segments cs
    if c = '/' then ([], String.ofList first :: rest) else (c :: first, rest)

/-- The texts between the slashes of a text. -/
def parts (cs : List Char) : List String :=
  let (first, rest) := segments cs
  String.ofList first :: rest

/-- Is a text between slashes a name, which is not passed over? -/
def isName (part : String) : Bool := part ≠ "" && part ≠ "."

/-- A leading `.` of a path that does not start at the root, and what is behind it or behind the
slash that stands for the root. -/
def splitLead : Bool → List String → List String × List String
  | true, parts => ([], parts.tail)
  | false, "." :: parts => (["."], parts)
  | false, parts => ([], parts)

/-- What is passed over among the texts between slashes, `n` names being before them. -/
def passOver : Nat → List String → List (Nat × String)
  | _, [] => []
  | n, part :: parts =>
    if isName part then passOver (n + 1) parts else (n, part ++ "/") :: passOver n parts

/-- The path that a text writes. -/
def ofString (s : String) : Path :=
  let absolute := s.toList.head? == some '/'
  let (lead, parts) := splitLead absolute (parts s.toList)
  let ending :=
    if (parts.filter (· ≠ "")).getLast? = some "." then .dot
    else if s.toList.getLast? = some '/' then .slash
    else .name
  ⟨absolute, lead ++ parts.filter isName, ending, passOver lead.length parts⟩

/-- The path of the directory that holds a path; the root and the empty path have none. -/
def parent? (p : Path) : Option Path :=
  if p.names = [] then none
  else
    let before := p.names.dropLast
    some ⟨p.absolute, before, .name, p.passedOver.filter fun e => e.1 < before.length⟩

/-- Is the path empty? -/
def isEmpty (p : Path) : Bool := !p.absolute && p.names.isEmpty

/-- What is looked up behind the last name. -/
def trailing (p : Path) : List String := if p.ending = .dot then ["."] else []

/-- The names that lead to the end of the path. -/
def steps (p : Path) : List String := p.names ++ p.trailing

/-- The place that the path starts at, for a working directory. -/
def start (cwd : List String) (p : Path) : List String := if p.absolute then [] else cwd

/-- All names from the root on, for a working directory. -/
def fromRoot (cwd : List String) (p : Path) : List String := p.start cwd ++ p.steps

/-- What of the text is passed over right behind so many names. -/
def passedBehind (p : Path) (n : Nat) : String :=
  String.join ((p.passedOver.filter fun e => e.1 = n).map (·.2))

/-- The text of a path without what it ends in. -/
def text (p : Path) : String :=
  (if p.absolute then "/" else "") ++
    "/".intercalate (p.names.mapIdx fun n name => p.passedBehind n ++ name)

/-- Does the path end in a name that a file can have? -/
def isNamed (p : Path) : Bool :=
  p.ending != .dot && p.names.getLast?.any fun last => last != "." && last != ".."

/-- The bytes of the path's text with a zero byte behind it. -/
def size (p : Path) : Nat :=
  (p.names.flatMap fun name => utf8 (name ++ "/")).length +
    (p.passedOver.flatMap fun e => utf8 e.2).length + (if p.absolute then 1 else 0)

end Path

/-- A name behind a directory's text. -/
def joinPath (base name : String) : String :=
  if base.toList.getLast? = some '/' then base ++ name else base ++ "/" ++ name

end Preferences
