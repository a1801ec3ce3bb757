import Preferences.Toml.Scalar
import Preferences.Toml.Strings

/-!
# Reading TOML

A document is read line by line: blank lines, headers and keys with their values.
-/

namespace Preferences.Toml

/-- Passes over blanks, line ends and comments. -/
def skipVoid (inComment : Bool) : List Char → Option (List Char)
  | [] => some []
  | c :: cs =>
    if c = '\n' then skipVoid false cs
    else if c = '\r' then
      match cs with
      | '\n' :: ds => skipVoid false ds
      | _ => none
    else if inComment then
      if isText c then skipVoid true cs else none
    else if isBlank c then skipVoid false cs
    else if c = '#' then skipVoid true cs
    else some (c :: cs)

/-- Passes over what may stand behind the last word of a line: blanks and a comment. -/
def skipLine (inComment : Bool) : List Char → Option (List Char)
  | [] => some []
  | c :: cs =>
    if c = '\n' then some cs
    else if c = '\r' then
      match cs with
      | '\n' :: ds => some ds
      | _ => none
    else if inComment then
      if isText c then skipLine true cs else none
    else if isBlank c then skipLine false cs
    else if c = '#' then skipLine true cs
    else none

/-- May the character stand in a key without quotes? -/
def isKeyChar (c : Char) : Bool := c.isAlphanum || c == '_' || c == '-'

/-- Reads one part of a key. -/
def keyPart? (cs : List Char) : Option (String × List Char) :=
  match cs with
  | [] => none
  | c :: ds =>
    if c = '"' ∨ c = '\'' then string?.line? (c :: ds)
    else
      let word := (c :: ds).takeWhile isKeyChar
      if word.isEmpty then none else some (String.ofList word, (c :: ds).dropWhile isKeyChar)

/-- Reads a key: the parts before the last one, and the last one. The fuel bounds their number. -/
def key? : Nat → List Char → Option ((List String × String) × List Char)
  | 0, _ => none
  | fuel + 1, cs => do
    let (part, cs) ← keyPart? cs
    match skipBlanks cs with
    | '.' :: cs =>
      let ((path, last), cs) ← key? fuel (skipBlanks cs)
      return ((part :: path, last), cs)
    | cs => return (([], part), cs)

/-- Reads a key of any number of parts. -/
def wholeKey? (cs : List Char) : Option ((List String × String) × List Char) :=
  key? (cs.length + 1) cs

/-- May the character stand in a scalar? -/
def isScalarChar (c : Char) : Bool :=
  c.isAlphanum || c == '+' || c == '-' || c == '_' || c == '.' || c == ':'

/-- The characters of a scalar, and the rest. A date and a time may have one blank between them. -/
def scalarWord (cs : List Char) : List Char × List Char :=
  let word := cs.takeWhile isScalarChar
  let rest := cs.dropWhile isScalarChar
  match date? word, rest with
  | some [], ' ' :: d :: ds =>
    if d.isDigit then
      (word ++ ' ' :: (d :: ds).takeWhile isScalarChar, (d :: ds).dropWhile isScalarChar)
    else (word, rest)
  | _, _ => (word, rest)

/-- Reads the items of an array, behind its bracket. The fuel bounds their number. -/
def items? (value : List Char → Option (Toml × List Char)) :
    Nat → List Char → Option (List Toml × List Char)
  | 0, _ => none
  | fuel + 1, cs => do
    match ← skipVoid false cs with
    | [] => none
    | c :: cs =>
      if c = ']' then return ([], cs)
      else
        let (v, cs) ← value (c :: cs)
        match ← skipVoid false cs with
        | ',' :: cs =>
          let (vs, cs) ← items? value fuel cs
          return (v :: vs, cs)
        | ']' :: cs => return ([v], cs)
        | _ => none

/-- Reads a key and its value into a table. -/
def pair? (value : List Char → Option (Toml × List Char)) (es : Entries) (cs : List Char) :
    Option (Entries × List Char) := do
  let ((path, last), cs) ← wholeKey? cs
  let cs ← mark? '=' cs
  let (v, cs) ← value (skipBlanks cs)
  let es ← addDotted path last v es
  return (es, cs)

/-- Reads the entries of an inline table, behind its brace. The fuel bounds their number. -/
def entries? (value : List Char → Option (Toml × List Char)) :
    Nat → Entries → List Char → Option (Entries × List Char)
  | 0, _, _ => none
  | fuel + 1, es, cs => do
    match ← skipVoid false cs with
    | [] => none
    | c :: cs =>
      if c = '\x7d' then return (es, cs)
      else
        let (es, cs) ← pair? value es (c :: cs)
        match ← skipVoid false cs with
        | [] => none
        | d :: cs =>
          if d = ',' then entries? value fuel es cs
          else if d = '\x7d' then return (es, cs)
          else none

/-- Reads a value, with so many brackets that may still be opened. -/
def value? : Nat → List Char → Option (Toml × List Char)
  | _, [] => none
  | depth, c :: cs =>
    if c = '"' ∨ c = '\'' then (string? (c :: cs)).map fun p => (string p.1, p.2)
    else if c = '[' then
      match depth with
      | 0 => none
      | depth + 1 => (items? (value? depth) (cs.length + 1) cs).map fun p => (array p.1, p.2)
    else if c = '\x7b' then
      match depth with
      | 0 => none
      | depth + 1 =>
        (entries? (value? depth) (cs.length + 1) [] cs).map fun p => (table .inline p.1, p.2)
    else do
      let (word, rest) := scalarWord (c :: cs)
      return (scalar (← scalar? word), rest)

/-- How many brackets may be open at a time. -/
def maxDepth : Nat := 80

/-- What has been read, and the header under which keys are read. -/
structure Progress where
  root : Entries := []
  header : List String := []

/-- Reads a header behind its first bracket. -/
def header? (p : Progress) (cs : List Char) : Option (Progress × List Char) :=
  match cs with
  -- a second bracket asks for a new table of an array
  | '[' :: cs => do
    let ((path, last), cs) ← wholeKey? (skipBlanks cs)
    let cs ← mark? ']' cs
    let cs ← mark? ']' cs
    let root ← atHeader (openElement last) path p.root
    return (⟨root, path ++ [last]⟩, cs)
  | cs => do
    let ((path, last), cs) ← wholeKey? (skipBlanks cs)
    let cs ← mark? ']' cs
    let root ← atHeader (openTable last) path p.root
    return (⟨root, path ++ [last]⟩, cs)

/-- Reads a key and its value under the header. -/
def line? (p : Progress) (cs : List Char) : Option (Progress × List Char) := do
  let ((path, last), cs) ← wholeKey? cs
  let cs ← mark? '=' cs
  let (v, cs) ← value? maxDepth (skipBlanks cs)
  let root ← atHeader (addDotted path last v) p.header p.root
  return ({ p with root }, cs)

/-- Reads all lines. The fuel bounds their number. -/
def lines? : Nat → Progress → List Char → Option Entries
  | 0, _, _ => none
  | fuel + 1, p, cs => do
    match ← skipVoid false cs with
    | [] => return p.root
    | c :: cs =>
      let (p, cs) ← if c = '[' then header? p cs else line? p (c :: cs)
      lines? fuel p (← skipLine false cs)

/-- Passes over a byte order mark. -/
def skipMark : List Char → List Char
  | c :: cs => if c = '\ufeff' then cs else c :: cs
  | [] => []

/-- The table of a whole document. -/
def parse (text : String) : Option Entries :=
  let cs := skipMark text.toList
  lines? (cs.length + 1) {} cs

end Preferences.Toml
