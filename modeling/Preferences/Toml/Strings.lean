import Preferences.Text.Bytes

/-!
# TOML strings

Four forms: with escapes or without, on one line or on several. Each reader starts behind the
opening quotes and gives the text and what follows the closing ones.
-/

namespace Preferences.Toml

/-- Is the character a blank? -/
def isBlank (c : Char) : Bool := c == ' ' || c == '\t'

/-- The text after its blanks. -/
def skipBlanks (cs : List Char) : List Char := cs.dropWhile isBlank

/-- The text after a line end, if it starts with one. -/
def lineEnd? : List Char → Option (List Char)
  | '\n' :: cs => some cs
  | '\r' :: '\n' :: cs => some cs
  | _ => none

/-- May the character stand for itself within a line? -/
def isText (c : Char) : Bool := c == '\t' || (0x20 ≤ c.toNat && c.toNat ≠ 0x7f)

/-- The character of an escape of one letter. -/
def shortEscape? (e : Char) : Option Char :=
  if e = 'b' then some '\x08'
  else if e = 't' then some '\t'
  else if e = 'n' then some '\n'
  else if e = 'f' then some '\x0c'
  else if e = 'r' then some '\r'
  else if e = 'e' then some '\x1b'
  else if e = '"' then some '"'
  else if e = '\\' then some '\\'
  else none

/-- The character with a hexadecimal number of so many digits. -/
def hexChar? (size : Nat) (cs : List Char) : Option Char := do
  let ds ← (cs.take size).mapM Hex.digit?
  let n := ds.foldl (fun n d => 16 * n + d) 0
  if ds.length = size ∧ n.isValidChar then some (Char.ofNat n) else none

/-- The character that an escape stands for, and how many characters it takes behind the backslash.
-/
def escape? : List Char → Option (Char × Nat)
  | [] => none
  | e :: cs =>
    match shortEscape? e with
    | some c => some (c, 1)
    | none =>
      if e = 'x' then (hexChar? 2 cs).map fun c => (c, 3)
      else if e = 'u' then (hexChar? 4 cs).map fun c => (c, 5)
      else if e = 'U' then (hexChar? 8 cs).map fun c => (c, 9)
      else none

/-- Puts a character before those read after it. -/
def push (c : Char) : Option (List Char × List Char) → Option (List Char × List Char) :=
  Option.map fun p => (c :: p.1, p.2)

/-- Reads a string with escapes on one line, passing over the first characters of it. -/
def basicBody : Nat → List Char → Option (List Char × List Char)
  | _, [] => none
  | n + 1, _ :: cs => basicBody n cs
  | 0, c :: cs =>
    if c = '"' then some ([], cs)
    else if c = '\\' then
      match escape? cs with
      | some (x, n) => push x (basicBody n cs)
      | none => none
    else if isText c then push c (basicBody 0 cs)
    else none

/-- Reads a string without escapes on one line. -/
def literalBody : List Char → Option (List Char × List Char)
  | [] => none
  | c :: cs =>
    if c = '\'' then some ([], cs)
    else if isText c then push c (literalBody cs)
    else none

/-- The text after its blanks and line ends. -/
def skipLines : List Char → List Char
  | [] => []
  | c :: cs =>
    if isBlank c || c == '\n' then skipLines cs
    else if c = '\r' then
      match cs with
      | '\n' :: ds => skipLines ds
      | _ => c :: cs
    else c :: cs

/-- How many characters a backslash at the end of a line takes with it: the line end and all blanks
and line ends after it. -/
def continuation? (cs : List Char) : Option Nat :=
  (lineEnd? (skipBlanks cs)).map fun rest => cs.length - (skipLines rest).length

/-- What closing quotes leave behind: up to two quotes before them belong to the text. -/
def closeQuotes? (q : Char) : List Char → Option (List Char × List Char)
  | a :: b :: cs =>
    if a = q ∧ b = q then
      match cs with
      | c :: d :: ds =>
        if c = q ∧ d = q then some ([q, q], ds)
        else if c = q then some ([q], d :: ds)
        else some ([], cs)
      | [c] => if c = q then some ([q], []) else some ([], [c])
      | [] => some ([], [])
    else none
  | _ => none

/-- May the text start with this character as one of several lines? -/
def isLineText (c : Char) (cs : List Char) : Bool :=
  if c = '\r' then cs.head? == some '\n' else c == '\n' || isText c

/-- Reads a string with escapes on several lines, passing over the first characters of it. -/
def longBody : Nat → List Char → Option (List Char × List Char)
  | _, [] => none
  | n + 1, _ :: cs => longBody n cs
  | 0, c :: cs =>
    if c = '"' then
      match closeQuotes? '"' cs with
      | some closed => some closed
      | none => push c (longBody 0 cs)
    else if c = '\\' then
      match escape? cs with
      | some (x, n) => push x (longBody n cs)
      | none =>
        -- no escape has a blank or a line end for its letter
        match continuation? cs with
        | some n => longBody n cs
        | none => none
    else if isLineText c cs then push c (longBody 0 cs)
    else none

/-- Reads a string without escapes on several lines. -/
def longLiteralBody : List Char → Option (List Char × List Char)
  | [] => none
  | c :: cs =>
    if c = '\'' then
      match closeQuotes? '\'' cs with
      | some closed => some closed
      | none => push c (longLiteralBody cs)
    else if isLineText c cs then push c (longLiteralBody cs)
    else none

/-- A line end right behind the opening quotes is not part of the text. -/
def skipFirstLineEnd (cs : List Char) : List Char := (lineEnd? cs).getD cs

/-- Reads a string of any form. -/
def string? : List Char → Option (String × List Char)
  | '"' :: '"' :: '"' :: cs => finish (longBody 0 (skipFirstLineEnd cs))
  | '\'' :: '\'' :: '\'' :: cs => finish (longLiteralBody (skipFirstLineEnd cs))
  | cs => line? cs
where
  /-- Makes a text of characters. -/
  finish : Option (List Char × List Char) → Option (String × List Char) :=
    Option.map fun p => (String.ofList p.1, p.2)
  /-- Reads a string on one line. -/
  line? : List Char → Option (String × List Char)
    | '"' :: cs => finish (basicBody 0 cs)
    | '\'' :: cs => finish (literalBody cs)
    | _ => none

end Preferences.Toml
