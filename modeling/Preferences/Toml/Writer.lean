import Preferences.Text.Characters
import Preferences.Toml.Strings

/-!
# Writing TOML strings

A text is written in the first of four forms that can hold it as it is, or else with escapes.
-/

namespace Preferences.Toml

/-- Is the character a control character other than a tab or a line feed? -/
def isControl (c : Char) : Bool := c != '\t' && c != '\n' && (c.toNat < 0x20 || c.toNat == 0x7f)

/-- The length of the longest run of a character. -/
def longestRun (q : Char) : (current best : Nat) → List Char → Nat
  | current, best, [] => max current best
  | current, best, c :: cs =>
    if c = q then longestRun q (current + 1) best cs else longestRun q 0 (max current best) cs

/-- How a string is written. -/
inductive Style where
  | basic
  | literal
  | longBasic
  | longLiteral
  deriving DecidableEq

/-- Does the text need escapes because of a control character or a tab? -/
def needsCodes (cs : List Char) : Bool := cs.any fun c => c == '\t' || isControl c

/-- The style of a text. -/
def style (cs : List Char) : Style :=
  let lines := cs.contains '\n'
  if needsCodes cs then (if lines then .longBasic else .basic)
  else if !lines && !cs.contains '\\' && !cs.contains '"' then .basic
  else if !lines && !cs.contains '\'' then .literal
  else if !cs.contains '\\' && longestRun '"' 0 0 cs ≤ 2 then .longBasic
  else if longestRun '\'' 0 0 cs ≤ 2 then .longLiteral
  else if lines then .longBasic
  else .basic

/-- The escape of a character, if it has a letter of its own. -/
def letterFor? (c : Char) : Option Char :=
  if c = '\x08' then some 'b'
  else if c = '\t' then some 't'
  else if c = '\x0c' then some 'f'
  else if c = '\r' then some 'r'
  else if c = '\\' then some '\\'
  else none

/-- A code of four hexadecimal digits. -/
def codeChars (c : Char) : List Char :=
  let ds := (Nat.toDigits 16 c.toNat).map Char.toUpper
  '\\' :: 'u' :: (List.replicate (4 - ds.length) '0' ++ ds)

/-- The characters between the quotes of a string with escapes. On several lines, up to `limit`
quotes in a row stand for themselves; `seen` of them have been written. -/
def basicChars (long : Bool) (limit : Nat) : Nat → List Char → List Char
  | _, [] => []
  | seen, c :: cs =>
    if c = '"' then
      if seen < limit then c :: basicChars long limit (seen + 1) cs
      else '\\' :: '"' :: basicChars long limit 0 cs
    else
      (match letterFor? c with
        | some e => ['\\', e]
        | none =>
          if c = '\n' then (if long then [c] else ['\\', 'n'])
          else if isControl c then codeChars c
          else [c]) ++ basicChars long limit 0 cs

/-- A string in its style. Those on several lines start with a line end if the text has one. -/
def stringChars (s : String) : List Char :=
  let cs := s.toList
  let start := if cs.contains '\n' then ['\n'] else []
  match style cs with
  | .basic => '"' :: basicChars false 0 0 cs ++ ['"']
  | .literal => '\'' :: cs ++ ['\'']
  | .longBasic =>
    '"' :: '"' :: '"' :: start ++ basicChars true 2 0 cs ++ ['"', '"', '"']
  | .longLiteral => '\'' :: '\'' :: '\'' :: start ++ cs ++ ['\'', '\'', '\'']

/-- A line with a key and a text. -/
def lineFor (k s : String) : String := k ++ " = " ++ String.ofList (stringChars s) ++ "\n"

end Preferences.Toml
