import Preferences.Json.Basic
import Preferences.Number.Binary

/-!
# JSON texts of values

One printer for every layout: a layout says which blanks stand before an item and what divides a key
from its value.
-/

namespace Preferences

/-- The blanks of a JSON text. -/
structure Layout where
  /-- What stands before an item, or before a closing bracket, at a nesting level. -/
  newline : Nat → List Char
  /-- What divides a key from its value. -/
  colon : List Char

/-- No blanks at all. -/
def Layout.compact : Layout := ⟨fun _ => [], [':']⟩

/-- A line for every item, indented by two spaces a level. -/
def Layout.pretty : Layout := ⟨fun n => '\n' :: List.replicate (2 * n) ' ', [':', ' ']⟩

namespace Json

/-- A character inside a JSON string. -/
def escapeChar (c : Char) : List Char :=
  if c = '"' then ['\\', '"']
  else if c = '\\' then ['\\', '\\']
  else if c = '\x08' then ['\\', 'b']
  else if c = '\t' then ['\\', 't']
  else if c = '\n' then ['\\', 'n']
  else if c = '\x0c' then ['\\', 'f']
  else if c = '\r' then ['\\', 'r']
  else if c.toNat < 0x20 then
    ['\\', 'u', '0', '0', Nat.digitChar (c.toNat / 16), Nat.digitChar (c.toNat % 16)]
  else [c]

/-- A JSON string with its quotes. -/
def stringChars (s : String) : List Char := '"' :: s.toList.flatMap escapeChar ++ ['"']

/-- The text of a number. -/
def numberChars : JsonNumber → List Char
  | .int z => intDigits z.val
  | .float x => floatChars x

mutual

/-- The text of a value at a nesting level. -/
def render (l : Layout) (level : Nat) : Json → List Char
  | null => ['n', 'u', 'l', 'l']
  | bool true => ['t', 'r', 'u', 'e']
  | bool false => ['f', 'a', 'l', 's', 'e']
  | number n => numberChars n
  | string s => stringChars s
  | array items => '[' :: renderItems l level true items
  | object members => '\x7b' :: renderMembers l level true members
termination_by structural j => j

/-- The items of a list up to and with its closing bracket. -/
def renderItems (l : Layout) (level : Nat) (first : Bool) : List Json → List Char
  | [] => (if first then [] else l.newline level) ++ [']']
  | j :: js =>
    (if first then [] else [',']) ++ l.newline (level + 1) ++ j.render l (level + 1) ++
      renderItems l level false js
termination_by structural js => js

/-- The members of an object up to and with its closing brace. -/
def renderMembers (l : Layout) (level : Nat) (first : Bool) : List (String × Json) → List Char
  | [] => (if first then [] else l.newline level) ++ ['\x7d']
  | (k, j) :: ms =>
    (if first then [] else [',']) ++ l.newline (level + 1) ++ stringChars k ++ l.colon ++
      j.render l (level + 1) ++ renderMembers l level false ms
termination_by structural ms => ms

end

/-- The text of a value without blanks. -/
def compact (j : Json) : String := String.ofList (j.render .compact 0)

/-- The text of a value with a line for every item. -/
def pretty (j : Json) : String := String.ofList (j.render .pretty 0)

end Json

end Preferences
