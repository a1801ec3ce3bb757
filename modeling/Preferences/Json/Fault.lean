import Preferences.Json.Printer
import Preferences.Text.Characters
import Preferences.Text.Bytes

/-!
# Faults of JSON texts

A fault has a cause and, in the end, a place. A reader works on the characters that are left, so the
place is kept as the number of bytes left; a fault of the data rather than of the text floats, with
the characters left at that moment, until the value that reports it is left.
-/

namespace Preferences

/-- What a text holds in place of the expected value. -/
inductive Found where
  | null
  | bool (b : Bool)
  | number (n : JsonNumber)
  | string (s : String)
  | sequence
  | map
  | unitVariant

/-- The words for what was found. -/
def Found.message : Found → String
  | null => "null"
  | bool b => s!"boolean `{b}`"
  | number (.int z) => "integer `" ++ String.ofList (intDigits z.val) ++ "`"
  | number (.float x) => "floating point `" ++ String.ofList (floatChars x) ++ "`"
  | string s => "string " ++ quoted s
  | sequence => "sequence"
  | map => "map"
  | unitVariant => "unit variant"

/-- Why a text does not give the value asked for. -/
inductive Cause where
  | eofList
  | eofObject
  | eofString
  | eofValue
  | expectedColon
  | expectedListCommaOrEnd
  | expectedObjectCommaOrEnd
  | expectedIdent
  | expectedValue
  | expectedQuote
  | expectedNumericKey
  | invalidEscape
  | invalidNumber
  | numberOutOfRange
  | controlCharacter
  | keyMustBeString
  | loneSurrogate
  | endOfHexEscape
  | trailingComma
  | trailingCharacters
  | recursionLimit
  | invalidType (found : Found) (expected : String)
  | invalidValue (found : Found) (expected : String)
  | invalidLength (length : Nat) (expected : String)
  | missingField (name : String)
  | duplicateField (name : String)
  | unknownVariant (name : String) (known : List String)
  | other (reason : String)

/-- Names between backquotes, in a row. -/
def oneOf : List String → String
  | [] => "there are no variants"
  | [a] => s!"expected `{a}`"
  | [a, b] => s!"expected `{a}` or `{b}`"
  | names => "expected one of " ++ ", ".intercalate (names.map fun n => s!"`{n}`")

/-- The words for a cause. -/
def Cause.message : Cause → String
  | eofList => "EOF while parsing a list"
  | eofObject => "EOF while parsing an object"
  | eofString => "EOF while parsing a string"
  | eofValue => "EOF while parsing a value"
  | expectedColon => "expected `:`"
  | expectedListCommaOrEnd => "expected `,` or `]`"
  | expectedObjectCommaOrEnd => "expected `,` or `\x7d`"
  | expectedIdent => "expected ident"
  | expectedValue => "expected value"
  | expectedQuote => "expected `\"`"
  | expectedNumericKey => "invalid value: expected key to be a number in quotes"
  | invalidEscape => "invalid escape"
  | invalidNumber => "invalid number"
  | numberOutOfRange => "number out of range"
  | controlCharacter => "control character (\\u0000-\\u001F) found while parsing a string"
  | keyMustBeString => "key must be a string"
  | loneSurrogate => "lone leading surrogate in hex escape"
  | endOfHexEscape => "unexpected end of hex escape"
  | trailingComma => "trailing comma"
  | trailingCharacters => "trailing characters"
  | recursionLimit => "recursion limit exceeded"
  | invalidType found expected => s!"invalid type: {found.message}, expected {expected}"
  | invalidValue found expected => s!"invalid value: {found.message}, expected {expected}"
  | invalidLength length expected => s!"invalid length {length}, expected {expected}"
  | missingField name => s!"missing field `{name}`"
  | duplicateField name => s!"duplicate field `{name}`"
  | unknownVariant name known => s!"unknown variant `{name}`, {oneOf known}"
  | other reason => reason

/-- A cause with its place. -/
inductive JsonFault where
  /-- At a place that has `left` bytes after it. -/
  | placed (cause : Cause) (left : Nat)
  /-- Not placed yet; the reader stands before `rest`. -/
  | floating (cause : Cause) (rest : List Char)

namespace JsonFault

/-- A fault before `rest`. -/
def here (cause : Cause) (rest : List Char) : JsonFault := placed cause (utf8Size rest)

/-- A fault of the byte at the head of `rest`. -/
def ahead (cause : Cause) (rest : List Char) : JsonFault := placed cause (utf8Size rest - 1)

/-- Gives a floating fault its place. -/
def settle : JsonFault → JsonFault
  | floating cause rest => here cause rest
  | fault => fault

/-- The line, from one, and the column of the place `index` bytes into a text, from `line` and
`column` on. -/
def position : Nat → Nat → Nat → List Char → Nat × Nat
  | line, column, _, [] => (line, column)
  | line, column, index, c :: cs =>
    if index < c.utf8Size then (line, column + index)
    else if c = '\n' then position (line + 1) 0 (index - 1) cs
    else position line (column + c.utf8Size) (index - c.utf8Size) cs

/-- The words for a fault of a text. -/
def message (text : List Char) : JsonFault → String
  | placed cause left =>
    let (line, column) := position 1 0 (utf8Size text - left) text
    s!"{cause.message} at line {line} column {column}"
  | floating cause _ => cause.message

end JsonFault

/-- What a reader gives: a value and the characters after it, or a fault. -/
abbrev Read (α : Type) := Except JsonFault (α × List Char)

end Preferences
