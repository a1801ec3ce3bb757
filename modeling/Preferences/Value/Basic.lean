import Preferences.Json.Printer
import Preferences.Text.Characters

/-!
# Stored values

What a preference store holds natively: integers of 64 and 32 bits, truth values and texts.
-/

namespace Preferences

/-- The native kinds. -/
inductive Primitive where
  | long
  | int
  | bool
  | string
  deriving DecidableEq

namespace Primitive

/-- The name of a kind in stored documents and in messages. -/
def label : Primitive → String
  | long => "long"
  | int => "int"
  | bool => "bool"
  | string => "string"

/-- All kinds in the order messages list them. -/
def all : List Primitive := [long, int, bool, string]

/-- The kind of a name. -/
def ofLabel? (s : String) : Option Primitive := all.find? fun k => k.label == s

/-- The values of a kind. -/
abbrev Carrier : Primitive → Type
  | long => Word .int64
  | int => Word .int32
  | bool => Bool
  | string => String

/-- The value that stands in where there is neither a stored value nor a default. -/
def zero : (k : Primitive) → k.Carrier
  | long => ⟨0, by decide, by decide⟩
  | int => ⟨0, by decide, by decide⟩
  | bool => false
  | string => ""

end Primitive

/-- A stored value. -/
inductive Value where
  | long (n : Word .int64)
  | int (n : Word .int32)
  | bool (b : Bool)
  | string (s : String)
  deriving DecidableEq

namespace Value

/-- The kind of a value. -/
def kind : Value → Primitive
  | long _ => .long
  | int _ => .int
  | bool _ => .bool
  | string _ => .string

/-- The value of a kind with a payload. -/
def ofCarrier : (k : Primitive) → k.Carrier → Value
  | .long => long
  | .int => int
  | .bool => bool
  | .string => string

/-- The payload of a value, if it is of the kind. -/
def carrier? : (k : Primitive) → Value → Option k.Carrier
  | .long, long n => some n
  | .int, int n => some n
  | .bool, bool b => some b
  | .string, string s => some s
  | _, _ => none

/-- Integers that JSON holds exactly, from a range inside theirs. -/
def wire {w : Width} (z : Word w)
    (h : -0x8000000000000000 ≤ w.lo ∧ w.hi ≤ 0xffffffffffffffff) : WireInt :=
  ⟨z.val, Int.le_trans h.1 z.lo_le, Int.le_trans z.le_hi h.2⟩

/-- The payload as a JSON value. -/
def payload : Value → Json
  | long n => .number (.int (wire n (by decide)))
  | int n => .number (.int (wire n (by decide)))
  | bool b => .bool b
  | string s => .string s

/-- The JSON value of a stored value: its kind, then its payload. -/
def toJson (v : Value) : Json :=
  .object [("type", .string v.kind.label), ("value", v.payload)]

/-- The value as debugging output shows it. -/
def debug : Value → String
  | long n => "Long(" ++ String.ofList (intDigits n.val) ++ ")"
  | int n => "Int(" ++ String.ofList (intDigits n.val) ++ ")"
  | bool b => s!"Bool({b})"
  | string s => "String(" ++ quoted s ++ ")"

end Value

end Preferences
