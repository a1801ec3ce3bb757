import Preferences.Json.Typed
import Preferences.Value.Basic

/-!
# Reading stored values

A stored value is an object with a `type` and a `value`, in either order and among other members, or
a list of the two. Where the payload comes first it is kept as JSON until its kind is known.
-/

namespace Preferences.Value

open Json JsonFault

/-- What was expected where there is no stored value. -/
def expected : String := "adjacently tagged enum PrefValue"

/-- Reads a kind. -/
def kindTag (depth : Nat) : List Char → Read Primitive :=
  let named (name : String) : Primitive := (Primitive.ofLabel? name).getD .string
  variant depth (Primitive.all.map Primitive.label) (fun name cs => .ok (named name, cs))
    fun name _ cs => (unit cs).map fun p => (named name, p.2)

/-- Reads a payload of a known kind. -/
def payloadOf (k : Primitive) (cs : List Char) : Read Value :=
  match k with
  | .long => (word .int64 cs).map fun p => (long p.1, p.2)
  | .int => (word .int32 cs).map fun p => (int p.1, p.2)
  | .bool => (flag cs).map fun p => (bool p.1, p.2)
  | .string => (text cs).map fun p => (string p.1, p.2)

/-- The value of a kind with a payload that was kept as JSON. -/
def ofJson (k : Primitive) (j : Json) : Except Cause Value :=
  match k, j with
  | .long, .number n => (wordOf .int64 n).map long
  | .int, .number n => (wordOf .int32 n).map int
  | .bool, .bool b => .ok (bool b)
  | .string, .string s => .ok (string s)
  | .long, _ => .error (.invalidType j.found Width.int64.label)
  | .int, _ => .error (.invalidType j.found Width.int32.label)
  | .bool, _ => .error (.invalidType j.found "a boolean")
  | .string, _ => .error (.invalidType j.found "a string")

/-- A member that matters. -/
inductive Slot where
  | kind
  | payload

/-- The key of a member that matters. -/
def Slot.key : Slot → String
  | kind => "type"
  | payload => "value"

/-- Reads on to the next member that matters, up to the end of its key. -/
def nextSlot : Nat → Bool → List Char → Except JsonFault (Option Slot × List Char)
  | 0, _, cs => .error (here .eofObject cs)
  | fuel + 1, first, cs => do
    let (more, cs) ← nextMember first cs
    if more then
      let (k, cs) ← textKey cs
      if k = Slot.kind.key then return (some .kind, cs)
      else if k = Slot.payload.key then return (some .payload, cs)
      else
        let cs ← colon cs
        let cs ← skip cs
        nextSlot fuel false cs
    else return (none, cs)

/-- The next member that matters after the first. -/
def furtherSlot (cs : List Char) : Except JsonFault (Option Slot × List Char) :=
  nextSlot (cs.length + 1) false cs

/-- The value, once no member that matters is left. -/
def finish (v : Value) (cs : List Char) : Except JsonFault (Value × List Char) := do
  let (slot, cs) ← furtherSlot cs
  match slot with
  | some slot => .error (.floating (.duplicateField slot.key) cs)
  | none => return (v, cs)

/-- Reads the members of an object. -/
def ofObject (depth : Nat) (cs : List Char) : Except JsonFault (Value × List Char) := do
  let (slot, cs) ← nextSlot (cs.length + 1) true cs
  match slot with
  | none => .error (.floating (.missingField Slot.kind.key) cs)
  | some .kind =>
    let cs ← colon cs
    let (k, cs) ← kindTag depth cs
    let (slot, cs) ← furtherSlot cs
    match slot with
    | none => .error (.floating (.missingField Slot.payload.key) cs)
    | some .kind => .error (.floating (.duplicateField Slot.kind.key) cs)
    | some .payload =>
      let cs ← colon cs
      let (v, cs) ← payloadOf k cs
      finish v cs
  | some .payload =>
    let cs ← colon cs
    -- any value will do until the kind is known
    let (j, cs) ← Json.read depth cs
    let (slot, cs) ← furtherSlot cs
    match slot with
    | none => .error (.floating (.missingField Slot.kind.key) cs)
    | some .payload => .error (.floating (.duplicateField Slot.payload.key) cs)
    | some .kind =>
      let cs ← colon cs
      let (k, cs) ← kindTag depth cs
      match ofJson k j with
      | .error cause => .error (.floating cause cs)
      | .ok v => finish v cs

/-- Reads the items of a list. -/
def ofItems (depth : Nat) (cs : List Char) : Except JsonFault (Value × List Char) := do
  let (more, cs) ← nextItem true cs
  if !more then .error (.floating (.invalidLength 0 expected) cs)
  let (k, cs) ← kindTag depth cs
  let (more, cs) ← nextItem false cs
  if !more then .error (.floating (.invalidLength 1 expected) cs)
  payloadOf k cs

/-- Reads a stored value. -/
def read (depth : Nat) : List Char → Read Value := aggregate depth expected ofItems ofObject

/-- The stored value of a whole text. -/
def parse (text : String) : Except JsonFault Value := readWhole (read maxDepth) text.toList

end Preferences.Value
