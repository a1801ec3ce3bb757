import Preferences.Shape.Basic
import Preferences.Time.Timestamp

/-!
# Structured values as JSON

The JSON value of a structured value, with fields in order. Integers that JSON does not hold exactly
are refused; numbers that are not finite become `null`.
-/

namespace Preferences

/-- Why a value cannot be written. -/
inductive EncodeFault where
  | numberOutOfRange
  deriving DecidableEq

/-- The words for a fault. -/
def EncodeFault.message : EncodeFault → String
  | numberOutOfRange => "number out of range"

/-- The JSON value of an integer. -/
def wholeJson (z : Int) : Except EncodeFault Json :=
  match Ranged.ofInt? z with
  | some w => .ok (.number (.int w))
  | none => .error .numberOutOfRange

/-- The JSON value of a binary number. -/
def realJson (x : Float) : Json := if x.isFinite then .number (.float x) else .null

/-- Writes every value of a list. -/
def encodeItems {α : Type} (encode : α → Except EncodeFault Json) :
    List α → Except EncodeFault (List Json)
  | [] => .ok []
  | a :: as => do
    let j ← encode a
    let js ← encodeItems encode as
    return j :: js

/-- Writes every entry of a map. -/
def encodeEntries {κ α : Type} (key : κ → String) (encode : α → Except EncodeFault Json) :
    List (κ × α) → Except EncodeFault (List (String × Json))
  | [] => .ok []
  | e :: es => do
    let j ← encode e.2
    let ms ← encodeEntries key encode es
    return (key e.1, j) :: ms

mutual

/-- The JSON value of a structured value. -/
def Shape.toJson : (s : Shape) → s.Val → Except EncodeFault Json
  | .flag, b => .ok (.bool b)
  | .text, t => .ok (.string t)
  | .word _, z => wholeJson (Ranged.val z)
  | .real, x => .ok (realJson x)
  | .tree, d => .ok (Document.tree d)
  | .instant, t => .ok (.string (String.ofList (Timestamp.render t)))
  | .stored, v => .ok (Value.toJson v)
  | .optional s, o =>
    match o with
    | none => .ok .null
    | some v => s.toJson v
  | .sequence s, vs => (encodeItems s.toJson vs).map .array
  | .ledger s, t =>
    (encodeEntries (fun k => String.ofList (intDigits (Ranged.val k))) s.toJson
      (Table.entries t)).map .object
  | .table s, t => (encodeEntries id s.toJson (Table.entries t)).map .object
  | .tuple _ fs, vs => (fs.toItems vs).map .array
  | .record _ fs, vs => (fs.toMembers vs).map .object
  | .choice _ vs, v => vs.toJson v
termination_by structural s => s

/-- The fields as items of a list. -/
def Fields.toItems : (fs : Fields) → fs.Val → Except EncodeFault (List Json)
  | .nil, _ => .ok []
  | .cons _ s fs, (v, vs) => do
    let j ← s.toJson v
    let js ← fs.toItems vs
    return j :: js
termination_by structural fs => fs

/-- The fields as members of an object. -/
def Fields.toMembers : (fs : Fields) → fs.Val → Except EncodeFault (List (String × Json))
  | .nil, _ => .ok []
  | .cons name s fs, (v, vs) => do
    let j ← s.toJson v
    let ms ← fs.toMembers vs
    return (name, j) :: ms
termination_by structural fs => fs

/-- The JSON value of a variant: its name, or an object with its name as the only key. -/
def Variants.toJson : (vs : Variants) → vs.Val → Except EncodeFault Json
  | .bare name _, .inl _ => .ok (.string name)
  | .bare _ vs, .inr v => vs.toJson v
  | .single name s _, .inl v => do
    let j ← s.toJson v
    return .object [(name, j)]
  | .single _ _ vs, .inr v => vs.toJson v
  | .fields name fs _, .inl v => do
    let ms ← fs.toMembers v
    return .object [(name, .object ms)]
  | .fields _ _ vs, .inr v => vs.toJson v
termination_by structural vs => vs

end

end Preferences
