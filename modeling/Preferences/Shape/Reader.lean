import Preferences.Shape.Encode
import Preferences.Value.Reader

/-!
# Structured values from JSON texts

Reads a text straight into the type asked for. Fields of a record may come in any order and among
others that are passed over, or all of them in order as a list.
-/

namespace Preferences

open Json JsonFault

/-- What has been read of each field. -/
def Fields.Slots : Fields → Type
  | .nil => Unit
  | .cons _ s fs => Option s.Val × fs.Slots

/-- Nothing has been read yet. -/
def Fields.noSlots : (fs : Fields) → fs.Slots
  | .nil => ()
  | .cons _ _ fs => (none, fs.noSlots)

/-- The values of all fields, once all members are read up to `cs`. -/
def Fields.collect (cs : List Char) : (fs : Fields) → fs.Slots → Except JsonFault fs.Val
  | .nil, _ => .ok ()
  | .cons name s fs, (slot, slots) =>
    match (slot <|> s.absent?) with
    | none => .error (.floating (.missingField name) cs)
    | some v => do
      let vs ← fs.collect cs slots
      return (v, vs)

/-- What was expected where a list has too few items. -/
def elements (expected : String) (count : Nat) : String :=
  s!"{expected} with {count} " ++ (if count = 1 then "element" else "elements")

/-- Reads the timestamp in a string. -/
def instantText : List Char → Read Instant :=
  textAs "an RFC 3339 formatted date and time string" fun s =>
    match Timestamp.parse s.toList with
    | .ok t => .ok t
    | .error fault => .error (.other fault.message)

/-- Reads the fields by name, with a reader for the member of a key. -/
def Fields.gather (fs : Fields) (member : String → fs.Slots → List Char → Read fs.Slots)
    (cs : List Char) : Read fs.Val :=
  match members textKey member (cs.length + 1) true fs.noSlots cs with
  | .error fault => .error fault
  | .ok (slots, cs) => (fs.collect cs slots).map fun vs => (vs, cs)

mutual

/-- Reads a value of a shape with so many brackets left to open. -/
def Shape.read : (s : Shape) → Nat → List Char → Read s.Val
  | .flag, _, cs => Json.flag cs
  | .text, _, cs => Json.text cs
  -- JSON numbers do not hold 128 bits, so such words are read from their digits
  | .word w, _, cs => if w = .int128 ∨ w = .nat128 then bigWord w cs else Json.word w cs
  | .real, _, cs => Json.real cs
  | .tree, depth, cs => (Json.read depth cs).map fun p => (Document.ofJson p.1, p.2)
  | .instant, _, cs => instantText cs
  | .stored, depth, cs => Value.read depth cs
  | .optional s, depth, cs => Json.optional (s.read depth) cs
  | .sequence s, depth, cs =>
    Json.sequence depth "a sequence"
      (fun d ds => items (s.read d) (ds.length + 1) true ds) cs
  | .ledger s, depth, cs =>
    mapping depth "a map" (fun d ds =>
      members (wordKey .int64) (fun k (t : Table (Word .int64) s.Val) es =>
        match colon es with
        | .error fault => .error fault
        | .ok es => (s.read d es).map fun p => (t.insert k p.1, p.2))
        (ds.length + 1) true Table.empty ds) cs
  | .table s, depth, cs =>
    mapping depth "a map" (fun d ds =>
      members textKey (fun k (t : Table String s.Val) es =>
        match colon es with
        | .error fault => .error fault
        | .ok es => (s.read d es).map fun p => (t.insert k p.1, p.2))
        (ds.length + 1) true Table.empty ds) cs
  | .tuple name fs, depth, cs =>
    let expected := s!"tuple struct {name}"
    Json.sequence depth expected (fun d ds => fs.readItems (elements expected fs.size) 0 d ds) cs
  | .record name fs, depth, cs =>
    let expected := s!"struct {name}"
    aggregate depth expected (fun d ds => fs.readItems (elements expected fs.size) 0 d ds)
      (fun d ds => fs.gather (fun k slots es => fs.readMember k d slots es) ds) cs
  | .choice name vs, depth, cs => variant depth vs.names vs.readAlone (vs.readKeyed name) cs
termination_by structural s => s

/-- Reads the fields by place, from the item `index` on. -/
def Fields.readItems (expected : String) :
    (fs : Fields) → Nat → Nat → List Char → Read fs.Val
  | .nil, _, _, cs => .ok ((), cs)
  | .cons _ s fs, index, depth, cs =>
    match nextItem (index == 0) cs with
    | .error fault => .error fault
    | .ok (false, cs) => .error (.floating (.invalidLength index expected) cs)
    | .ok (true, cs) =>
      match s.read depth cs with
      | .error fault => .error fault
      | .ok (v, cs) => (fs.readItems expected (index + 1) depth cs).map fun p => ((v, p.1), p.2)
termination_by structural fs => fs

/-- Reads the member of a key, from the end of the key on, into its slot; a key of no field is
passed over with its value. -/
def Fields.readMember (k : String) (depth : Nat) :
    (fs : Fields) → fs.Slots → List Char → Read fs.Slots
  | .nil, slots, cs =>
    match colon cs with
    | .error fault => .error fault
    | .ok cs => (skip cs).map fun cs => (slots, cs)
  | .cons name s fs, (slot, slots), cs =>
    if k = name then
      match slot with
      | some _ => .error (.floating (.duplicateField name) cs)
      | none =>
        match colon cs with
        | .error fault => .error fault
        | .ok cs => (s.read depth cs).map fun p => ((some p.1, slots), p.2)
    else (fs.readMember k depth slots cs).map fun p => ((slot, p.1), p.2)
termination_by structural fs => fs

/-- Reads a variant that is only named; only a bare one may be. -/
def Variants.readAlone : (vs : Variants) → String → List Char → Read vs.Val
  | .nil, name, cs => .error (.floating (.unknownVariant name []) cs)
  | .bare known vs, name, cs =>
    if name = known then .ok (.inl (), cs)
    else (vs.readAlone name cs).map fun p => (.inr p.1, p.2)
  | .single known _ vs, name, cs =>
    if name = known then .error (.floating (.invalidType .unitVariant "newtype variant") cs)
    else (vs.readAlone name cs).map fun p => (.inr p.1, p.2)
  | .fields known _ vs, name, cs =>
    if name = known then .error (.floating (.invalidType .unitVariant "struct variant") cs)
    else (vs.readAlone name cs).map fun p => (.inr p.1, p.2)
termination_by structural vs => vs

/-- Reads what a named variant holds. -/
def Variants.readKeyed (choice : String) :
    (vs : Variants) → String → Nat → List Char → Read vs.Val
  | .nil, name, _, cs => .error (.floating (.unknownVariant name []) cs)
  | .bare known vs, name, depth, cs =>
    if name = known then (Json.unit cs).map fun p => (.inl (), p.2)
    else (vs.readKeyed choice name depth cs).map fun p => (.inr p.1, p.2)
  | .single known s vs, name, depth, cs =>
    if name = known then (s.read depth cs).map fun p => (.inl p.1, p.2)
    else (vs.readKeyed choice name depth cs).map fun p => (.inr p.1, p.2)
  | .fields known fs vs, name, depth, cs =>
    let expected := s!"struct variant {choice}::{known}"
    if name = known then
      (aggregate depth expected (fun d ds => fs.readItems (elements expected fs.size) 0 d ds)
        (fun d ds => fs.gather (fun k slots es => fs.readMember k d slots es) ds) cs).map
          fun p => (.inl p.1, p.2)
    else (vs.readKeyed choice name depth cs).map fun p => (.inr p.1, p.2)
termination_by structural vs => vs

end

/-- The value of a shape that a whole text holds. -/
def Shape.parse (s : Shape) (text : String) : Except JsonFault s.Val :=
  readWhole (s.read maxDepth) text.toList

end Preferences
