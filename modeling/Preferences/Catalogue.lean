import Preferences.Shape.Basic

/-!
# Structured types

The structured types that preferences are made of, each with its shape, and `Model`, their codes: a
table keyed by type is a function of the code.
-/

namespace Preferences

/-- A person. -/
structure Record where
  name : String
  age : Word .int32
  deriving DecidableEq

/-- A text with a small number. -/
structure CustomierClass where
  string : String
  integer : Word .nat8
  deriving DecidableEq

/-- A count. -/
structure Counter where
  count : Word .int64
  deriving DecidableEq

/-- A ring: plain, with an inscription, or forged with some power. -/
inductive Ring where
  | plain
  | inscribed (text : String)
  | forged (power : Word .nat16)
  deriving DecidableEq

/-- Someone who bears rings. -/
structure Bearer where
  owner : Record
  companion : Option Record
  rings : List Ring
  nickname : Option String
  deriving DecidableEq

/-- What an `Outer` holds. -/
structure Inner where
  yankee : Bool
  bravo : Word .int64
  deriving DecidableEq

/-- A record whose fields are not in the order of their names. -/
structure Outer where
  zulu : Word .nat8
  inner : Inner
  alpha : Option String
  deriving DecidableEq

/-- A natural number of 128 bits. -/
structure Wide where
  value : Word .nat128
  deriving DecidableEq

/-- An integer of 128 bits. -/
structure Signed where
  value : Word .int128
  deriving DecidableEq

/-- A binary number. -/
structure Ratio where
  value : Float

/-- Texts by number. -/
structure Ledger where
  entries : Table (Word .int64) String

/-- A number or nothing. -/
structure Maybe where
  value : Option (Word .int32)
  deriving DecidableEq

/-- A number and a text, by place. -/
structure Pair where
  first : Word .int32
  second : String
  deriving DecidableEq

/-- The record that the health check stores. -/
structure ProbeRecord where
  name : String
  age : Word .int32
  deriving DecidableEq

/-- The code that the health check stores with an adapter: a stem and a digit behind it. -/
structure ProbeCode where
  stem : String
  digit : Word .nat8
  deriving DecidableEq

instance : Shaped Record where
  shape := .record "Record" (.cons "name" .text (.cons "age" (.word .int32) .nil))
  toVal r := (r.name, r.age, ())
  ofVal v := ⟨v.1, v.2.1⟩

instance : Shaped CustomierClass where
  shape := .record "CustomierClass" (.cons "string" .text (.cons "integer" (.word .nat8) .nil))
  toVal c := (c.string, c.integer, ())
  ofVal v := ⟨v.1, v.2.1⟩

instance : Shaped Counter where
  shape := .word .int64
  toVal c := c.count
  ofVal v := ⟨v⟩

instance : Shaped Ring where
  shape := .choice "Ring"
    (.bare "Plain" (.fields "Inscribed" (.cons "text" .text .nil)
      (.single "Forged" (.word .nat16) .nil)))
  toVal
    | .plain => .inl ()
    | .inscribed text => .inr (.inl (text, ()))
    | .forged power => .inr (.inr (.inl power))
  ofVal
    | .inl _ => .plain
    | .inr (.inl (text, _)) => .inscribed text
    | .inr (.inr (.inl power)) => .forged power
  ofVal_toVal r := by cases r <;> rfl

instance : Shaped Bearer where
  shape := .record "Bearer"
    (.cons "owner" (Shaped.shape Record) (.cons "companion" (.optional (Shaped.shape Record))
      (.cons "rings" (.sequence (Shaped.shape Ring)) (.cons "nickname" (.optional .text) .nil))))
  toVal b := (Shaped.toVal b.owner, b.companion.map Shaped.toVal, b.rings.map Shaped.toVal,
    b.nickname, ())
  ofVal v := ⟨Shaped.ofVal v.1, Option.map Shaped.ofVal v.2.1, List.map Shaped.ofVal v.2.2.1,
    v.2.2.2.1⟩
  ofVal_toVal b := by
    cases b with
    | mk owner companion rings nickname =>
      simp [Shaped.ofVal_toVal, Function.comp_def]

instance : Shaped Inner where
  shape := .record "Inner" (.cons "yankee" .flag (.cons "bravo" (.word .int64) .nil))
  toVal i := (i.yankee, i.bravo, ())
  ofVal v := ⟨v.1, v.2.1⟩

instance : Shaped Outer where
  shape := .record "Outer"
    (.cons "zulu" (.word .nat8) (.cons "inner" (Shaped.shape Inner)
      (.cons "alpha" (.optional .text) .nil)))
  toVal o := (o.zulu, Shaped.toVal o.inner, o.alpha, ())
  ofVal v := ⟨v.1, Shaped.ofVal v.2.1, v.2.2.1⟩

instance : Shaped Wide where
  shape := .word .nat128
  toVal w := w.value
  ofVal v := ⟨v⟩

instance : Shaped Signed where
  shape := .word .int128
  toVal s := s.value
  ofVal v := ⟨v⟩

instance : Shaped Ratio where
  shape := .real
  toVal r := r.value
  ofVal v := ⟨v⟩

instance : Shaped Ledger where
  shape := .ledger .text
  toVal l := l.entries
  ofVal v := ⟨v⟩

instance : Shaped Maybe where
  shape := .optional (.word .int32)
  toVal m := m.value
  ofVal v := ⟨v⟩

instance : Shaped Pair where
  shape := .tuple "Pair" (.cons "first" (.word .int32) (.cons "second" .text .nil))
  toVal p := (p.first, p.second, ())
  ofVal v := ⟨v.1, v.2.1⟩

instance : Shaped Document where
  shape := .tree
  toVal d := d
  ofVal v := v

instance : Shaped ProbeRecord where
  shape := .record "ProbeRecord" (.cons "name" .text (.cons "age" (.word .int32) .nil))
  toVal r := (r.name, r.age, ())
  ofVal v := ⟨v.1, v.2.1⟩

instance : Shaped ProbeCode where
  shape := .record "ProbeCode" (.cons "prefix" .text (.cons "digit" (.word .nat8) .nil))
  toVal c := (c.stem, c.digit, ())
  ofVal v := ⟨v.1, v.2.1⟩

/-- The codes of the structured types. -/
inductive Model where
  | record
  | customierClass
  | counter
  | ring
  | bearer
  | outer
  | wide
  | signed
  | ratio
  | ledger
  | maybe
  | pair
  | jsonDocument
  | probeRecord
  | probeCode
  deriving DecidableEq

namespace Model

/-- The values of a structured type. -/
abbrev Val : Model → Type
  | record => Record
  | customierClass => CustomierClass
  | counter => Counter
  | ring => Ring
  | bearer => Bearer
  | outer => Outer
  | wide => Wide
  | signed => Signed
  | ratio => Ratio
  | ledger => Ledger
  | maybe => Maybe
  | pair => Pair
  | jsonDocument => Document
  | probeRecord => ProbeRecord
  | probeCode => ProbeCode

instance shaped : (m : Model) → Shaped m.Val
  | record => inferInstanceAs (Shaped Record)
  | customierClass => inferInstanceAs (Shaped CustomierClass)
  | counter => inferInstanceAs (Shaped Counter)
  | ring => inferInstanceAs (Shaped Ring)
  | bearer => inferInstanceAs (Shaped Bearer)
  | outer => inferInstanceAs (Shaped Outer)
  | wide => inferInstanceAs (Shaped Wide)
  | signed => inferInstanceAs (Shaped Signed)
  | ratio => inferInstanceAs (Shaped Ratio)
  | ledger => inferInstanceAs (Shaped Ledger)
  | maybe => inferInstanceAs (Shaped Maybe)
  | pair => inferInstanceAs (Shaped Pair)
  | jsonDocument => inferInstanceAs (Shaped Document)
  | probeRecord => inferInstanceAs (Shaped ProbeRecord)
  | probeCode => inferInstanceAs (Shaped ProbeCode)

/-- The name of a type by itself. -/
def label : Model → String
  | record => "Record"
  | customierClass => "CustomierClass"
  | counter => "Counter"
  | ring => "Ring"
  | bearer => "Bearer"
  | outer => "Outer"
  | wide => "Wide"
  | signed => "Signed"
  | ratio => "Ratio"
  | ledger => "Ledger"
  | maybe => "Maybe"
  | pair => "Pair"
  | jsonDocument => "JsonDocument"
  | probeRecord => "ProbeRecord"
  | probeCode => "ProbeCode"

/-- All codes. -/
def all : List Model :=
  [record, customierClass, counter, ring, bearer, outer, wide, signed, ratio, ledger, maybe, pair,
    jsonDocument, probeRecord, probeCode]

/-- The full name of a type, as messages give it. -/
def typeName : Model → String
  | jsonDocument => "prefs::values::JsonDocument"
  | probeRecord => "prefs::ProbeRecord"
  | probeCode => "prefs::ProbeCode"
  | m => "prefs::types::" ++ m.label

end Model

/-- A type of preferences: a native kind or a structured type. -/
inductive PrefType where
  | primitive (k : Primitive)
  | structured (m : Model)
  deriving DecidableEq

namespace PrefType

/-- The values of a type. -/
abbrev Val : PrefType → Type
  | primitive k => k.Carrier
  | structured m => m.Val

instance shaped : (t : PrefType) → Shaped t.Val
  | primitive .long => ⟨.word .int64, id, id, fun _ => rfl⟩
  | primitive .int => ⟨.word .int32, id, id, fun _ => rfl⟩
  | primitive .bool => ⟨.flag, id, id, fun _ => rfl⟩
  | primitive .string => ⟨.text, id, id, fun _ => rfl⟩
  | structured m => m.shaped

/-- The shape of a type. -/
def shape (t : PrefType) : Shape := t.shaped.shape

/-- How values of the type are stored. -/
def kindName : PrefType → String
  | primitive .long => "Long"
  | primitive .int => "Int"
  | primitive .bool => "Bool"
  | primitive .string => "String"
  | structured _ => "Structured"

/-- The full name of a type. -/
def typeName : PrefType → String
  | primitive .long => "i64"
  | primitive .int => "i32"
  | primitive .bool => "bool"
  | primitive .string => "alloc::string::String"
  | structured m => m.typeName

/-- The type of a short name. -/
def ofLabel? (s : String) : Option PrefType :=
  match Primitive.ofLabel? s with
  | some k => some (primitive k)
  | none => (Model.all.find? fun m => m.label == s).map structured

end PrefType

end Preferences
