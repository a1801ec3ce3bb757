import Preferences.Time.Instant
import Preferences.Value.Basic

/-!
# Shapes of structured values

A shape says how a structured value is written as JSON, and `Shape.Val` is the type of its values.
Both directions of the codec are recursions on the shape.
-/

namespace Preferences

mutual

/-- How a value is written. -/
inductive Shape where
  | flag
  | text
  | word (w : Width)
  | real
  /-- Any JSON value. -/
  | tree
  | instant
  /-- A stored value with its kind. -/
  | stored
  | optional (s : Shape)
  | sequence (s : Shape)
  /-- A map with integer keys. -/
  | ledger (s : Shape)
  /-- A map with text keys. -/
  | table (s : Shape)
  /-- Fields by place only. -/
  | tuple (name : String) (fields : Fields)
  /-- Fields by name or by place. -/
  | record (name : String) (fields : Fields)
  /-- One of several variants. -/
  | choice (name : String) (variants : Variants)

/-- The fields of a record in order. -/
inductive Fields where
  | nil
  | cons (name : String) (s : Shape) (rest : Fields)

/-- The variants of a choice. -/
inductive Variants where
  | nil
  /-- A variant that holds nothing. -/
  | bare (name : String) (rest : Variants)
  /-- A variant that holds one value. -/
  | single (name : String) (s : Shape) (rest : Variants)
  /-- A variant with fields. -/
  | fields (name : String) (fields : Fields) (rest : Variants)

end

mutual

/-- The values of a shape. -/
def Shape.Val : Shape → Type
  | .flag => Bool
  | .text => String
  | .word w => Word w
  | .real => Float
  | .tree => Document
  | .instant => Instant
  | .stored => Value
  | .optional s => Option s.Val
  | .sequence s => List s.Val
  | .ledger s => Table (Word .int64) s.Val
  | .table s => Table String s.Val
  | .tuple _ fs => fs.Val
  | .record _ fs => fs.Val
  | .choice _ vs => vs.Val
termination_by structural s => s

/-- A value for every field. -/
def Fields.Val : Fields → Type
  | .nil => Unit
  | .cons _ s fs => s.Val × fs.Val
termination_by structural fs => fs

/-- A value of one of the variants. -/
def Variants.Val : Variants → Type
  | .nil => Empty
  | .bare _ vs => Unit ⊕ vs.Val
  | .single _ s vs => s.Val ⊕ vs.Val
  | .fields _ fs vs => fs.Val ⊕ vs.Val
termination_by structural vs => vs

end

/-- The number of fields. -/
def Fields.size : Fields → Nat
  | .nil => 0
  | .cons _ _ fs => fs.size + 1

/-- The names of the variants. -/
def Variants.names : Variants → List String
  | .nil => []
  | .bare name vs => name :: vs.names
  | .single name _ vs => name :: vs.names
  | .fields name _ vs => name :: vs.names

/-- The value of a field that is not there, where that is allowed. -/
def Shape.absent? : (s : Shape) → Option s.Val
  | .optional _ => some none
  | _ => none

/-- A type whose values are those of a shape. -/
class Shaped (α : Type) where
  shape : Shape
  toVal : α → shape.Val
  ofVal : shape.Val → α
  ofVal_toVal : ∀ a, ofVal (toVal a) = a := by intro; rfl

end Preferences
