import Preferences.Command.Report
import Preferences.Typed.Basic

/-!
# Values of the command line

Reads a preference as a kind and shows it, and writes a word as a preference of a kind.
-/

namespace Preferences

/-- The value that a word stands for. -/
structure ParsedValue where
  type : PrefType
  value : type.Val

/-- The value of a word as a kind. -/
def ValueKind.parse : ValueKind → String → Except ValueFault ParsedValue
  | long, raw =>
    match Word.parse .int64 raw.toList with
    | .ok n => .ok ⟨.primitive .long, n⟩
    | .error fault => .error (.integer fault)
  | int, raw =>
    match Word.parse .int32 raw.toList with
    | .ok n => .ok ⟨.primitive .int, n⟩
    | .error fault => .error (.integer fault)
  | bool, raw =>
    match parseBool raw with
    | some b => .ok ⟨.primitive .bool, b⟩
    | none => .error .notBool
  | string, raw => .ok ⟨.primitive .string, raw⟩
  | json, raw =>
    match Json.parse raw with
    | .ok j => .ok ⟨.structured .jsonDocument, Document.ofJson j⟩
    | .error fault => .error (.json raw.toList fault)

namespace TypedStore

variable {σ φ : Type} [Store σ] [KeyFacility φ]

/-- Reads a key as a kind. -/
def display (s : TypedStore σ φ) (key : String) : ValueKind → Except Error String × TypedStore σ φ
  | .long =>
    let (result, s) := s.get (.primitive .long) key none
    (result.map fun n => String.ofList (intDigits n.val), s)
  | .int =>
    let (result, s) := s.get (.primitive .int) key none
    (result.map fun n => String.ofList (intDigits n.val), s)
  | .bool =>
    let (result, s) := s.get (.primitive .bool) key none
    (result.map fun b => if b then "true" else "false", s)
  | .string => s.get (.primitive .string) key none
  | .json =>
    let (result, s) := s.get (.structured .jsonDocument) key (some (Document.ofJson .null))
    (result.map fun d => d.tree.compact, s)

/-- Writes a word as a kind. Nothing is written unless the word is a value of the kind. -/
def enter (s : TypedStore σ φ) (key raw : String) (kind : ValueKind) (mode : SyncMode) :
    Except Report Unit × TypedStore σ φ :=
  match kind.parse raw with
  | .error fault => (.error (.invalidValue raw kind fault), s)
  | .ok parsed =>
    let (result, s) := s.set parsed.type key parsed.value mode
    (result.mapError .preferences, s)

end TypedStore

end Preferences
