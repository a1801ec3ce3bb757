import Preferences.Command.Values
import Preferences.Proofs.Json.Tree
import Preferences.Proofs.Typed.RoundTrip

/-!
# Words set and shown

The value of a word is shown in a normal form of the word: a number without a plus sign and leading
zeros, a truth value in small letters, a text as it is, and a JSON text without blanks and with its
keys in order. Main statement: `ValueKind.display_of_parse`.
-/

namespace Preferences

open Json

/-- The text in which the value of a word is shown. -/
def ValueKind.normalForm? : ValueKind → String → Option String
  | long, raw =>
    (Word.parse .int64 raw.toList).toOption.map fun n => String.ofList (intDigits n.val)
  | int, raw =>
    (Word.parse .int32 raw.toList).toOption.map fun n => String.ofList (intDigits n.val)
  | bool, raw => (parseBool raw).map fun b => if b then "true" else "false"
  | string, raw => some raw
  | json, raw => (Json.parse raw).toOption.map fun j => j.canon.compact

/-- A JSON text has no numbers but integers. -/
def ValueKind.Exact (kind : ValueKind) (raw : String) : Prop :=
  kind = .json → ∀ j, Json.parse raw = .ok j → j.FloatFree

namespace ValueKind

/-- What a word is read as, kind by kind. -/
inductive Reading : ValueKind → String → ParsedValue → Prop where
  | long {raw : String} {n : Word .int64} : Word.parse .int64 raw.toList = .ok n →
    Reading long raw ⟨.primitive .long, n⟩
  | int {raw : String} {n : Word .int32} : Word.parse .int32 raw.toList = .ok n →
    Reading int raw ⟨.primitive .int, n⟩
  | bool {raw : String} {b : Bool} : parseBool raw = some b →
    Reading bool raw ⟨.primitive .bool, b⟩
  | string (raw : String) : Reading string raw ⟨.primitive .string, raw⟩
  | json {raw : String} {j : Json} : Json.parse raw = .ok j →
    Reading json raw ⟨.structured .jsonDocument, Document.ofJson j⟩

/-- A word is parsed exactly if it reads so. -/
lemma parse_eq_ok_iff {kind : ValueKind} {raw : String} {p : ParsedValue} :
    kind.parse raw = .ok p ↔ kind.Reading raw p := by
  constructor
  · intro parsed
    cases kind with
    | string =>
      cases parsed
      exact .string raw
    | long | int | bool | json =>
      rw [parse] at parsed
      split at parsed
      next word =>
        cases parsed
        constructor
        exact word
      next => cases parsed
  · intro reading
    cases reading with
    | string => rfl
    | long word | int word | bool word | json word => rw [parse, word]

end ValueKind

/-! ## Documents -/

/-- The keys of a document are in order. -/
lemma Document.tree_canon (d : Document) : d.tree.canon = d.tree :=
  canon_of_canonical d.tree d.canonical

/-- A document is made again from its tree. -/
lemma Document.ofJson_tree (d : Document) : .ofJson d.tree = d := by
  obtain ⟨tree, canonical⟩ := d
  simp only [Document.ofJson, canon_of_canonical tree canonical]

/-- Without adapters a document is encoded as its compact text. -/
lemma encode_document (d : Document) :
    Registry.encode {} (.structured .jsonDocument) d = (.ok d.tree.compact, {}) := by
  have written : Engine.json.encode .tree d = .ok d.tree.compact := by
    simp only [Engine.json, Shape.toJson, d.tree_canon]
  show ((Engine.json.encode .tree d).mapError _, ({} : Calls)) = _
  rw [written]
  rfl

/-- A document without floats is decoded from its text, whatever the default. -/
lemma decode_document {d : Document} (free : d.tree.FloatFree) (fits : d.tree.Fits maxDepth)
    (default : Document) :
    Registry.decode {} (.structured .jsonDocument) d.tree.compact default = (.ok d, {}) := by
  have whole : Shape.tree.parse d.tree.compact = .ok d := by
    have reads : Reads (Shape.tree.read maxDepth) (d.tree.render .compact 0) d := by
      have taken : Reads (Json.read maxDepth) (d.tree.render .compact 0) d.tree :=
        reads_render Layout.compact_plain free fits
      intro blanks rest hb stops
      rw [Shape.read, taken blanks rest hb stops]
      exact congrArg (fun d => Except.ok (d, rest)) d.ofJson_tree
    rw [Shape.parse, compact, String.toList_ofList]
    exact readWhole_of_reads reads
  have nonempty : d.tree.compact ≠ "" := (begins_render free .compact 0).compact_ne_empty
  have read : Engine.json.decodeAs (.structured .jsonDocument) d.tree.compact = .ok d := by
    show (Engine.json.decode .tree d.tree.compact).map id = _
    simp only [Engine.json, whole]
    rfl
  simp only [Registry.decode, if_neg nonempty, read]
  rfl

/-- What a word puts under its key is shown in the normal form of the word. -/
lemma ValueKind.display_of_parse {kind : ValueKind} {key raw : String} {p : ParsedValue}
    {stored : Value} (named : key ≠ "") (parsed : kind.parse raw = .ok p)
    (exact : kind.Exact raw) (encoded : (toStored {} p.type p.value).1 = .ok stored) :
    ∃ shown, kind.normalForm? raw = some shown ∧
      ∀ {σ φ : Type} [Store σ] (s : TypedStore σ φ), s.registry = {} →
        Store.read s.store key = .ok (some stored) → (s.display key kind).1 = .ok shown := by
  cases ValueKind.parse_eq_ok_iff.1 parsed with
  | @long _ n word | @int _ n word =>
    cases encoded
    refine ⟨String.ofList (intDigits n.val), ?_, fun s _ found => ?_⟩
    · rw [ValueKind.normalForm?, word]
      rfl
    · simp only [TypedStore.display, TypedStore.get_eq named, readAs, Store.get_of_carrier found]
      rfl
  | @bool _ b word =>
    cases encoded
    refine ⟨if b then "true" else "false", ?_, fun s _ found => ?_⟩
    · rw [ValueKind.normalForm?, word]
      rfl
    · simp only [TypedStore.display, TypedStore.get_eq named, readAs,
        Store.get_of_carrier (k := .bool) found]
      rfl
  | string =>
    cases encoded
    refine ⟨raw, rfl, fun s _ found => ?_⟩
    simp only [TypedStore.display, TypedStore.get_eq named, readAs,
      Store.get_of_carrier (k := .string) found]
    rfl
  | @json _ j word =>
    -- only a tree without floats is sure to be read back
    have free : j.FloatFree := exact rfl j word
    have fits : j.Fits maxDepth := fits_of_parse word
    rw [toStored, encode_document] at encoded
    cases encoded
    refine ⟨j.canon.compact, ?_, fun s plain found => ?_⟩
    · rw [ValueKind.normalForm?, word]
      rfl
    · have decoded := decode_document (d := .ofJson j) free.canon fits.canon (.ofJson .null)
      simp only [TypedStore.display, TypedStore.get_eq named, readAs,
        Store.get_of_carrier (k := .string) found, plain, decoded]
      rfl

end Preferences
