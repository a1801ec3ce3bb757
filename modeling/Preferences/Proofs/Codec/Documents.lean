import Mathlib
import Preferences.Proofs.Command.Values
import Preferences.Proofs.Json.Accepted
import Preferences.Proofs.Json.Meaning
import Preferences.Proofs.Json.Printed
import Preferences.Proofs.Text.Utf8

/-!
# Documents and their texts

A registry without an adapter for documents reads any JSON text as a document and writes one text
for it. Where no number is a float, the texts of two documents are the same if and only if what they
were read from denotes the same value; the text has no blanks, the keys of its objects are in the
order of their bytes, and it is read as the document again. Main statement:
`equal_documents_have_one_text`.
-/

namespace Preferences

open Json

namespace Json

/-- No blanks in the gaps, and integers only. -/
def Style.tight : Style where
  gap text := text = []
  number n text := ∃ z : WireInt, n = .int z ∧ text = intDigits z.val

/-- The text is JSON for the value, with no numbers but integers. -/
def Denotes (text : String) (m : Meaning) : Prop :=
  ∃ j, Spells .integral (.element j) text.toList ∧ j.meaning = m

/-- No number of the text is held as a float. -/
def HeldExactly (text : String) : Prop := ∀ j, parse text = .ok j → j.FloatFree

/-- In every object, keys increase by their bytes. -/
inductive KeysInByteOrder : Json → Prop where
  | null : KeysInByteOrder null
  | bool (b : Bool) : KeysInByteOrder (bool b)
  | number (n : JsonNumber) : KeysInByteOrder (number n)
  | string (s : String) : KeysInByteOrder (string s)
  | array {items : List Json} : (∀ j ∈ items, j.KeysInByteOrder) → KeysInByteOrder (array items)
  | object {members : List (String × Json)} :
    members.Pairwise (fun m n => utf8 m.1 < utf8 n.1) → (∀ m ∈ members, m.2.KeysInByteOrder) →
    KeysInByteOrder (object members)

mutual

/-- In a canonical document all objects have their keys in byte order. -/
theorem keysInByteOrder_of_canonical (j : Json) (canonical : j.Canonical) : j.KeysInByteOrder := by
  cases j with
  | null => exact .null
  | bool b => exact .bool b
  | number n => exact .number n
  | string s => exact .string s
  | array items => exact .array (itemsInByteOrder_of_canonical items canonical)
  | object members =>
    exact .object (canonical.1.imp utf8_lt_of_compare)
      (membersInByteOrder_of_canonical members canonical.2)

/-- So have those inside canonical items. -/
theorem itemsInByteOrder_of_canonical (js : List Json) (canonical : CanonicalItems js) :
    ∀ j ∈ js, j.KeysInByteOrder := by
  cases js with
  | nil => exact List.forall_mem_nil _
  | cons j js =>
    exact List.forall_mem_cons.2 ⟨keysInByteOrder_of_canonical j canonical.1,
      itemsInByteOrder_of_canonical js canonical.2⟩

/-- So have those inside the values of canonical members. -/
theorem membersInByteOrder_of_canonical (ms : List (String × Json))
    (canonical : CanonicalMembers ms) : ∀ m ∈ ms, m.2.KeysInByteOrder := by
  cases ms with
  | nil => exact List.forall_mem_nil _
  | cons m ms =>
    obtain ⟨k, j⟩ := m
    exact List.forall_mem_cons.2 ⟨keysInByteOrder_of_canonical j canonical.1,
      membersInByteOrder_of_canonical ms canonical.2⟩

end

end Json

/-! ## Reading and writing -/

section Registry

variable {r : Registry}

/-- A registry of JSON, with no adapter for documents. -/
structure Registry.WritesDocuments (r : Registry) : Prop where
  json : r.engine = .json
  plain : r.adapter? (.structured .jsonDocument) = none

/-- Adapters for other types make no difference to documents. -/
lemma Registry.WritesDocuments.encode_eq (h : r.WritesDocuments) (d : Document) :
    r.encode (.structured .jsonDocument) d = (.ok d.tree.compact, {}) := by
  have same : r.encode (.structured .jsonDocument) d =
      Registry.encode {} (.structured .jsonDocument) d := by
    simp only [Registry.encode, h.plain, h.json]
  rw [same, encode_document]

/-- A document is encoded as its compact text. -/
lemma Registry.WritesDocuments.encode (h : r.WritesDocuments) (d : Document) :
    (r.encode (.structured .jsonDocument) d).1 = .ok d.tree.compact := by
  rw [h.encode_eq]

/-- The fault of a text that is no document. -/
def documentError (text : String) (fault : JsonFault) : Error :=
  .decode text (PrefType.structured .jsonDocument).typeName (fault.message text.toList)

/-- The shape of documents takes every JSON text, with its keys put in order. -/
lemma parse_tree (text : String) :
    Shape.tree.parse text = (Json.parse text).map Document.ofJson := by
  rw [Shape.parse, Json.parse, readWhole, readWhole]
  show Except.bind ((Json.read maxDepth text.toList).map _) _ = _
  rcases Json.read maxDepth text.toList with fault | ⟨j, rest⟩
  · rfl
  · simp only [bind, Except.map, Except.bind]
    cases skipSpace rest <;> rfl

/-- A text is decoded as the document it spells, and refused for what keeps it from being JSON. -/
lemma Registry.WritesDocuments.decode (h : r.WritesDocuments) {text : String} (given : text ≠ "")
    (default : Document) : (r.decode (.structured .jsonDocument) text default).1 =
      ((Json.parse text).map Document.ofJson).mapError (documentError text) := by
  have read : r.engine.decodeAs (.structured .jsonDocument) text =
      ((Json.parse text).map Document.ofJson).mapError fun fault => fault.message text.toList := by
    rw [h.json]
    show ((Engine.json.decode .tree text).map id) = _
    simp only [Engine.json, parse_tree]
    cases Json.parse text <;> rfl
  simp only [Registry.decode, if_neg given, h.plain, read]
  cases Json.parse text <;> rfl

/-- What is decoded from a text is the document of a JSON tree. -/
lemma Registry.WritesDocuments.decode_eq_ok (h : r.WritesDocuments) {text : String}
    (given : text ≠ "") {default d : Document}
    (decoded : (r.decode (.structured .jsonDocument) text default).1 = .ok d) :
    ∃ j, Json.parse text = .ok j ∧ d = .ofJson j := by
  rw [h.decode given] at decoded
  rcases parsed : Json.parse text with fault | j
  · rw [parsed] at decoded
    cases decoded
  · rw [parsed] at decoded
    cases decoded
    exact ⟨j, rfl, rfl⟩

end Registry

namespace Json

variable {j : Json}

/-- Tight spelling is read as what it spells. -/
lemma Style.tight_readable : Style.tight.Readable := by
  refine ⟨fun gap empty => ?_, ?_⟩
  · rw [show gap = [] from empty]
    exact .nil
  · rintro n text ⟨z, rfl, rfl⟩
    exact takesNumber_int z

/-- The text of a tree without floats spells it without blanks. -/
lemma spells_compact (free : j.FloatFree) : Spells .tight (.element j) j.compact.toList := by
  have value : Spells .tight (.value j) (j.render .compact 0) :=
    spells_render free rfl fun z => ⟨z, rfl, rfl⟩
  exact value.compact rfl

/-- The text of a tree without floats is read as it, up to the limit of brackets. -/
lemma parse_compact (free : j.FloatFree) : (j.Fits maxDepth → parse j.compact = .ok j) ∧
    (¬j.Fits maxDepth → ∃ left, parse j.compact = .error (.placed .recursionLimit left)) :=
  readWhole_outcome ((spells_compact free).taken Style.tight_readable) maxDepth

/-- No document is written as nothing. -/
lemma compact_ne_empty (free : j.FloatFree) : j.compact ≠ "" :=
  (begins_render free .compact 0).compact_ne_empty

/-- Trees without floats that have one text are the same. -/
lemma compact_inj {i : Json} (free : i.FloatFree) (free' : j.FloatFree)
    (same : i.compact = j.compact) : i = j := by
  have spelled := spells_compact free
  rw [same] at spelled
  exact spelled.unique Style.tight_readable (spells_compact free')

/-- What a text denotes is what the tree means that was read from it. -/
lemma denotes_iff {text : String} (free : j.FloatFree) (parsed : parse text = .ok j)
    {m : Meaning} : Denotes text m ↔ j.meaning = m := by
  have spelled := spells_of_parse free parsed
  refine ⟨?_, fun means => ⟨j, spelled, means⟩⟩
  rintro ⟨i, spelled', means⟩
  rwa [spelled'.unique Style.integral_readable spelled] at means

end Json

/-- Two texts that are read as documents, and have no number that is held as a float, denote one
value each; it is the same value if and only if the documents are written as one text. What is
written has no blanks, has the keys of every object in the order of their bytes, and is read as the
document again. -/
theorem equal_documents_have_one_text {r : Registry} (writes : r.WritesDocuments)
    {text text' : String} (given : text ≠ "") (given' : text' ≠ "") (held : HeldExactly text)
    (held' : HeldExactly text') {default d d' : Document}
    (decoded : (r.decode (.structured .jsonDocument) text default).1 = .ok d)
    (decoded' : (r.decode (.structured .jsonDocument) text' default).1 = .ok d') :
    (∃! m, Denotes text m) ∧ ∃ c c', (r.encode (.structured .jsonDocument) d).1 = .ok c ∧
      (r.encode (.structured .jsonDocument) d').1 = .ok c' ∧
      (c = c' ↔ ∃ m, Denotes text m ∧ Denotes text' m) ∧
      Spells .tight (.element d.tree) c.toList ∧ d.tree.KeysInByteOrder ∧
      ∀ default', (r.decode (.structured .jsonDocument) c default').1 = .ok d := by
  obtain ⟨j, parsed, rfl⟩ := writes.decode_eq_ok given decoded
  obtain ⟨j', parsed', rfl⟩ := writes.decode_eq_ok given' decoded'
  have free : j.FloatFree := held j parsed
  have free' : j'.FloatFree := held' j' parsed'
  have denotes {m : Meaning} := denotes_iff free parsed (m := m)
  have denotes' {m : Meaning} := denotes_iff free' parsed' (m := m)
  refine ⟨⟨j.meaning, denotes.2 rfl, fun m means => (denotes.1 means).symm⟩, j.canon.compact,
    j'.canon.compact, writes.encode _, writes.encode _, ?_, spells_compact free.canon,
    keysInByteOrder_of_canonical _ j.canonical_canon, fun default' => ?_⟩
  · have same_text : j.canon.compact = j'.canon.compact ↔ j.canon = j'.canon :=
      ⟨compact_inj free.canon free'.canon, congrArg compact⟩
    rw [same_text, canon_eq_canon_iff]
    constructor
    · intro same
      exact ⟨j.meaning, denotes.2 rfl, denotes'.2 same.symm⟩
    · rintro ⟨m, means, means'⟩
      rw [denotes.1 means, denotes'.1 means']
  · have read := (parse_compact free.canon).1 (fits_of_parse parsed).canon
    rw [writes.decode (compact_ne_empty free.canon), read]
    show Except.ok (Document.ofJson j.canon) = .ok (.ofJson j)
    simp only [Document.ofJson, canon_of_canonical _ j.canonical_canon]

/-- Keys in another order, a key given twice, an escape and blanks make no difference to what is
written. -/
theorem respelled_document_has_same_text :
    let text := " \x7b\"b\":1 ,\"a\":[2],\"b\":\"\\u0041\"\x7d"
    let text' := "\x7b\"a\":[2],\"b\":\"A\"\x7d"
    let d : Document := .ofJson (.object [("a", .array [.number (.int ⟨2, by decide, by decide⟩)]),
      ("b", .string "A")])
    (Registry.decode {} (.structured .jsonDocument) text d).1 = .ok d ∧
      (Registry.encode {} (.structured .jsonDocument) d).1 = .ok text' ∧
      ∃ m, Denotes text m ∧ Denotes text' m := by
  intro text text' d
  let two : Json := .number (.int ⟨2, by decide, by decide⟩)
  let tree : Json := .object [("b", .number (.int ⟨1, by decide, by decide⟩)),
    ("a", .array [two]), ("b", .string "A")]
  let tree' : Json := .object [("a", .array [two]), ("b", .string "A")]
  have writes : Registry.WritesDocuments {} := ⟨rfl, rfl⟩
  have parsed : Json.parse text = .ok tree := by cbv
  have parsed' : Json.parse text' = .ok tree' := by cbv
  -- the tree that is kept is the canonical one, without the earlier of two equal keys
  have same : Document.ofJson tree = d := by
    have canon : tree.canon = tree'.canon := by cbv
    simp only [d, Document.ofJson, canon, tree', two]
  have decoded : (Registry.decode {} (.structured .jsonDocument) text d).1 = .ok d := by
    rw [writes.decode (by decide), parsed, ← same]
    rfl
  have decoded' : (Registry.decode {} (.structured .jsonDocument) text' d).1 = .ok d := by
    rw [writes.decode (by decide), parsed']
    rfl
  have encoded : (Registry.encode {} (.structured .jsonDocument) d).1 = .ok text' := by
    have printed : tree'.canon.compact = text' := by cbv
    rw [writes.encode, ← printed]
    rfl
  have free_list : (Json.array [two]).FloatFree :=
    .array (List.forall_mem_cons.2 ⟨.int _, List.forall_mem_nil _⟩)
  have free_tail : ∀ m ∈ [("a", Json.array [two]), ("b", .string "A")], m.2.FloatFree :=
    List.forall_mem_cons.2 ⟨free_list, List.forall_mem_cons.2 ⟨.string _, List.forall_mem_nil _⟩⟩
  have held : HeldExactly text := fun j read => by
    rw [parsed] at read
    cases read
    exact .object (List.forall_mem_cons.2 ⟨.int _, free_tail⟩)
  have held' : HeldExactly text' := fun j read => by
    rw [parsed'] at read
    cases read
    exact .object free_tail
  obtain ⟨-, c, c', written, written', denote, -⟩ :=
    equal_documents_have_one_text writes (by decide) (by decide) held held' decoded decoded'
  rw [written] at written'
  exact ⟨decoded, encoded, denote.1 (Except.ok.inj written')⟩

end Preferences
