import Preferences.Proofs.Codec.Documents
import Preferences.Proofs.Json.Reread

/-!
# Documents and the limit of brackets

The writer of documents has no limit, and the reader stops at the 128th open bracket. So a document
is read back from its text if and only if it nests at most 127 deep, and what is read never nests
deeper; in particular it can be written and read again. Main statement:
`documents_return_up_to_nesting_limit`.
-/

namespace Preferences

open Json

section Registry

variable {r : Registry} {d default : Document}

/-- A document that nests at most 127 deep is decoded from its text. -/
lemma Registry.WritesDocuments.decode_compact (writes : r.WritesDocuments)
    (free : d.tree.FloatFree) (shallow : d.tree.nesting ≤ 127) :
    (r.decode (.structured .jsonDocument) d.tree.compact default).1 = .ok d := by
  have parsed := (parse_compact free).1 (fits_iff.2 shallow)
  rw [writes.decode (compact_ne_empty free), parsed]
  exact congrArg Except.ok d.ofJson_tree

/-- A document that nests deeper is refused at the 128th open bracket. -/
lemma Registry.WritesDocuments.decode_compact_of_deep (writes : r.WritesDocuments)
    (free : d.tree.FloatFree) (deep : 128 ≤ d.tree.nesting) :
    ∃ left, (r.decode (.structured .jsonDocument) d.tree.compact default).1 =
      .error (documentError d.tree.compact (.placed .recursionLimit left)) := by
  have unfit : ¬d.tree.Fits maxDepth := by
    rw [fits_iff]
    exact Nat.not_le_of_lt deep
  obtain ⟨left, refused⟩ := (parse_compact free).2 unfit
  refine ⟨left, ?_⟩
  rw [writes.decode (compact_ne_empty free), refused]
  rfl

/-- What is decoded nests at most 127 deep, unless nothing was given and the default was deeper. -/
lemma Registry.WritesDocuments.nesting_of_decode (writes : r.WritesDocuments) {input : String}
    (decoded : (r.decode (.structured .jsonDocument) input default).1 = .ok d) :
    d.tree.nesting ≤ 127 ∨ input = "" ∧ d = default := by
  by_cases given : input = ""
  · right
    rw [Registry.decode, if_pos given] at decoded
    exact ⟨given, (Except.ok.inj decoded).symm⟩
  · left
    obtain ⟨j, parsed, rfl⟩ := writes.decode_eq_ok given decoded
    exact fits_iff.1 (fits_of_parse parsed).canon

end Registry

namespace TypedStore

variable {σ φ : Type} [Store σ] {s : TypedStore σ φ} {key raw : String} {mode : SyncMode}

/-- A JSON word that is entered has been read, and the text of its document written. -/
lemma enter_json_eq_ok (writes : s.registry.WritesDocuments)
    (done : (s.enter key raw .json mode).1 = .ok ()) :
    key ≠ "" ∧ (s.enter key raw .json mode).2.registry = s.registry ∧
      ∃ j, Json.parse raw = .ok j ∧
        Store.write s.store key (.string (Document.ofJson j).tree.compact) mode =
          (.ok (), (s.enter key raw .json mode).2.store) := by
  rw [enter, ValueKind.parse] at done ⊢
  rcases parsed : Json.parse raw with fault | j
  · rw [parsed] at done
    cases done
  · rw [parsed] at done
    dsimp only at done ⊢
    by_cases named : key = ""
    · rw [set, requireKey, if_pos named] at done
      cases done
    · rw [set_of_encode named (writes.encode_eq (.ofJson j))] at done ⊢
      rcases written : Store.write s.store key (.string (Document.ofJson j).tree.compact) mode with
        ⟨fault | _, store⟩
      · rw [written] at done
        cases done
      · exact ⟨named, rfl, j, rfl, written⟩

/-- A text that was printed for something read is shown. -/
lemma display_json_of_printed (writes : s.registry.WritesDocuments) (named : key ≠ "") {j : Json}
    (parsed : Json.parse raw = .ok j)
    (found : Store.read s.store key = .ok (some (.string (Document.ofJson j).tree.compact))) :
    ∃ shown, (s.display key .json).1 = .ok shown := by
  obtain ⟨given, i, again⟩ := parse_of_printed parsed
  have decoded (default : Document) : (s.registry.decode (.structured .jsonDocument)
      (Document.ofJson j).tree.compact default).1 = .ok (.ofJson i) := by
    rw [Document.ofJson, writes.decode given, again]
    rfl
  refine ⟨(Document.ofJson i).tree.compact, ?_⟩
  simp only [display, get_eq named, readAs, Store.get_of_carrier (k := .string) found, decoded]
  rfl

end TypedStore

/-- A document without floats has a text, from which it is decoded, whatever the default, where it
nests at most 127 deep; where it nests deeper, the text is refused, and the error has all of it.
What is decoded nests at most 127 deep, but for the default of an empty input. So every JSON word
that is entered, one with floats too, can be shown, there and wherever else its text is found. -/
theorem documents_return_up_to_nesting_limit {r : Registry} (writes : r.WritesDocuments) :
    (∀ d : Document, d.tree.FloatFree → ∃ text,
      (r.encode (.structured .jsonDocument) d).1 = .ok text ∧ ∀ default : Document,
        (d.tree.nesting ≤ 127 → (r.decode (.structured .jsonDocument) text default).1 = .ok d) ∧
        (128 ≤ d.tree.nesting → ∃ reason, (r.decode (.structured .jsonDocument) text default).1 =
          .error (.decode text (PrefType.structured .jsonDocument).typeName reason))) ∧
    (∀ (input : String) (default d : Document),
      (r.decode (.structured .jsonDocument) input default).1 = .ok d →
        d.tree.nesting ≤ 127 ∨ input = "" ∧ d = default) ∧
    ∀ {σ φ : Type} [Store σ] {R : σ → Table String Value → Prop}, Store.Tells R →
      ∀ {s : TypedStore σ φ} {values : Table String Value}, s.registry = r → R s.store values →
      ∀ (key raw : String) (mode : SyncMode), (s.enter key raw .json mode).1 = .ok () →
        (∃ shown, ((s.enter key raw .json mode).2.display key .json).1 = .ok shown) ∧
        ∃ text, R (s.enter key raw .json mode).2.store (values.insert key (.string text)) ∧
          ∀ {σ' φ' : Type} [Store σ'] (s' : TypedStore σ' φ'), s'.registry.WritesDocuments →
            Store.read s'.store key = .ok (some (.string text)) →
            ∃ shown, (s'.display key .json).1 = .ok shown := by
  refine ⟨fun d free => ⟨d.tree.compact, writes.encode d, fun default => ⟨?_, ?_⟩⟩, ?_, ?_⟩
  · exact writes.decode_compact free
  · intro deep
    obtain ⟨left, refused⟩ := writes.decode_compact_of_deep free deep
    exact ⟨_, refused⟩
  · intro input default d
    exact writes.nesting_of_decode
  · rintro σ φ _ R tells s values rfl holds key raw mode done
    obtain ⟨named, registry, j, parsed, written⟩ := TypedStore.enter_json_eq_ok writes done
    have put := tells.written holds written
    refine ⟨?_, _, put, fun s' writes' => TypedStore.display_json_of_printed writes' named parsed⟩
    refine TypedStore.display_json_of_printed (registry ▸ writes) named parsed ?_
    rw [tells.read put, Table.get?_insert_self]

/-- As many lists as the number says, each the only item of the next. -/
def Json.lists : Nat → Json
  | 0 => .null
  | n + 1 => .array [lists n]

/-- Lists in lists nest as deep as there are lists, have no floats and are canonical. -/
lemma Json.lists_spec (n : Nat) :
    (lists n).nesting = n ∧ (lists n).FloatFree ∧ (lists n).Canonical := by
  induction n with
  | zero => exact ⟨rfl, .null, trivial⟩
  | succ n ih =>
    obtain ⟨nesting, free, canonical⟩ := ih
    refine ⟨?_, .array (List.forall_mem_cons.2 ⟨free, List.forall_mem_nil _⟩), canonical, trivial⟩
    rw [lists, Json.nesting, nestingItems, nestingItems, nesting, Nat.max_zero]

/-- A list that is the innermost of 127 returns, one more is refused, and a list with a float is
entered and shown. -/
theorem lists_return_up_to_limit :
    let inside (n : Nat) : Document := ⟨lists n, (lists_spec n).2.2⟩
    let s : TypedStore MemoryStore MemoryFacility :=
      { store := {}, facility := {}, supply := .sample }
    (∃ text, (Registry.encode {} (.structured .jsonDocument) (inside 127)).1 = .ok text ∧
      (Registry.decode {} (.structured .jsonDocument) text (inside 0)).1 = .ok (inside 127)) ∧
    (∃ text reason, (Registry.encode {} (.structured .jsonDocument) (inside 128)).1 = .ok text ∧
      (Registry.decode {} (.structured .jsonDocument) text (inside 0)).1 =
        .error (.decode text (PrefType.structured .jsonDocument).typeName reason)) ∧
    (s.enter "k" "[1.5]" .json .apply).1 = .ok () ∧
    ∃ shown, ((s.enter "k" "[1.5]" .json .apply).2.display "k" .json).1 = .ok shown := by
  intro inside s
  obtain ⟨documents, -, stores⟩ :=
    documents_return_up_to_nesting_limit (r := {}) ⟨rfl, rfl⟩
  have nesting (n : Nat) : (inside n).tree.nesting = n := (lists_spec n).1
  have free (n : Nat) : (inside n).tree.FloatFree := (lists_spec n).2.1
  obtain ⟨text, encoded, decoded⟩ := documents (inside 127) (free 127)
  obtain ⟨text', encoded', decoded'⟩ := documents (inside 128) (free 128)
  obtain ⟨reason, refused⟩ := (decoded' (inside 0)).2 (nesting 128).ge
  have entered : (s.enter "k" "[1.5]" .json .apply).1 = .ok () := rfl
  refine ⟨⟨text, encoded, (decoded (inside 0)).1 (nesting 127).le⟩,
    ⟨text', reason, encoded', refused⟩, entered, ?_⟩
  exact (stores MemoryStore.tells (s := s) rfl rfl "k" "[1.5]" .apply entered).1

/-- The empty text gives back a default that nests too deep to be read from any text, and an adapter
that reads nothing keeps a document from being shown that was entered. -/
theorem deep_default_and_adapter_escape_limit :
    let deep : Document := ⟨lists 128, (lists_spec 128).2.2⟩
    let s : TypedStore MemoryStore MemoryFacility :=
      { store := {}, facility := {}, supply := .sample
        registry := Registry.add {} (.structured .jsonDocument) (.fixed "x") }
    ((Registry.decode {} (.structured .jsonDocument) "" deep).1 = .ok deep ∧
      ¬ deep.tree.nesting ≤ 127) ∧
    (s.enter "k" "1" .json .apply).1 = .ok () ∧
      ((s.enter "k" "1" .json .apply).2.display "k" .json).1 =
        .error (.decode "x" (PrefType.structured .jsonDocument).typeName "unused") := by
  intro deep s
  have nesting : deep.tree.nesting = 128 := (lists_spec 128).1
  refine ⟨⟨rfl, ?_⟩, rfl, rfl⟩
  rw [nesting]
  decide

end Preferences
