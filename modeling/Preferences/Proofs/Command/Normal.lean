import Preferences.Proofs.Codec.Nesting
import Preferences.Proofs.Command.Integers

/-!
# Words and their normal forms

What a word means as a value of a kind, with no word about readers but for the numbers of a JSON
text: the integer of its digits, the truth value of that name, the text itself, or the value of the
tree that it spells. Just the words that mean something can be entered. What is then shown means
the same, and whoever enters it in turn stores the same and is shown the same. Main statement:
`words_are_entered_in_normal_form`.
-/

namespace Preferences

open Json

/-! ## What words mean -/

/-- A value that a word may stand for. -/
inductive WordMeaning where
  | integer (z : Int)
  | truth (b : Bool)
  | text (s : String)
  | document (m : Meaning)

namespace ValueKind

/-- The word stands for the value, as a word of the kind. -/
inductive Means : ValueKind → String → WordMeaning → Prop where
  | integer {kind : ValueKind} {width : Width} {raw : String} {z : Int} :
    kind.width? = some width → SpellsInteger raw.toList z → width.lo ≤ z ∧ z ≤ width.hi →
    Means kind raw (.integer z)
  | yes : Means bool "true" (.truth true)
  | no : Means bool "false" (.truth false)
  | text (raw : String) : Means string raw (.text raw)
  | document {raw : String} {j : Json} : Spells .literal (.element j) raw.toList →
    j.nesting ≤ 127 → Means json raw (.document j.meaning)

end ValueKind

/-- What a value stands for that a word was read as. -/
def ParsedValue.meaning? : ParsedValue → Option WordMeaning
  | ⟨.primitive .long, n⟩ => some (.integer n.val)
  | ⟨.primitive .int, n⟩ => some (.integer n.val)
  | ⟨.primitive .bool, b⟩ => some (.truth b)
  | ⟨.primitive .string, s⟩ => some (.text s)
  | ⟨.structured .jsonDocument, d⟩ => some (.document d.tree.meaning)
  | _ => none

namespace ValueKind

variable {kind : ValueKind} {raw shown : String} {m : WordMeaning} {p : ParsedValue}

/-- What a word is parsed as is what it means. -/
lemma meaning_of_parse (parsed : kind.parse raw = .ok p) :
    ∃ m, p.meaning? = some m ∧ kind.Means raw m := by
  cases parse_eq_ok_iff.1 parsed with
  | @long _ n word | @int _ n word =>
    have spelled := (Word.parse_eq_ok_iff (by decide)).1 word
    exact ⟨_, rfl, .integer rfl spelled ⟨n.lo_le, n.le_hi⟩⟩
  | @bool _ b word =>
    rw [parseBool] at word
    split at word
    next yes =>
      cases word
      exact ⟨_, rfl, yes ▸ .yes⟩
    next =>
      split at word
      next no =>
        cases word
        exact ⟨_, rfl, no ▸ .no⟩
      next => cases word
  | string => exact ⟨_, rfl, .text raw⟩
  | @json _ j word =>
    obtain ⟨spelled, shallow⟩ := Json.parse_eq_ok_iff.1 word
    refine ⟨_, rfl, ?_⟩
    show Means json raw (.document j.canon.meaning)
    rw [meaning_canon]
    exact .document spelled shallow

/-- A word that means something is parsed as it. -/
lemma parse_of_means (means : kind.Means raw m) :
    ∃ p, kind.parse raw = .ok p ∧ p.meaning? = some m := by
  cases means with
  | @integer _ width _ z integers spelled range =>
    have word (signed : width.lo < 0) :
        Word.parse width raw.toList = .ok ⟨z, range.1, range.2⟩ :=
      (Word.parse_eq_ok_iff signed).2 spelled
    cases kind with
    | long =>
      cases integers
      exact ⟨_, parse_eq_ok_iff.2 (.long (word (by decide))), rfl⟩
    | int =>
      cases integers
      exact ⟨_, parse_eq_ok_iff.2 (.int (word (by decide))), rfl⟩
    | bool | string | json => cases integers
  | yes => exact ⟨_, rfl, rfl⟩
  | no => exact ⟨_, rfl, rfl⟩
  | text => exact ⟨_, rfl, rfl⟩
  | @document _ j spelled shallow =>
    have word : Json.parse raw = .ok j := Json.parse_eq_ok_iff.2 ⟨spelled, shallow⟩
    refine ⟨_, parse_eq_ok_iff.2 (.json word), ?_⟩
    show some (WordMeaning.document j.canon.meaning) = _
    rw [meaning_canon]

/-- A word means what it is read as. -/
lemma means_iff : kind.Means raw m ↔ ∃ p, kind.parse raw = .ok p ∧ p.meaning? = some m := by
  refine ⟨parse_of_means, ?_⟩
  rintro ⟨p, parsed, meaning⟩
  obtain ⟨m', meaning', means⟩ := meaning_of_parse parsed
  cases meaning.symm.trans meaning'
  exact means

/-- A word means one value at most. -/
lemma Means.unique {m' : WordMeaning} (h : kind.Means raw m) (h' : kind.Means raw m') : m' = m := by
  obtain ⟨p, parsed, meaning⟩ := means_iff.1 h
  obtain ⟨p', parsed', meaning'⟩ := means_iff.1 h'
  cases parsed.symm.trans parsed'
  exact Option.some.inj (meaning'.symm.trans meaning)

/-! ## Normal forms -/

/-- The normal form of a word is read as the word is. -/
lemma parse_normalForm (parsed : kind.parse raw = .ok p) (exact : kind.Exact raw)
    (normal : kind.normalForm? raw = some shown) : kind.parse shown = .ok p := by
  have reading := parse_eq_ok_iff.1 parsed
  cases reading with
  | long word | int word =>
    rw [normalForm?, word] at normal
    cases normal
    rw [parse, String.toList_ofList, Word.parse_intDigits (by decide)]
  | @bool _ b word =>
    rw [normalForm?, word] at normal
    cases normal
    cases b <;> rfl
  | string =>
    cases normal
    exact parsed
  | @json _ j word =>
    rw [normalForm?, word] at normal
    cases normal
    have free : j.FloatFree := exact rfl j word
    have again : Json.parse j.canon.compact = .ok j.canon :=
      (parse_compact free.canon).1 (fits_of_parse word).canon
    rw [parse, again]
    simp only [Document.ofJson, canon_of_canonical _ j.canonical_canon]

end ValueKind

/-! ## Registries that write documents -/

section Registry

variable {σ φ : Type} [Store σ] {r : Registry} {kind : ValueKind} {key raw : String}
  {p : ParsedValue}

/-- Where documents are written plainly their texts are decoded as without any adapters. -/
lemma Registry.WritesDocuments.decode_plain (writes : r.WritesDocuments) (text : String)
    (default : Document) : (r.decode (.structured .jsonDocument) text default).1 =
      (Registry.decode {} (.structured .jsonDocument) text default).1 := by
  by_cases given : text = ""
  · rw [Registry.decode, Registry.decode, if_pos given, if_pos given]
  · have plain : Registry.WritesDocuments {} := ⟨rfl, rfl⟩
    rw [writes.decode given, plain.decode given]

/-- A word is stored in one way by all of them. -/
lemma toStored_of_parse (documents : kind = .json → r.WritesDocuments)
    (parsed : kind.parse raw = .ok p) :
    ∃ stored, (toStored r p.type p.value).1 = .ok stored ∧
      (toStored {} p.type p.value).1 = .ok stored := by
  cases ValueKind.parse_eq_ok_iff.1 parsed with
  | long | int | bool | string => exact ⟨_, rfl, rfl⟩
  | @json _ j =>
    refine ⟨.string (Document.ofJson j).tree.compact, ?_, ?_⟩
    · simp only [toStored, (documents rfl).encode_eq]
    · simp only [toStored, encode_document]

/-- A key is shown in one way by all of them. -/
lemma TypedStore.display_plain {s : TypedStore σ φ}
    (documents : kind = .json → s.registry.WritesDocuments) (key : String) :
    (s.display key kind).1 = ({ s with registry := {} }.display key kind).1 := by
  cases kind with
  | long | int | bool | string =>
    simp only [display, get]
    cases requireKey key <;> rfl
  | json =>
    simp only [display, get]
    cases requireKey key with
    | error e => rfl
    | ok _ =>
      simp only [readAs]
      cases Store.get s.store .string key "" with
      | error e => rfl
      | ok text => simp only [(documents rfl).decode_plain]

end Registry

/-! ## Faithful stores -/

namespace TypedStore

variable {σ φ : Type} [Store σ] {R : σ → Table String Value → Prop} {s : TypedStore σ φ}
  {values : Table String Value} {key raw : String} {kind : ValueKind} {mode : SyncMode}

/-- What has a stored form is set in a faithful store. -/
lemma set_of_stored (faithful : Store.Faithful R) (holds : R s.store values) (named : key ≠ "")
    {t : PrefType} {v : t.Val} {stored : Value} (encoded : (toStored s.registry t v).1 = .ok stored)
    (mode : SyncMode) :
    (s.set t key v mode).1 = .ok () ∧
      R (s.set t key v mode).2.store (values.insert key stored) := by
  have done := faithful.accepts holds key stored mode
  rw [set, requireKey, if_neg named]
  rcases stores : toStored s.registry t v with ⟨_, calls⟩
  rw [stores] at encoded
  cases encoded
  dsimp only
  rw [PendingWrite.finish]
  rcases out : Store.write s.store key stored mode with ⟨e | _, store⟩
  · rw [out] at done
    cases done
  · exact ⟨rfl, faithful.written holds out⟩

/-- A word that is read is entered. -/
lemma enter_of_parse (faithful : Store.Faithful R) (holds : R s.store values) (named : key ≠ "")
    (documents : kind = .json → s.registry.WritesDocuments) {p : ParsedValue} {stored : Value}
    (parsed : kind.parse raw = .ok p) (encoded : (toStored {} p.type p.value).1 = .ok stored)
    (mode : SyncMode) :
    let entered := s.enter key raw kind mode
    entered.1 = .ok () ∧ entered.2.registry = s.registry ∧
      R entered.2.store (values.insert key stored) := by
  obtain ⟨stored', encoded', same⟩ := toStored_of_parse documents parsed
  cases encoded.symm.trans same
  obtain ⟨done, put⟩ := set_of_stored faithful holds named encoded' mode
  rw [enter, parsed]
  dsimp only
  rw [done]
  exact ⟨rfl, s.set_registry p.type key p.value mode, put⟩

/-- What a word has stored is shown in its normal form. -/
lemma display_of_stored (faithful : Store.Faithful R)
    (documents : kind = .json → s.registry.WritesDocuments) (named : key ≠ "") {p : ParsedValue}
    {stored : Value} {shown : String} (parsed : kind.parse raw = .ok p) (exact : kind.Exact raw)
    (encoded : (toStored {} p.type p.value).1 = .ok stored)
    (normal : kind.normalForm? raw = some shown) (holds : R s.store (values.insert key stored)) :
    (s.display key kind).1 = .ok shown := by
  obtain ⟨shown', normal', displays⟩ := ValueKind.display_of_parse named parsed exact encoded
  cases normal.symm.trans normal'
  have found : Store.read s.store key = .ok (some stored) := by
    rw [faithful.read holds, Table.get?_insert_self]
  rw [display_plain documents]
  exact displays { s with registry := {} } rfl found

end TypedStore

/-- Over a faithful store, a word is entered under a key if and only if it means something as a word
of the kind, and it means one value at most. Any other word is refused, and nothing changes. Unless
the word is a JSON text with a number that is held as a float, the text that is shown for the key
means what the word does; entered in its turn it puts the same under the key, and it is what is
shown then. -/
theorem words_are_entered_in_normal_form {σ φ : Type} [Store σ]
    {R : σ → Table String Value → Prop} (faithful : Store.Faithful R) {s : TypedStore σ φ}
    {values : Table String Value} (holds : R s.store values) {key : String} (named : key ≠ "")
    {kind : ValueKind} (documents : kind = .json → s.registry.WritesDocuments) (raw : String)
    (mode : SyncMode) :
    let entered := s.enter key raw kind mode
    (entered.1 = .ok () ↔ ∃ m, kind.Means raw m) ∧
    ((¬∃ m, kind.Means raw m) →
      ∃ fault, entered = (.error (.invalidValue raw kind fault), s)) ∧
    ∀ m, kind.Means raw m → (∀ m', kind.Means raw m' → m' = m) ∧
      (kind.Exact raw → ∃ stored shown, kind.Means shown m ∧
        R entered.2.store (values.insert key stored) ∧
        (entered.2.display key kind).1 = .ok shown ∧
        ∀ mode', let again := entered.2.enter key shown kind mode'
          again.1 = .ok () ∧ R again.2.store (values.insert key stored) ∧
          (again.2.display key kind).1 = .ok shown) := by
  intro entered
  have refused (none : ¬∃ m, kind.Means raw m) :
      ∃ fault, entered = (.error (.invalidValue raw kind fault), s) := by
    cases parsed : kind.parse raw with
    | error fault => exact ⟨fault, by simp only [entered, TypedStore.enter, parsed]⟩
    | ok p =>
      obtain ⟨m, -, means⟩ := ValueKind.meaning_of_parse parsed
      exact absurd ⟨m, means⟩ none
  have stores {p : ParsedValue} {word : String} (parsed : kind.parse word = .ok p) :
      ∃ stored, (toStored {} p.type p.value).1 = .ok stored :=
    (toStored_of_parse documents parsed).imp fun _ => And.right
  refine ⟨⟨fun done => ?_, ?_⟩, refused, fun m means => ⟨fun m' => means.unique, fun exact => ?_⟩⟩
  · by_contra none
    obtain ⟨fault, out⟩ := refused none
    rw [out] at done
    cases done
  · rintro ⟨m, means⟩
    obtain ⟨p, parsed, -⟩ := ValueKind.parse_of_means means
    obtain ⟨stored, encoded⟩ := stores parsed
    exact (TypedStore.enter_of_parse faithful holds named documents parsed encoded mode).1
  · obtain ⟨p, parsed, meaning⟩ := ValueKind.parse_of_means means
    obtain ⟨stored, encoded⟩ := stores parsed
    obtain ⟨shown, normal, -⟩ := ValueKind.display_of_parse named parsed exact encoded
    have parsed' : kind.parse shown = .ok p := ValueKind.parse_normalForm parsed exact normal
    obtain ⟨-, registry, put⟩ :=
      TypedStore.enter_of_parse faithful holds named documents parsed encoded mode
    have documents' : kind = .json → entered.2.registry.WritesDocuments := registry ▸ documents
    refine ⟨stored, shown, ValueKind.means_iff.2 ⟨p, parsed', meaning⟩, put,
      TypedStore.display_of_stored faithful documents' named parsed exact encoded normal put, ?_⟩
    intro mode' again
    -- What is shown is read as the word is, so entering it is entering the word again.
    obtain ⟨done, registry', put'⟩ :=
      TypedStore.enter_of_parse faithful put named documents' parsed' encoded mode'
    rw [Table.insert_insert] at put'
    have documents'' : kind = .json → again.2.registry.WritesDocuments := registry' ▸ documents'
    exact ⟨done, put',
      TypedStore.display_of_stored faithful documents'' named parsed exact encoded normal put'⟩

/-- A number with a sign and zeros is shown without them, which stores what the number did, and so
it is with a document that has blanks. A number with a point is refused. -/
theorem loose_words_are_entered_in_normal_form :
    let s : TypedStore MemoryStore MemoryFacility :=
      { store := {}, facility := {}, supply := (World.sample (.fresh [])).supply }
    let document := "[ 2 ]"
    let meaning : Meaning := .array [.number (.int ⟨2, by decide, by decide⟩)]
    let number := s.enter "k" "+007" .long .apply
    let tree := s.enter "k" document .json .commit
    (number.1 = .ok () ∧ ValueKind.long.Means "7" (.integer 7) ∧
      (number.2.display "k" .long).1 = .ok "7" ∧
      (number.2.enter "k" "7" .long .commit).2.store.values = number.2.store.values) ∧
    (tree.1 = .ok () ∧ ∃ shown, ValueKind.json.Means shown (.document meaning) ∧
      (tree.2.display "k" .json).1 = .ok shown ∧
      (tree.2.enter "k" shown .json .apply).2.store.values = tree.2.store.values) ∧
    ∃ fault, s.enter "k" "7.0" .long .apply = (.error (.invalidValue "7.0" .long fault), s) := by
  intro s document meaning number tree
  have named : "k" ≠ "" := by decide
  have numbers : ValueKind.long = .json → s.registry.WritesDocuments := nofun
  have documents : ValueKind.json = .json → s.registry.WritesDocuments := fun _ => ⟨rfl, rfl⟩
  refine ⟨?_, ?_, ?_⟩
  · obtain ⟨entered, -, shows⟩ :=
      words_are_entered_in_normal_form MemoryStore.faithful rfl named numbers "+007" .apply
    have means : ValueKind.long.Means "+007" (.integer 7) := by
      refine .integer rfl ?_ (by decide)
      have chars : "+007".toList = ['+', '0', '0', '7'] := by decide
      rw [chars, SpellsInteger.plus_iff]
      exact ⟨nofun, by simp, rfl⟩
    obtain ⟨stored, shown, same, put, displays, again⟩ := (shows _ means).2 nofun
    -- the normal form is the one that is shown
    have seven : (number.2.display "k" .long).1 = .ok "7" := rfl
    cases displays.symm.trans seven
    exact ⟨entered.2 ⟨_, means⟩, same, seven, (again .commit).2.1.trans put.symm⟩
  · obtain ⟨entered, -, shows⟩ :=
      words_are_entered_in_normal_form MemoryStore.faithful rfl named documents document .commit
    have parsed : Json.parse document =
      .ok (.array [.number (.int ⟨2, by decide, by decide⟩)]) := by cbv
    have exact : ValueKind.json.Exact document := fun _ j read => by
      rw [parsed] at read
      cases read
      exact .array (List.forall_mem_cons.2 ⟨.int _, List.forall_mem_nil _⟩)
    obtain ⟨spelled, shallow⟩ := parse_eq_ok_iff.1 parsed
    have means : ValueKind.json.Means document (.document meaning) := .document spelled shallow
    obtain ⟨stored, shown, same, put, displays, again⟩ := (shows _ means).2 exact
    exact ⟨entered.2 ⟨_, means⟩, shown, same, displays, (again .apply).2.1.trans put.symm⟩
  · obtain ⟨entered, refused, -⟩ :=
      words_are_entered_in_normal_form MemoryStore.faithful rfl named numbers "7.0" .apply
    refine refused fun means => ?_
    have done := entered.2 means
    have out : (s.enter "k" "7.0" .long .apply).1 = .error _ := rfl
    rw [out] at done
    cases done

/-- Not every JSON text is entered as a document: 128 lists, each the only item of the next, are
refused, and so are a number beyond the range of floats and half of a surrogate pair. -/
theorem deep_document_is_refused :
    let s : TypedStore MemoryStore MemoryFacility :=
      { store := {}, facility := {}, supply := (World.sample (.fresh [])).supply }
    let deep := (lists 128).compact
    let large := "1e2147483648"
    let half := "\"\\ud800\""
    Spells .literal (.element (lists 128)) deep.toList ∧
      (∃ fault, s.enter "k" deep .json .apply = (.error (.invalidValue deep .json fault), s)) ∧
      (NumberLiteral large.toList ∧
        ∃ fault, s.enter "k" large .json .apply =
          (.error (.invalidValue large .json fault), s)) ∧
      (∃ fault, s.enter "k" half .json .apply =
        (.error (.invalidValue half .json fault), s)) ∧
      ¬ ∀ raw, (s.enter "k" raw .json .apply).1 = .ok () ↔
        ∃ j, Spells .literal (.element j) raw.toList := by
  intro s deep large half
  have refused {raw : String} {fault : JsonFault} (unread : Json.parse raw = .error fault) :
      s.enter "k" raw .json .apply =
        (.error (.invalidValue raw .json (.json raw.toList fault)), s) := by
    rw [TypedStore.enter, ValueKind.parse, unread]
  obtain ⟨nesting, free, -⟩ := lists_spec 128
  have spelled : Spells .literal (.element (lists 128)) deep.toList :=
    (spells_compact free).literal Style.tight_readable
  have unfit : ¬(lists 128).Fits maxDepth := by
    rw [fits_iff, nesting]
    decide
  obtain ⟨left, unread⟩ := (parse_compact free).2 unfit
  have number : NumberLiteral large.toList := by
    have digits : SomeDigits ['2', '1', '4', '7', '4', '8', '3', '6', '4', '8'] :=
      ⟨List.cons_ne_nil _ _, by simp⟩
    have one : SpellsWhole ['1'] := ⟨⟨List.cons_ne_nil _ _, by simp⟩, by decide⟩
    have exponent := SpellsExponent.some (.inl rfl : 'e' = 'e' ∨ _) (.inl rfl) digits
    have chars : large.toList = ['1', 'e', '2', '1', '4', '7', '4', '8', '3', '6', '4', '8'] := by
      decide
    rw [chars]
    exact .intro (.inl rfl) one .none exponent
  have unread_large : Json.parse large = .error (.placed .numberOutOfRange 0) := by cbv
  have unread_half : Json.parse half = .error (.placed .endOfHexEscape 0) := by cbv
  refine ⟨spelled, ⟨_, refused unread⟩, ⟨number, _, refused unread_large⟩,
    ⟨_, refused unread_half⟩, fun all => ?_⟩
  have done := (all deep).2 ⟨_, spelled⟩
  rw [refused unread] at done
  cases done

end Preferences
