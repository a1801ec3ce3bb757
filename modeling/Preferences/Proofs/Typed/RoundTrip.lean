import Preferences.Proofs.Shape.RoundTrip
import Preferences.Proofs.Typed.History

/-!
# Structured values written and read back through a registry

Every value of the structured types whose shapes are exact is encoded as a text that is not empty,
and decoded from it, whatever the default, by the JSON engine and behind a version mark. So a typed
store gives back what was set. Main statement: `structured_value_returns`.
-/

namespace Preferences

open Json

/-! ## Engines -/

/-- The engine writes every value of an exact shape as a text that is not empty, and reads the value
back from it. -/
def Engine.RoundTrips (e : Engine) : Prop :=
  ∀ {s : Shape}, s.exact = true → s.depth ≤ maxDepth → ∀ v, ∃ text,
    e.encode s v = .ok text ∧ text ≠ "" ∧ e.decode s text = .ok v

namespace Engine

/-- The JSON engine gives back what it encodes, for every exact shape. -/
lemma json_roundTrips : json.RoundTrips := by
  intro s exact shallow v
  obtain ⟨j, encoded, value⟩ := s.roundTrips exact v
  refine ⟨j.canon.compact, ?_, ?_, ?_⟩
  · simp only [json, encoded]
  · exact (value.begins .compact 0).compact_ne_empty
  · have parsed : s.parse j.canon.compact = .ok v := by
      rw [Shape.parse, compact, String.toList_ofList]
      exact readWhole_of_reads (value.reads Layout.compact_plain shallow)
    simp only [json, parsed]

/-- What follows a mark is found behind it. -/
lemma afterMark_append (mark cs : List Char) : afterMark mark (mark ++ cs) = some cs := by
  induction mark with
  | nil => rfl
  | cons m mark ih => rw [List.cons_append, afterMark, if_pos rfl, ih]

/-- So does the engine that marks a version. -/
lemma versioned_roundTrips : versioned.RoundTrips := by
  intro s exact shallow v
  obtain ⟨text, encoded, -, decoded⟩ := json_roundTrips exact shallow v
  refine ⟨versionMark ++ text, ?_, ?_, ?_⟩
  · simp only [versioned, encoded]
    rfl
  · intro empty
    have chars := congrArg String.toList empty
    rw [String.toList_append] at chars
    cases chars
  · have rest : afterMark versionMark.toList (versionMark ++ text).toList = some text.toList := by
      rw [String.toList_append, afterMark_append]
    simp only [versioned, rest, String.ofList_toList, decoded]

end Engine

/-! ## Registries and typed stores -/

namespace Model

/-- The structured types of which no value is lost. -/
def lossless : List Model :=
  [record, customierClass, counter, ring, bearer, outer, ledger, maybe, pair, probeRecord,
    probeCode]

/-- The lossless types have exact shapes that do not nest too deep. -/
lemma exact_of_lossless {m : Model} (h : m ∈ lossless) :
    (PrefType.structured m).shape.exact = true ∧
      (PrefType.structured m).shape.depth ≤ maxDepth := by
  revert m
  decide

end Model

namespace Registry

variable {r : Registry} {m : Model}

/-- Without an adapter, what the engine writes is decoded, whatever the default. -/
lemma decode_encode (engine : r.engine.RoundTrips) (bare : r.adapter? (.structured m) = none)
    (lossless : m ∈ Model.lossless) (v : m.Val) :
    ∃ text, r.encode (.structured m) v = (.ok text, {}) ∧ text ≠ "" ∧
      ∀ default, r.decode (.structured m) text default = (.ok v, {}) := by
  obtain ⟨exact, shallow⟩ := Model.exact_of_lossless lossless
  obtain ⟨text, encoded, nonempty, decoded⟩ := engine exact shallow (m.shaped.toVal v)
  refine ⟨text, ?_, nonempty, fun default => ?_⟩
  · have written : r.engine.encodeAs (.structured m) v = .ok text := encoded
    simp only [encode, bare, written]
    rfl
  · have read : r.engine.decodeAs (.structured m) text = .ok v := by
      rw [Engine.decodeAs, decoded]
      exact congrArg Except.ok (m.shaped.ofVal_toVal v)
    simp only [decode, if_neg nonempty, bare, read]
    rfl

end Registry

namespace TypedStore

variable {σ φ : Type} [Store σ] {s : TypedStore σ φ} {R : σ → Table String Value → Prop}
  {values : Table String Value} {m : Model} {key text : String} {v : m.Val} {mode : SyncMode}

/-- A value that can be encoded is set as its text. -/
lemma set_of_encode (named : key ≠ "")
    (encoded : s.registry.encode (.structured m) v = (.ok text, {})) :
    s.set (.structured m) key v mode =
      ((Store.write s.store key (.string text) mode).1.mapError .store,
        { s with store := (Store.write s.store key (.string text) mode).2,
                 calls := s.calls + {} }) := by
  rw [set, requireKey, if_neg named]
  simp only [toStored, encoded]
  rfl

/-- After a set, a get decodes the text that was written. -/
lemma get_of_set (tells : Store.Tells R) (holds : R s.store values) (named : key ≠ "")
    (encoded : s.registry.encode (.structured m) v = (.ok text, {}))
    (done : (s.set (.structured m) key v mode).1 = .ok ()) (default : m.Val) :
    ((s.set (.structured m) key v mode).2.get (.structured m) key (some default)).1 =
      (s.registry.decode (.structured m) text default).1 := by
  rw [set_of_encode named encoded] at done ⊢
  rcases out : Store.write s.store key (.string text) mode with ⟨e | _, store⟩
  · rw [out] at done
    cases done
  · have read : Store.read store key = .ok (some (.string text)) := by
      rw [tells.read (tells.written holds out), Table.get?_insert_self]
    have raw : Store.get store .string key "" = .ok text :=
      Store.get_of_carrier (k := .string) read
    rw [get_eq named]
    simp only [readAs, raw]

/-- A value that was set is got, whatever the default. -/
lemma get_set (tells : Store.Tells R) (holds : R s.store values) (named : key ≠ "")
    (encoded : s.registry.encode (.structured m) v = (.ok text, {}))
    (decoded : ∀ default, s.registry.decode (.structured m) text default = (.ok v, {}))
    (done : (s.set (.structured m) key v mode).1 = .ok ()) (default : m.Val) :
    ((s.set (.structured m) key v mode).2.get (.structured m) key (some default)).1 = .ok v := by
  rw [get_of_set tells holds named encoded done, decoded]

end TypedStore

/-- A value of a lossless type is encoded as a text that is not empty, and decoded from it whatever
the default, where the type has no adapter. So, over a store that tells what was last written, only
the store can refuse to set it, and when it is set, a get gives it back. -/
theorem structured_value_returns {m : Model} (lossless : m ∈ Model.lossless) {r : Registry}
    (engine : r.engine = .json ∨ r.engine = .versioned)
    (bare : r.adapter? (.structured m) = none) (v : m.Val) :
    ∃ text, r.encode (.structured m) v = (.ok text, {}) ∧ text ≠ "" ∧
      (∀ default, r.decode (.structured m) text default = (.ok v, {})) ∧
      ∀ {σ φ : Type} [Store σ] {R : σ → Table String Value → Prop}, Store.Tells R →
        ∀ {s : TypedStore σ φ} {values : Table String Value}, s.registry = r → R s.store values →
        ∀ {key : String}, key ≠ "" → ∀ mode : SyncMode,
        (s.set (.structured m) key v mode).1 =
          (Store.write s.store key (.string text) mode).1.mapError .store ∧
        ((s.set (.structured m) key v mode).1 = .ok () → ∀ default,
          ((s.set (.structured m) key v mode).2.get (.structured m) key (some default)).1 =
            .ok v) := by
  have sound : r.engine.RoundTrips := by
    rcases engine with json | versioned
    · rw [json]
      exact Engine.json_roundTrips
    · rw [versioned]
      exact Engine.versioned_roundTrips
  obtain ⟨text, encoded, nonempty, decoded⟩ := Registry.decode_encode sound bare lossless v
  refine ⟨text, encoded, nonempty, decoded, ?_⟩
  rintro σ φ _ R tells s values rfl holds key named mode
  refine ⟨?_, TypedStore.get_set tells holds named encoded decoded⟩
  rw [TypedStore.set_of_encode named encoded]

/-- A bearer with every kind of ring, whose texts have a quote, a control character and a character
beyond the first plane, is set in memory behind the version mark and got back. -/
theorem bearer_returns_from_memory :
    let age (z : Int) (h : -0x80000000 ≤ z ∧ z ≤ 0x7fffffff) : Word .int32 := ⟨z, h.1, h.2⟩
    let bearer : Bearer :=
      ⟨⟨"Bilbo \"B\"\n", age 111 (by decide)⟩, some ⟨"", age (-1) (by decide)⟩,
        [.plain, .inscribed "𝄞", .forged ⟨20, by decide, by decide⟩], none⟩
    let registry : Registry := { engine := .versioned }
    let s : TypedStore MemoryStore MemoryFacility :=
      { store := {}, facility := {}, registry, supply := .sample }
    (∃ text, registry.encode (.structured .bearer) bearer = (.ok text, {}) ∧ text ≠ "" ∧
      ∀ default, registry.decode (.structured .bearer) text default = (.ok bearer, {})) ∧
    (s.set (.structured .bearer) "k" bearer .apply).1 = .ok () ∧
    ∀ default, ((s.set (.structured .bearer) "k" bearer .apply).2.get (.structured .bearer) "k"
      (some default)).1 = .ok bearer := by
  intro age bearer registry s
  obtain ⟨text, encoded, nonempty, decoded, stored⟩ :=
    structured_value_returns (m := .bearer) (r := registry) (by decide) (.inr rfl) rfl bearer
  refine ⟨⟨text, encoded, nonempty, decoded⟩, ?_⟩
  obtain ⟨result, returned⟩ :=
    stored MemoryStore.tells (s := s) rfl rfl (by decide : "k" ≠ "") .apply
  exact ⟨result, returned result⟩

end Preferences
