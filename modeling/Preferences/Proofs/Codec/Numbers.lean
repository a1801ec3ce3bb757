import Preferences.Proofs.Json.Reread
import Preferences.Proofs.Typed.RoundTrip

/-!
# Numbers that JSON does not hold

A JSON value holds the integers from `-2 ^ 63` up to `2 ^ 64` and the finite floats. An integer of
128 bits that is not among them is refused when it is written, though the reader takes the digits of
any. A float that is not finite is not refused: it is written as `null`, which the reader does not
take for a number. Main statements: `wide_integers_are_kept_or_refused` and
`only_finite_ratios_are_read_again`.
-/

namespace Preferences

open Json

/-! ## Integers of 128 bits -/

/-- JSON holds the integer exactly. -/
def Wired (z : Int) : Prop := -2 ^ 63 ≤ z ∧ z < 2 ^ 64

namespace Engine

variable {w : Width}

/-- An integer that JSON holds is written in decimal. -/
lemma json_encode_word {z : Word w} (wired : Wired z.val) :
    json.encode (.word w) z = .ok (String.ofList (intDigits z.val)) := by
  obtain ⟨lo, hi⟩ := wired
  have range : (-0x8000000000000000 : Int) ≤ z.val ∧ z.val ≤ 0xffffffffffffffff := by omega
  simp only [json, Shape.toJson, wholeJson, Ranged.ofInt?, dif_pos range]
  rfl

/-- A word that is too wide for a number is refused. -/
lemma json_encode_word_of_not {z : Word w} (unwired : ¬ Wired z.val) :
    json.encode (.word w) z = .error "number out of range" := by
  have range : ¬ ((-0x8000000000000000 : Int) ≤ z.val ∧ z.val ≤ 0xffffffffffffffff) := by
    intro ⟨lo, hi⟩
    exact unwired ⟨by omega, by omega⟩
  simp only [json, Shape.toJson, wholeJson, Ranged.ofInt?, dif_neg range]
  rfl

/-- Every integer of 128 bits is read from its decimal text. -/
lemma json_decode_word (big : w = .int128 ∨ w = .nat128) (z : Word w) :
    json.decode (.word w) (String.ofList (intDigits z.val)) = .ok z := by
  have reads : Reads ((Shape.word w).read maxDepth) (intDigits z.val) z := by
    intro blanks rest hb stops
    exact (if_pos big).trans (reads_bigWord z blanks rest hb stops)
  simp only [json, Shape.parse, String.toList_ofList, readWhole_of_reads reads]

end Engine

/-- The integers of the type are read from their decimal texts, and written as them from `lo` up to
`2 ^ 64`; a set of any other is refused and changes nothing. -/
structure KeptOrRefused (r : Registry) (m : Model) (number : m.Val → Int) (lo : Int) : Prop where
  encodes : ∀ v, (∃ text, (r.encode (.structured m) v).1 = .ok text) ↔
    lo ≤ number v ∧ number v < 2 ^ 64
  returns : ∀ v text, (r.encode (.structured m) v).1 = .ok text → ∀ default,
    (r.decode (.structured m) text default).1 = .ok v
  refused : ∀ v, ¬ (lo ≤ number v ∧ number v < 2 ^ 64) →
    ∀ {σ φ : Type} [Store σ] (s : TypedStore σ φ), s.registry = r →
    ∀ key : String, key ≠ "" → ∀ mode, s.set (.structured m) key v mode =
      (.error (.encode m.typeName "number out of range"), s)
  reads : ∀ v default,
    (r.decode (.structured m) (String.ofList (intDigits (number v))) default).1 = .ok v
  /-- Over a store that tells what was last written, an integer that was set is got back. -/
  kept : ∀ {σ φ : Type} [Store σ] {R : σ → Table String Value → Prop}, Store.Tells R →
    ∀ {s : TypedStore σ φ} {values : Table String Value}, s.registry = r → R s.store values →
    ∀ {key : String}, key ≠ "" → ∀ v mode, (s.set (.structured m) key v mode).1 = .ok () →
    ∀ default,
      ((s.set (.structured m) key v mode).2.get (.structured m) key (some default)).1 = .ok v

section Integers

variable {r : Registry} {m : Model} {v : m.Val} {z : Int}

/-- No integer is written as nothing. -/
lemma decimal_ne_empty (z : Int) : String.ofList (intDigits z) ≠ "" := by
  obtain ⟨c, cs, digits, -⟩ := intDigits_head z
  intro empty
  have chars := congrArg String.toList empty
  rw [String.toList_ofList, digits] at chars
  cases chars

/-- What the engine does with the integers of a type decides what a registry does with them that has
no adapter for the type. -/
lemma keptOrRefused {number : m.Val → Int} {lo : Int}
    (bare : r.adapter? (.structured m) = none)
    (least : ∀ v, lo ≤ number v ↔ -2 ^ 63 ≤ number v)
    (encodes : ∀ v, Wired (number v) →
      r.engine.encodeAs (.structured m) v = .ok (String.ofList (intDigits (number v))))
    (refuses : ∀ v, ¬ Wired (number v) →
      r.engine.encodeAs (.structured m) v = .error "number out of range")
    (decodes : ∀ v,
      r.engine.decodeAs (.structured m) (String.ofList (intDigits (number v))) = .ok v) :
    KeptOrRefused r m number lo := by
  have wired (v : m.Val) : lo ≤ number v ∧ number v < 2 ^ 64 ↔ Wired (number v) :=
    and_congr_left' (least v)
  have written (v : m.Val) (h : Wired (number v)) :
      r.encode (.structured m) v = (.ok (String.ofList (intDigits (number v))), {}) := by
    simp only [Registry.encode, bare, encodes v h]
    rfl
  have unwritten (v : m.Val) (h : ¬ Wired (number v)) : r.encode (.structured m) v =
      (.error (.encode m.typeName "number out of range"), {}) := by
    simp only [Registry.encode, bare, refuses v h]
    rfl
  have read (v default : m.Val) :
      r.decode (.structured m) (String.ofList (intDigits (number v))) default = (.ok v, {}) := by
    simp only [Registry.decode, if_neg (decimal_ne_empty _), bare, decodes]
    rfl
  -- encoding, reading back, the refusal of a set, decoding alone, and the store
  refine ⟨fun v => ?_, fun v text h default => ?_, fun v h σ φ _ s registry key named mode => ?_,
    fun v default => by rw [read], fun tells s values registry holds key named v mode done => ?_⟩
  · rw [wired]
    by_cases h : Wired (number v)
    · exact iff_of_true ⟨_, by rw [written v h]⟩ h
    · refine iff_of_false ?_ h
      rintro ⟨text, encoded⟩
      rw [unwritten v h] at encoded
      cases encoded
  · by_cases fits : Wired (number v)
    · rw [written v fits] at h
      cases h
      rw [read]
    · rw [unwritten v fits] at h
      cases h
  · rw [wired] at h
    subst registry
    rw [TypedStore.set, requireKey, if_neg named]
    simp only [toStored, unwritten v h]
    rfl
  · subst registry
    by_cases fits : Wired (number v)
    · exact TypedStore.get_set tells holds named (written v fits) (read v) done
    · rw [TypedStore.set, requireKey, if_neg named] at done
      simp only [toStored, unwritten v fits] at done
      cases done

/-- Where the JSON engine writes integers of 128 bits, without an adapter, it writes exactly those
that JSON holds, from `0` or from `-2 ^ 63` up to `2 ^ 64`, and each is read back as it was. A set
of any other fails as an encoding error, with the typed store as it was; and yet the decimal text of
each one is read, exactly. -/
theorem wide_integers_are_kept_or_refused (engine : r.engine = .json)
    (wide : r.adapter? (.structured .wide) = none)
    (signed : r.adapter? (.structured .signed) = none) :
    KeptOrRefused r .wide (·.value.val) 0 ∧ KeptOrRefused r .signed (·.value.val) (-2 ^ 63) := by
  constructor
  · refine keptOrRefused wide (fun v => ?_) (fun v h => ?_) (fun v h => ?_) (fun v => ?_)
    · have nonneg : 0 ≤ v.value.val := v.value.lo_le
      exact iff_of_true nonneg (by omega)
    · rw [engine]
      exact Engine.json_encode_word (z := v.value) h
    · rw [engine]
      exact Engine.json_encode_word_of_not (z := v.value) h
    · rw [engine]
      exact congrArg (Except.map Wide.mk) (Engine.json_decode_word (.inr rfl) v.value)
  · refine keptOrRefused signed (fun v => Iff.rfl) (fun v h => ?_) (fun v h => ?_) (fun v => ?_)
    · rw [engine]
      exact Engine.json_encode_word (z := v.value) h
    · rw [engine]
      exact Engine.json_encode_word_of_not (z := v.value) h
    · rw [engine]
      exact congrArg (Except.map Signed.mk) (Engine.json_decode_word (.inl rfl) v.value)

/-- In memory, `2 ^ 64 - 1` and `-2 ^ 63` are set and got back. One more and one less are refused,
with the store as it was, and the decimal text of `2 ^ 128 - 1` is read. -/
theorem limits_are_kept_and_passed_limits_refused :
    let top : Wide := ⟨⟨2 ^ 64 - 1, by decide, by decide⟩⟩
    let past : Wide := ⟨⟨2 ^ 64, by decide, by decide⟩⟩
    let greatest : Wide := ⟨⟨2 ^ 128 - 1, by decide, by decide⟩⟩
    let bottom : Signed := ⟨⟨-2 ^ 63, by decide, by decide⟩⟩
    let below : Signed := ⟨⟨-2 ^ 63 - 1, by decide, by decide⟩⟩
    let s : TypedStore MemoryStore MemoryFacility :=
      { store := {}, facility := {}, supply := .sample }
    s.registry.engine = .json ∧ s.registry.adapter? (.structured .wide) = none ∧
      s.registry.adapter? (.structured .signed) = none ∧
    ((s.set (.structured .wide) "k" top .apply).1 = .ok () ∧ ∀ default,
      ((s.set (.structured .wide) "k" top .apply).2.get (.structured .wide) "k"
        (some default)).1 = .ok top) ∧
    ((s.set (.structured .signed) "k" bottom .apply).1 = .ok () ∧ ∀ default,
      ((s.set (.structured .signed) "k" bottom .apply).2.get (.structured .signed) "k"
        (some default)).1 = .ok bottom) ∧
    s.set (.structured .wide) "k" past .apply =
      (.error (.encode Model.wide.typeName "number out of range"), s) ∧
    s.set (.structured .signed) "k" below .apply =
      (.error (.encode Model.signed.typeName "number out of range"), s) ∧
    ∀ default, (s.registry.decode (.structured .wide) "340282366920938463463374607431768211455"
      default).1 = .ok greatest := by
  intro top past greatest bottom below s
  obtain ⟨wide, signed⟩ := wide_integers_are_kept_or_refused (r := s.registry) rfl rfl rfl
  have named : "k" ≠ "" := by decide
  have wideSet : (s.set (.structured .wide) "k" top .apply).1 = .ok () := rfl
  have signedSet : (s.set (.structured .signed) "k" bottom .apply).1 = .ok () := rfl
  refine ⟨rfl, rfl, rfl, ⟨wideSet, ?_⟩, ⟨signedSet, ?_⟩, ?_, ?_, ?_⟩
  · exact wide.kept MemoryStore.tells rfl rfl named top .apply wideSet
  · exact signed.kept MemoryStore.tells rfl rfl named bottom .apply signedSet
  · exact wide.refused past (by decide) s rfl "k" named .apply
  · exact signed.refused below (by decide) s rfl "k" named .apply
  · exact wide.reads greatest

end Integers

/-! ## Floats -/

namespace Engine

/-- A finite float is written as a text that is not empty and that a finite float is read from. -/
lemma json_real_of_finite {x : Float} (finite : x.isFinite = true) :
    ∃ text, json.encode .real x = .ok text ∧ text ≠ "" ∧
      ∃ y : Float, y.isFinite = true ∧ json.decode .real text = .ok y := by
  obtain ⟨y, finite', reads⟩ := reads_real finite
  obtain ⟨⟨c, cs, chars, -⟩, -⟩ := (takesNumber_floatChars finite).choose_spec
  refine ⟨String.ofList (floatChars x), ?_, ?_, y, finite', ?_⟩
  · simp only [json, Shape.toJson, realJson, if_pos finite]
    rfl
  · rw [Ne, String.ofList_eq_empty_iff, chars]
    exact List.cons_ne_nil c cs
  · have read : Reads (Shape.real.read maxDepth) (floatChars x) y := reads
    simp only [json, Shape.parse, String.toList_ofList, readWhole_of_reads read]

/-- A float that is not finite is written as `null`. -/
lemma json_encode_real_of_not_finite {x : Float} (infinite : ¬ x.isFinite = true) :
    json.encode .real x = .ok "null" := by
  simp only [json, Shape.toJson, realJson, if_neg infinite]
  rfl

/-- A null is read as no float. -/
lemma json_decode_real_null :
    json.decode .real "null" = .error "invalid type: null, expected f64 at line 1 column 4" := by
  have parsed : Shape.real.parse "null" = .error (.placed (.invalidType .null "f64") 0) := by
    have read : Shape.real.read maxDepth ['n', 'u', 'l', 'l'] =
      .error (.placed (.invalidType .null "f64") 0) := rfl
    have chars : "null".toList = ['n', 'u', 'l', 'l'] := rfl
    rw [Shape.parse, chars, readWhole, read]
    rfl
  simp only [json, parsed]
  rfl

end Engine

/-- What a get fails with that finds the text `null` where a ratio is to be. -/
def noRatio : Error :=
  .decode "null" Model.ratio.typeName "invalid type: null, expected f64 at line 1 column 4"

section Ratios

variable {r : Registry} {v : Ratio}

/-- A finite ratio is encoded as a text that is decoded as a finite one. -/
lemma encode_ratio_of_finite (engine : r.engine = .json)
    (bare : r.adapter? (.structured .ratio) = none) (finite : v.value.isFinite = true) :
    ∃ text, r.encode (.structured .ratio) v = (.ok text, {}) ∧ text ≠ "" ∧
      ∃ w : Ratio, w.value.isFinite = true ∧
        ∀ default, r.decode (.structured .ratio) text default = (.ok w, {}) := by
  obtain ⟨text, encoded, nonempty, y, finite', decoded⟩ := Engine.json_real_of_finite finite
  refine ⟨text, ?_, nonempty, ⟨y⟩, finite', fun default => ?_⟩
  · have written : r.engine.encodeAs (.structured .ratio) v = .ok text := by
      rw [engine]
      exact encoded
    simp only [Registry.encode, bare, written]
    rfl
  · have read : r.engine.decodeAs (.structured .ratio) text = .ok ⟨y⟩ := by
      rw [engine]
      exact congrArg (Except.map Ratio.mk) decoded
    simp only [Registry.decode, if_neg nonempty, bare, read]
    rfl

/-- An infinite ratio, or one that is no number, is encoded as null. -/
lemma encode_ratio_of_not_finite (engine : r.engine = .json)
    (bare : r.adapter? (.structured .ratio) = none) (infinite : ¬ v.value.isFinite = true) :
    r.encode (.structured .ratio) v = (.ok "null", {}) := by
  have written : r.engine.encodeAs (.structured .ratio) v = .ok "null" := by
    rw [engine]
    exact Engine.json_encode_real_of_not_finite infinite
  simp only [Registry.encode, bare, written]
  rfl

/-- A null is decoded as no ratio. -/
lemma decode_ratio_null (engine : r.engine = .json)
    (bare : r.adapter? (.structured .ratio) = none) (default : Ratio) :
    r.decode (.structured .ratio) "null" default = (.error noRatio, {}) := by
  have read : r.engine.decodeAs (.structured .ratio) "null" =
      .error "invalid type: null, expected f64 at line 1 column 4" := by
    have reads (text : String) : Engine.json.decodeAs (.structured .ratio) text =
        (Engine.json.decode .real text).map Ratio.mk := rfl
    rw [engine, reads, Engine.json_decode_real_null]
    rfl
  have nonempty : "null" ≠ "" := by decide
  simp only [Registry.decode, if_neg nonempty, bare, read]
  rfl

/-- Where the JSON engine writes ratios without an adapter, it refuses none: a finite one is written
as a text from which a finite one is decoded, and any other as `null`, which decoding refuses. So
only the store can refuse to set a ratio, and once set, over a store that tells what was last
written, it is got back as a finite one if it was finite, and else each get fails, whatever the
default. -/
theorem only_finite_ratios_are_read_again (engine : r.engine = .json)
    (bare : r.adapter? (.structured .ratio) = none) (v : Ratio) :
    ∃ text, r.encode (.structured .ratio) v = (.ok text, {}) ∧ text ≠ "" ∧
      (¬ v.value.isFinite = true → text = "null") ∧
      ∀ {σ φ : Type} [Store σ] {R : σ → Table String Value → Prop}, Store.Tells R →
        ∀ {s : TypedStore σ φ} {values : Table String Value}, s.registry = r → R s.store values →
        ∀ {key : String}, key ≠ "" → ∀ mode : SyncMode,
        (s.set (.structured .ratio) key v mode).1 =
          (Store.write s.store key (.string text) mode).1.mapError .store ∧
        ((s.set (.structured .ratio) key v mode).1 = .ok () →
          (v.value.isFinite = true → ∃ w : Ratio, w.value.isFinite = true ∧ ∀ default,
            ((s.set (.structured .ratio) key v mode).2.get (.structured .ratio) key
              (some default)).1 = .ok w) ∧
          (¬ v.value.isFinite = true → ∀ default,
            ((s.set (.structured .ratio) key v mode).2.get (.structured .ratio) key
              (some default)).1 = .error noRatio)) := by
  by_cases finite : v.value.isFinite = true
  · obtain ⟨text, encoded, nonempty, w, finite', decoded⟩ :=
      encode_ratio_of_finite engine bare finite
    refine ⟨text, encoded, nonempty, fun h => absurd finite h, ?_⟩
    rintro σ φ _ R tells s values rfl holds key named mode
    refine ⟨by rw [TypedStore.set_of_encode named encoded], fun done => ⟨fun _ => ?_, ?_⟩⟩
    · refine ⟨w, finite', fun default => ?_⟩
      rw [TypedStore.get_of_set tells holds named encoded done, decoded]
    · exact fun h => absurd finite h
  · have encoded := encode_ratio_of_not_finite engine bare finite
    refine ⟨"null", encoded, by decide, fun _ => rfl, ?_⟩
    rintro σ φ _ R tells s values rfl holds key named mode
    refine ⟨by rw [TypedStore.set_of_encode named encoded], fun done => ⟨?_, fun _ default => ?_⟩⟩
    · exact fun h => absurd h finite
    · rw [TypedStore.get_of_set tells holds named encoded done, decode_ratio_null engine bare]

/-- In memory, `1.5` is set and a finite ratio got back; minus infinity is set, and no get gives
it. -/
theorem infinite_ratio_is_set_and_not_read :
    let half : Ratio := ⟨1.5⟩
    let infinite : Ratio := ⟨-1.0 / 0.0⟩
    let s : TypedStore MemoryStore MemoryFacility :=
      { store := {}, facility := {}, supply := .sample }
    half.value.isFinite = true ∧ ¬ infinite.value.isFinite = true ∧
    (s.set (.structured .ratio) "k" half .apply).1 = .ok () ∧
    (∃ w : Ratio, w.value.isFinite = true ∧ ∀ default,
      ((s.set (.structured .ratio) "k" half .apply).2.get (.structured .ratio) "k"
        (some default)).1 = .ok w) ∧
    (s.set (.structured .ratio) "k" infinite .apply).1 = .ok () ∧
    ∀ default, ((s.set (.structured .ratio) "k" infinite .apply).2.get (.structured .ratio) "k"
      (some default)).1 = .error noRatio := by
  intro half infinite s
  have finite : half.value.isFinite = true := by decide
  have notFinite : ¬ infinite.value.isFinite = true := by decide
  have named : "k" ≠ "" := by decide
  obtain ⟨_, -, -, -, stored⟩ :=
    only_finite_ratios_are_read_again (r := s.registry) rfl rfl half
  obtain ⟨result, returned⟩ := stored MemoryStore.tells (s := s) rfl rfl named .apply
  obtain ⟨_, -, -, -, stored'⟩ :=
    only_finite_ratios_are_read_again (r := s.registry) rfl rfl infinite
  obtain ⟨result', returned'⟩ := stored' MemoryStore.tells (s := s) rfl rfl named .apply
  exact ⟨finite, notFinite, result, (returned result).1 finite, result',
    (returned' result').2 notFinite⟩

/-- A ratio that is no number is not refused when it is set in memory, though JSON does not hold it,
and a get fails as it decodes what was written. -/
theorem set_takes_what_get_refuses :
    ∃ (s : TypedStore MemoryStore MemoryFacility) (v : Ratio), v.value.isNaN = true ∧
      s.registry.engine = .json ∧ s.registry.adapter? (.structured .ratio) = none ∧
      (s.set (.structured .ratio) "k" v .apply).1 = .ok () ∧
      ((s.set (.structured .ratio) "k" v .apply).2.get (.structured .ratio) "k"
        (some ⟨1⟩)).1 = .error noRatio := by
  let s : TypedStore MemoryStore MemoryFacility :=
    { store := {}, facility := {}, supply := .sample }
  have named : "k" ≠ "" := by decide
  have encoded : s.registry.encode (.structured .ratio) ⟨0.0 / 0.0⟩ = (.ok "null", {}) :=
    encode_ratio_of_not_finite rfl rfl (by decide)
  have done : (s.set (.structured .ratio) "k" ⟨0.0 / 0.0⟩ .apply).1 = .ok () := by
    rw [TypedStore.set_of_encode named encoded]
    rfl
  refine ⟨s, ⟨0.0 / 0.0⟩, by decide, rfl, rfl, done, ?_⟩
  rw [TypedStore.get_of_set MemoryStore.tells rfl named encoded done, decode_ratio_null rfl rfl]

end Ratios

end Preferences
