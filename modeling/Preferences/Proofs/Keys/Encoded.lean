import Preferences.Proofs.Keys.Record
import Preferences.Proofs.Text.Sextets

/-!
# Texts of keys

A facility keeps a half of a keypair as base64. A key is read from one text only, the one that the
rule of padded base64 gives its bytes, and every other text is corrupt: because it is no base64, or
because its bytes are not as many as a key has. Main statement: `key_is_read_from_its_one_text`.
-/

namespace Preferences

open Base64

/-- The rule for the text of a key: forty-three symbols and a padding sign, where the symbols are
the digits, of six bits each, of the key's number with two zero bits behind it. -/
def KeyText (key : Bytes) (text : String) : Prop :=
  key.length = 32 ∧ ∃ ns, ns.length = 43 ∧ (∀ n ∈ ns, n < 64) ∧
    numeral 64 ns = 4 * numeral 256 (key.map UInt8.toNat) ∧ text.toList = ns.map symbol ++ ['=']

variable {keyAlias text : String} {key : Bytes}

/-- The rule gives a key its base64 text. -/
lemma keyText_iff : KeyText key text ↔ key.length = keySize ∧ text = encode key := by
  constructor
  · rintro ⟨size, ns, length, small, value, shape⟩
    have written : Written key ns 2 1 := by
      refine ⟨small, ?_, by decide, value, ?_, by decide⟩
      · rw [length, size]
      · rw [length]
        exact ⟨11, rfl⟩
    exact ⟨size, written_iff.2 ⟨ns, 2, 1, written, shape⟩⟩
  · rintro ⟨size, same⟩
    obtain ⟨ns, unused, pads, written, shape⟩ := written_iff.1 same
    have bits := written.bits
    have few := written.few
    have filled := written.filled
    have short := written.short
    rw [size, keySize] at bits
    obtain rfl : unused = 2 := by omega
    have length : ns.length = 43 := by omega
    obtain rfl : pads = 1 := by omega
    exact ⟨size, ns, length, written.small, written.value, shape⟩

/-- What comes of a text: a key, bytes that are not as many as a key has, or a fault of the
encoding. -/
lemma decodeKey_cases (keyAlias text : String) :
    (∃ key, text = encode key.1 ∧ decodeKey keyAlias text = .ok key) ∨
    (∃ bs, bs.length ≠ keySize ∧ text = encode bs ∧
      decodeKey keyAlias text = .error (.corrupt keyAlias (.length bs.length))) ∨
    ∃ fault, (∀ bs, text ≠ encode bs) ∧
      decodeKey keyAlias text = .error (.corrupt keyAlias (.encoding fault)) := by
  rw [decodeKey]
  cases read : decode text with
  | error fault =>
    refine .inr (.inr ⟨fault, fun bs same => ?_, rfl⟩)
    rw [decode_eq_ok_iff.2 same] at read
    cases read
  | ok bs =>
    have same := decode_eq_ok_iff.1 read
    by_cases size : bs.length = keySize
    · exact .inl ⟨⟨bs, size⟩, same, dif_pos size⟩
    · exact .inr (.inl ⟨bs, size, same, dif_neg size⟩)

/-- A key is decoded exactly from the text that it is encoded as. -/
lemma decodeKey_eq_ok_iff {key : { bs : Bytes // bs.length = keySize }} :
    decodeKey keyAlias text = .ok key ↔ text = encode key.1 := by
  constructor
  · intro read
    rcases decodeKey_cases keyAlias text with ⟨_, same, found⟩ | ⟨_, _, _, long⟩ | ⟨_, _, wrong⟩
    · cases read.symm.trans found
      exact same
    · cases read.symm.trans long
    · cases read.symm.trans wrong
  · rintro rfl
    exact decodeKey_encode keyAlias key.2

/-- A text is read as a key if and only if the rule gives it to the key, which is then of 32 bytes
and has the text for its base64 text. Every other text, whatever its length, is corrupt for the
alias that it was asked for. So no two texts are read as one key. -/
theorem key_is_read_from_its_one_text (keyAlias text : String) :
    (∀ key, (decodeKey keyAlias text).map Subtype.val = .ok key ↔ KeyText key text) ∧
    (∀ key, KeyText key text ↔ key.length = 32 ∧ text = encode key) ∧
    ((¬∃ key, KeyText key text) →
      ∃ corruption, decodeKey keyAlias text = .error (.corrupt keyAlias corruption)) ∧
    ∀ asked other key, decodeKey keyAlias text = .ok key → decodeKey asked other = .ok key →
      text = other := by
  refine ⟨fun key => ?_, fun key => keyText_iff, fun foreign => ?_,
    fun asked other key read read' =>
      (decodeKey_eq_ok_iff.1 read).trans (decodeKey_eq_ok_iff.1 read').symm⟩
  · rw [keyText_iff]
    constructor
    · intro read
      rcases decoded : decodeKey keyAlias text with _ | ⟨bs, size⟩
      · rw [decoded] at read
        cases read
      · rw [decoded] at read
        cases read
        exact ⟨size, decodeKey_eq_ok_iff.1 decoded⟩
    · rintro ⟨size, same⟩
      have decoded : decodeKey keyAlias text = .ok ⟨key, size⟩ := decodeKey_eq_ok_iff.2 same
      rw [decoded]
      rfl
  · rcases decodeKey_cases keyAlias text with ⟨key, same, -⟩ | ⟨_, _, _, length⟩ | ⟨_, _, encoding⟩
    · exact absurd ⟨key.1, keyText_iff.2 ⟨key.2, same⟩⟩ foreign
    · exact ⟨_, length⟩
    · exact ⟨_, encoding⟩

/-- The bytes from zero on have one text. With a bit set behind them it is corrupt. -/
theorem counting_key_has_one_text :
    let key := (List.range 32).map UInt8.ofNat
    let text := "AAECAwQFBgcICQoLDA0ODxAREhMUFRYXGBkaGxwdHh8="
    let garbled := "AAECAwQFBgcICQoLDA0ODxAREhMUFRYXGBkaGxwdHh9="
    KeyText key text ∧ (decodeKey "A" text).map Subtype.val = .ok key ∧
      (¬∃ key, KeyText key garbled) ∧
      ∃ corruption, decodeKey "A" garbled = .error (.corrupt "A" corruption) := by
  intro key text garbled
  have same : text = encode key := by decide +kernel
  have fault : decode garbled = .error (.invalidLastSymbol 42 57) := by decide +kernel
  obtain ⟨read, rule, -, -⟩ := key_is_read_from_its_one_text "A" text
  obtain ⟨-, rule', corrupt, -⟩ := key_is_read_from_its_one_text "A" garbled
  have written : KeyText key text := (rule key).2 ⟨rfl, same⟩
  have foreign : ¬∃ key, KeyText key garbled := by
    rintro ⟨other, given⟩
    cases fault.symm.trans (decode_eq_ok_iff.2 ((rule' other).1 given).2)
  exact ⟨written, (read key).2 written, foreign, corrupt foreign⟩

end Preferences
