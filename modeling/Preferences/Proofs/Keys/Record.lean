import Preferences.Cipher.Suite
import Preferences.Proofs.Shape.Container
import Preferences.Proofs.Text.Base64

/-!
# Keypair records read back

Both halves of a keypair are read back from the text that a facility keeps, whatever the alias and
the window of the record are, and at any time. The window is read back as a clock shows its ends.
Main statements: `decodePublic_render`, `decodeSecret_render` and `keypair_record_returns`.
-/

namespace Preferences

open Json

section Windows

variable {l : Layout} {level : Nat}

/-- An instant is read from its text as a clock tells it. -/
lemma reads_instant (t : Instant) : Reads (Shape.instant.read (maxDepth - 1))
    ((string (String.ofList (Timestamp.render t))).render l level) t.told := reads_instantText t

/-- The window between the instants that a clock shows for its ends. -/
def Validity.told (v : Validity) : Validity := ⟨v.notBefore.told, v.notAfter.told⟩

/-- A window is told as it is exactly if both its ends are on a clock. -/
lemma Validity.told_eq_self_iff {v : Validity} :
    v.told = v ↔ v.notBefore.OnClock ∧ v.notAfter.OnClock := by
  rw [← Instant.told_eq_self_iff, ← Instant.told_eq_self_iff]
  exact Validity.mk.injEq _ _ _ _ ▸ Iff.rfl

/-- A window is read from its text as a clock tells it. -/
lemma Validity.reads_toJson (plain : l.Plain) (v : Validity) :
    Reads ((Shaped.shape Validity).read maxDepth) (v.toJson.render l level)
      (Shaped.toVal v.told) := by
  refine reads_record plain
    (.fill plain (.here (reads_instant _)) <|
      .fill plain (.there ?_ (.here (reads_instant _))) .nil)
    fun cs => rfl
  decide

/-- From its text a window is read as a clock shows its ends. -/
theorem Validity.parse_compact (v : Validity) : Validity.parse v.toJson.compact = .ok v.told := by
  have whole : (Shaped.shape Validity).parse v.toJson.compact = .ok (Shaped.toVal v.told) := by
    rw [Shape.parse, compact, String.toList_ofList]
    exact readWhole_of_reads (reads_toJson Layout.compact_plain v)
  rw [parse, whole]
  rfl

end Windows

namespace KeypairRecord

variable {l : Layout} {level : Nat}

/-- The record with its window as a clock shows its ends. -/
def told (r : KeypairRecord) : KeypairRecord :=
  { r with notBefore := r.notBefore.told, notAfter := r.notAfter.told }

/-- A record is read from its text, with its window as a clock tells it. -/
lemma reads_toJson (plain : l.Plain) (r : KeypairRecord) :
    Reads ((Shaped.shape KeypairRecord).read maxDepth) (r.toJson.render l level)
      (Shaped.toVal r.told) := by
  have text (s : String) : Reads (Shape.text.read (maxDepth - 1))
      ((string s).render l (level + 1)) s := reads_text s
  refine reads_record plain
    (.fill plain (.here (text _)) <|
      .fill plain (.there ?_ (.here (text _))) <|
      .fill plain (.there ?_ (.there ?_ (.here (text _)))) <|
      .fill plain (.there ?_ (.there ?_ (.there ?_ (.here (reads_instant _))))) <|
      .fill plain (.there ?_ (.there ?_ (.there ?_ (.there ?_ (.here (reads_instant _)))))) .nil)
    fun cs => rfl
  all_goals decide

/-- From its text a record is read back, with its window as a clock shows the ends. -/
theorem parse_render (keyAlias : String) (r : KeypairRecord) :
    parse keyAlias r.render = .ok r.told := by
  have whole : (Shaped.shape KeypairRecord).parse r.render = .ok (Shaped.toVal r.told) := by
    rw [Shape.parse, render, compact, String.toList_ofList]
    exact readWhole_of_reads (reads_toJson Layout.compact_plain r)
  rw [parse, whole]
  rfl

end KeypairRecord

/-- The bytes of a key are found again in their text. -/
lemma decodeKey_encode (keyAlias : String) {bs : Bytes} (size : bs.length = keySize) :
    decodeKey keyAlias (Base64.encode bs) = .ok ⟨bs, size⟩ := by
  rw [decodeKey, Base64.decode_encode]
  exact dif_pos size

/-- The public half of a keypair is read back from its record. -/
theorem decodePublic_render (asked keyAlias : String) (validity : Validity) (pair : Keypair) :
    decodePublic asked (KeypairRecord.make keyAlias validity pair).render = .ok pair.publicKey := by
  rw [decodePublic, KeypairRecord.parse_render]
  simp only [bind, Except.bind, KeypairRecord.make, KeypairRecord.told,
    decodeKey_encode asked pair.publicKey.size_eq]
  rfl

/-- The secret half of a keypair is read back from its record. -/
theorem decodeSecret_render (asked keyAlias : String) (validity : Validity) (pair : Keypair) :
    decodeSecret asked (KeypairRecord.make keyAlias validity pair).render = .ok pair.secretKey := by
  rw [decodeSecret, KeypairRecord.parse_render]
  simp only [bind, Except.bind, KeypairRecord.make, KeypairRecord.told,
    decodeKey_encode asked pair.secretKey.size_eq]
  rfl

/-! ## Reading at a time -/

/-- The window of a record. -/
def KeypairRecord.validity (r : KeypairRecord) : Validity := ⟨r.notBefore, r.notAfter⟩

/-- The public half in a text kept for an alias, read at an instant, and whether it is noted that
the instant is outside the window of the record. -/
def readPublic (now : Instant) (keyAlias text : String) : Except KeyError PublicKey × Bool :=
  match KeypairRecord.parse keyAlias text with
  | .error e => (.error e, false)
  | .ok record =>
    ((decodeKey keyAlias record.publicText).map fun ⟨bs, size⟩ => ⟨bs, size⟩,
      !record.validity.contains now)

/-- The time never decides what is read, be the text a record or not. -/
lemma readPublic_fst (now : Instant) (keyAlias text : String) :
    (readPublic now keyAlias text).1 = decodePublic keyAlias text := by
  rw [readPublic, decodePublic]
  cases KeypairRecord.parse keyAlias text with
  | error e => rfl
  | ok record =>
    simp only [bind, Except.bind]
    cases decodeKey keyAlias record.publicText <;> rfl

/-- The text kept for a new keypair is read as the record of its alias and its window, the alias to
the letter and the window to the nanosecond, as a clock shows it: that is the window itself exactly
if a clock shows both its ends. The secret half is the secret that the record was made of, and the
public half is the public key of that secret, at whatever time it is read; only the note that is
made then depends on the time. A window alone is read back from its text as well. -/
theorem keypair_record_returns (keyAlias asked : String) (secret : SecretKey) (window : Validity) :
    let text := (KeypairRecord.make keyAlias window (Suite.standard.keypair secret)).render
    KeypairRecord.parse asked text = .ok
      { subject := "CN=" ++ keyAlias ++ ", O=prefs-helper"
        publicText := Base64.encode (X25519.publicOf secret).bytes
        secretText := Base64.encode secret.bytes
        notBefore := window.told.notBefore
        notAfter := window.told.notAfter } ∧
    decodeSecret asked text = .ok secret ∧
    decodePublic asked text = .ok (X25519.publicOf secret) ∧
    (∀ now,
      readPublic now asked text = (.ok (X25519.publicOf secret), !window.told.contains now)) ∧
    Validity.parse window.toJson.compact = .ok window.told ∧
    (window.told = window ↔ window.notBefore.OnClock ∧ window.notAfter.OnClock) := by
  intro text
  have record : KeypairRecord.parse asked text = .ok
      (KeypairRecord.make keyAlias window (Suite.standard.keypair secret)).told :=
    KeypairRecord.parse_render asked _
  have publicHalf : decodePublic asked text = .ok (X25519.publicOf secret) :=
    decodePublic_render asked keyAlias window _
  have note (now : Instant) : (readPublic now asked text).2 = !window.told.contains now := by
    rw [readPublic, record]
    rfl
  refine ⟨record, decodeSecret_render asked keyAlias window _, publicHalf, fun now => ?_,
    Validity.parse_compact window, Validity.told_eq_self_iff⟩
  exact Prod.ext ((readPublic_fst now asked text).trans publicHalf) (note now)

/-- A year from between two seconds, which starts a second and a third after four seconds past a
minute, is kept as one that starts a third after five seconds past it. -/
theorem year_from_between_seconds_is_moved :
    let first : Date :=
      ⟨2024, 3, 1, by decide, by decide, by decide, by decide, by decide, by decide⟩
    let last : Date :=
      ⟨2025, 3, 1, by decide, by decide, by decide, by decide, by decide, by decide⟩
    let window : Validity := ⟨⟨first, 86164, 1333333333, by decide, by decide⟩,
      ⟨last, 86164, 1333333333, by decide, by decide⟩⟩
    let moved : Validity := ⟨⟨first, 86165, 333333333, by decide, by decide⟩,
      ⟨last, 86165, 333333333, by decide, by decide⟩⟩
    Validity.oneYearFrom? window.notBefore = some window ∧
    Validity.parse window.toJson.compact = .ok moved ∧
    (∀ pair : Keypair, ∃ record,
      KeypairRecord.parse "a" (KeypairRecord.make "a" window pair).render = .ok record ∧
      record.validity = moved) ∧
    moved ≠ window := by
  intro first last window moved
  have told : window.told = moved := by decide
  refine ⟨by decide, ?_, fun pair => ⟨_, KeypairRecord.parse_render "a" _, told⟩, by decide⟩
  rw [Validity.parse_compact, told]

end Preferences
