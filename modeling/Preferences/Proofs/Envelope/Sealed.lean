import Preferences.Envelope.Basic
import Preferences.Proofs.Files.Disk
import Preferences.Proofs.Text.Base64

/-!
# Sealed texts opened

The parts of a sealed text are read back from it, so the keypair it is for derives the key it was
sealed with and opens it, and a keypair that derives another key does not. Main statements:
`openWith_own` and `openWith_other`.
-/

namespace Preferences

namespace Sealed

/-- What is sealed is found again in its bytes. -/
lemma ofBytes_toBytes {s : Sealed} (nonempty : s.ciphertext ≠ []) : ofBytes s.toBytes = .ok s := by
  obtain ⟨⟨ephemeral, hk⟩, ⟨nonce, hn⟩, ciphertext⟩ := s
  have header : (ephemeral ++ nonce).length = headerSize := by
    rw [List.length_append, hk, hn]
    rfl
  have long : headerSize < (ephemeral ++ nonce ++ ciphertext).length := by
    rw [List.length_append, header]
    exact Nat.lt_add_of_pos_right (List.length_pos_iff.2 nonempty)
  have first : (ephemeral ++ nonce ++ ciphertext).take keySize = ephemeral := by
    rw [← hk, List.append_assoc, List.take_left]
  have second : ((ephemeral ++ nonce ++ ciphertext).drop keySize).take nonceSize = nonce := by
    rw [← hk, List.append_assoc, List.drop_left, ← hn, List.take_left]
  have third : (ephemeral ++ nonce ++ ciphertext).drop headerSize = ciphertext := by
    rw [← header, List.drop_left]
  rw [toBytes, ofBytes, dif_pos long]
  simp only [first, second, third]

/-- The parts are read back from the text. -/
lemma parse_render {s : Sealed} (nonempty : s.ciphertext ≠ []) : parse s.render = .ok s := by
  rw [parse, render, Base64.decode_encode]
  exact ofBytes_toBytes nonempty

/-- No sealed text is empty. -/
lemma render_ne_empty {s : Sealed} (nonempty : s.ciphertext ≠ []) : s.render ≠ "" := by
  intro empty
  have parsed := parse_render nonempty
  rw [empty] at parsed
  cases parsed

end Sealed

namespace Suite

/-- The key of a text that an ephemeral key seals for a keypair. -/
def keyFor (s : Suite) (recipient ephemeral : SecretKey) : Bytes :=
  s.textKey (s.agree ephemeral (s.publicOf recipient)) (s.publicOf ephemeral) (s.publicOf recipient)

/-- Two keypairs agree on the same from both sides. -/
def Agrees (s : Suite) : Prop := ∀ a b, s.agree a (s.publicOf b) = s.agree b (s.publicOf a)

/-- What is taken for granted of a cipher suite: two keypairs agree on the same from both sides, and
what was sealed with one derived key is not opened with another. -/
structure Ideal (s : Suite) : Prop where
  agree_comm : ∀ a b, s.agree a (s.publicOf b) = s.agree b (s.publicOf a)
  open_other : ∀ recipient other ephemeral nonce text,
    s.keyFor other ephemeral ≠ s.keyFor recipient ephemeral →
    s.openText? (s.keyFor other ephemeral) nonce
      (s.sealText (s.keyFor recipient ephemeral) nonce text) = none

/-- Of so many random choices, no two give keypairs that derive the same key with one of the
ephemeral keys. -/
def Independent (s : Suite) (chance : Nat → Chance) (draws : Nat) : Prop :=
  ∀ i < draws, ∀ j < draws, ∀ e < draws, i ≠ j →
    s.keyFor (chance i).keypairSecret (chance e).ephemeral ≠
      s.keyFor (chance j).keypairSecret (chance e).ephemeral

/-! ### A suite that is ideal -/

/-- The text in front of a seal, if the seal is the key. -/
def untag? (key bs : Bytes) : Option Bytes :=
  let size := bs.length - key.length
  if bs.drop size = key then some ((bs.take size).drop 1) else none

/-- What is tagged with a key is found with that key alone. -/
lemma untag?_append {key other : Bytes} (size : other.length = key.length) (text : Bytes) :
    untag? other (0 :: text ++ key) = if key = other then some text else none := by
  have front : (0 :: text ++ key : Bytes).length - other.length = (0 :: text : Bytes).length := by
    rw [List.length_append, size, Nat.add_sub_cancel]
  simp only [untag?, front, List.drop_left, List.take_left]
  rfl

/-- A suite whose seal is the key itself, behind the text. -/
def tagged : Suite where
  publicOf k := ⟨k.bytes, k.size_eq⟩
  agree a b := List.zipWith (· ^^^ ·) a.bytes b.bytes
  derive salt _ _ := salt.drop keySize
  sealText key _ text := 0 :: text ++ key
  openText? key _ bs := untag? key bs
  sealText_ne_nil _ _ _ := List.cons_ne_nil _ _
  open_seal _ _ text := (untag?_append rfl text).trans (if_pos rfl)

/-- The tagged suite has the bytes of the recipient's secret for a key. -/
lemma tagged_keyFor (a e : SecretKey) : tagged.keyFor a e = a.bytes := by
  show (e.bytes ++ a.bytes).drop keySize = a.bytes
  rw [← e.size_eq, List.drop_left]

/-- The tagged suite is ideal, as far as its keys tell secrets apart. -/
lemma tagged_ideal : tagged.Ideal where
  agree_comm a b := List.zipWith_comm_of_comm fun x y => UInt8.xor_comm x y
  open_other recipient other ephemeral nonce text apart := by
    rw [tagged_keyFor, tagged_keyFor] at apart ⊢
    have size : other.bytes.length = recipient.bytes.length := by
      rw [other.size_eq, recipient.size_eq]
    exact (untag?_append size text).trans (if_neg apart.symm)

/-! ### Opening -/

variable {s : Suite} {recipient other ephemeral : SecretKey} {nonce : Nonce} {text : String}

/-- What is sealed for a recipient is sealed with the key that both secrets make. -/
lemma sealFor_eq (s : Suite) (recipient ephemeral : SecretKey) (nonce : Nonce) (text : String) :
    s.sealFor (s.publicOf recipient) ephemeral nonce text =
      ⟨s.publicOf ephemeral, nonce, s.sealText (s.keyFor recipient ephemeral) nonce (utf8 text)⟩ :=
  rfl

/-- A keypair derives the same key from its secret half and the ephemeral public key. -/
lemma textKey_keypair (agrees : s.Agrees) (recipient ephemeral : SecretKey) :
    s.textKey (s.agree (s.keypair recipient).secretKey (s.publicOf ephemeral))
      (s.publicOf ephemeral) (s.keypair recipient).publicKey = s.keyFor recipient ephemeral := by
  rw [keyFor, keypair, agrees]

/-- The parts of a sealed text reach the keypair that is to open it. -/
lemma openWith_sealFor (pair : Keypair) :
    Envelope.openWith s pair (s.sealFor (s.publicOf recipient) ephemeral nonce text).render =
      s.openSealed pair (s.sealFor (s.publicOf recipient) ephemeral nonce text) := by
  have nonempty : (s.sealFor (s.publicOf recipient) ephemeral nonce text).ciphertext ≠ [] :=
    s.sealText_ne_nil _ _ _
  simp only [Envelope.openWith, Sealed.parse_render nonempty]
  rfl

/-- A sealed text is opened with the keypair it is for. -/
theorem openWith_own (agrees : s.Agrees) :
    Envelope.openWith s (s.keypair recipient)
      (s.sealFor (s.publicOf recipient) ephemeral nonce text).render = .ok text := by
  rw [openWith_sealFor, openSealed, sealFor_eq]
  simp only [textKey_keypair agrees, s.open_seal, Utf8.decode_utf8]

/-- A sealed text is not opened with a keypair that has another key for it. -/
theorem openWith_other (ideal : s.Ideal)
    (apart : s.keyFor other ephemeral ≠ s.keyFor recipient ephemeral) :
    Envelope.openWith s (s.keypair other)
      (s.sealFor (s.publicOf recipient) ephemeral nonce text).render = .error .rejected := by
  rw [openWith_sealFor, openSealed, sealFor_eq]
  simp only [textKey_keypair ideal.agree_comm, ideal.open_other _ _ _ _ _ apart]

end Suite

/-! ## New envelopes -/

namespace Envelope

variable {φ : Type} [KeyFacility φ] {suite : Suite} {c : Chance} {f f' : φ} {e : Envelope}
  {a text sealedText : String} {handle : KeyHandle}

/-- A new envelope seals for the keypair that the facility provides its alias with. -/
lemma encrypt_new
    (h : Envelope.encrypt suite c ⟨some a, none, false⟩ f text = (.ok sealedText, e, f')) :
    ∃ handle, provision suite c a f = (.ok handle, f') ∧
      sealedText = (suite.sealFor handle.pair.publicKey c.ephemeral c.nonce text).render := by
  rw [Envelope.encrypt] at h
  split at h
  · cases h
  · simp only [Envelope.ready] at h
    rcases provided : provision suite c a f with ⟨(fault | _) | handle, f₁⟩
    · rw [provided] at h
      cases h
    · rw [provided] at h
      cases h
    · rw [provided] at h
      cases h
      exact ⟨handle, rfl, rfl⟩

/-- A new envelope opens texts with the keypair that the facility provides its alias with. -/
lemma decrypt_new (provided : provision suite c a f = (.ok handle, f'))
    (nonempty : sealedText ≠ "") :
    (Envelope.decrypt suite c ⟨some a, none, false⟩ f sealedText).1 =
      (Envelope.openWith suite handle.pair sealedText).mapError fun fault =>
        .error (.cipher fault) := by
  have ready : Envelope.ready suite c ⟨some a, none, false⟩ f =
      (.ok handle, ⟨some a, some handle, false⟩, f') := by
    simp only [Envelope.ready, provided]
    rfl
  rw [Envelope.decrypt, if_neg nonempty, ready]
  dsimp only
  cases Envelope.openWith suite handle.pair sealedText with
  | error fault => rfl
  | ok text => rfl

end Envelope

end Preferences
