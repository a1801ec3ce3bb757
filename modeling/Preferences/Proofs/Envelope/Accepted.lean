import Preferences.Keys.Memory
import Preferences.Proofs.Envelope.Sealed

/-!
# The texts that are opened

Every reader on the way from a sealed text to its contents accepts just what its writer makes: the
base64 text of the parts, the parts of their bytes, and the UTF-8 of a text. So an envelope with a
keypair at hand opens a text if and only if the text is written in the one way and its ciphertext
opens under the key derived for it, and refuses every other text as the cipher's failure. Main
statement: `Envelope.decrypt_accepts_sealed_texts_only`.
-/

namespace Preferences

namespace Sealed

variable {s t : Sealed}

/-- Bytes have parts where they are those of the parts and something is left for the ciphertext. -/
lemma ofBytes_eq_ok_iff {bs : Bytes} : ofBytes bs = .ok s ↔ bs = s.toBytes ∧ s.ciphertext ≠ [] := by
  constructor
  · intro read
    rw [ofBytes] at read
    split at read
    next long =>
      cases read
      constructor
      · have joined : bs.take keySize ++ (bs.drop keySize).take nonceSize = bs.take headerSize := by
          rw [headerSize, List.take_add]
        simp only [toBytes, joined, List.take_append_drop]
      · exact List.ne_nil_of_length_pos (by rw [List.length_drop]; omega)
    next => cases read
  · rintro ⟨rfl, nonempty⟩
    exact ofBytes_toBytes nonempty

/-- A text is parsed as sealed exactly if it is what the sealed text is written as. -/
lemma parse_eq_ok_iff {text : String} :
    parse text = .ok s ↔ text = s.render ∧ s.ciphertext ≠ [] := by
  constructor
  · intro read
    rw [parse] at read
    split at read
    next bs decoded =>
      obtain ⟨rfl, nonempty⟩ := ofBytes_eq_ok_iff.1 read
      exact ⟨Base64.decode_eq_ok_iff.1 decoded, nonempty⟩
    next => cases read
  · rintro ⟨rfl, nonempty⟩
    exact parse_render nonempty

end Sealed

namespace Suite

variable {suite : Suite} {pair : Keypair}

/-- A sealed text has the contents that its ciphertext opens to under the key derived for it. -/
lemma openSealed_eq_ok_iff {s : Sealed} {text : String} :
    suite.openSealed pair s = .ok text ↔
      suite.openText? (suite.textKey (suite.agree pair.secretKey s.ephemeral) s.ephemeral
        pair.publicKey) s.nonce s.ciphertext = some (utf8 text) := by
  rw [openSealed]
  cases suite.openText? (suite.textKey (suite.agree pair.secretKey s.ephemeral) s.ephemeral
    pair.publicKey) s.nonce s.ciphertext with
  | none => simp only [reduceCtorEq]
  | some bs =>
    rw [Option.some.injEq, ← Utf8.decode_eq_ok_iff]
    dsimp only
    cases Utf8.decode bs with
    | ok found =>
      dsimp only
      rw [Except.ok.injEq, Except.ok.injEq]
    | error fault => simp only [reduceCtorEq]

end Suite

namespace Envelope

variable {φ : Type} [KeyFacility φ] {suite : Suite} {chance : Chance} {e : Envelope} {f : φ}
  {handle : KeyHandle}

/-- A text is opened with a keypair exactly if it is parsed and its parts are. -/
lemma openWith_eq_ok_iff {pair : Keypair} {sealedText text : String} :
    openWith suite pair sealedText = .ok text ↔
      ∃ s, Sealed.parse sealedText = .ok s ∧ suite.openSealed pair s = .ok text :=
  bind_eq_ok

/-- With a keypair at hand nothing is looked up. -/
lemma decrypt_of_hand (healthy : e.poisoned = false) (hand : e.key = some handle)
    {sealedText : String} (nonempty : sealedText ≠ "") :
    e.decrypt suite chance f sealedText =
      ((openWith suite handle.pair sealedText).mapError fun fault => .error (.cipher fault),
        e, f) := by
  have ready : e.ready suite chance f = (.ok handle, e, f) := by
    rw [ready, healthy, hand]
    rfl
  rw [decrypt, if_neg nonempty, ready]
  dsimp only
  cases openWith suite handle.pair sealedText with
  | ok text => rfl
  | error fault => rfl

/-- With the keypair at hand to decrypt is to open with it. -/
lemma decrypt_eq_ok_iff (healthy : e.poisoned = false) (hand : e.key = some handle)
    {sealedText text : String} : (e.decrypt suite chance f sealedText).1 = .ok text ↔
      openWith suite handle.pair sealedText = .ok text := by
  by_cases empty : sealedText = ""
  · subst empty
    exact iff_of_false nofun nofun
  · rw [decrypt_of_hand healthy hand empty]
    cases openWith suite handle.pair sealedText with
    | ok found => exact ⟨fun h => Except.ok.inj h ▸ rfl, fun h => Except.ok.inj h ▸ rfl⟩
    | error fault => exact iff_of_false nofun nofun

/-- A keypair that was looked up is at hand. -/
lemma key_of_ready {e' : Envelope} {f' : φ} (h : e.ready suite chance f = (.ok handle, e', f')) :
    e'.key = some handle := by
  rw [ready] at h
  split at h
  · cases h
  · split at h
    next hand =>
      cases h
      exact hand
    next =>
      split at h
      · cases h
      · split at h <;> cases h
        rfl

/-- Only an envelope that is not poisoned looks a keypair up. -/
lemma healthy_of_ready {e' : Envelope} {f' : φ}
    (h : e.ready suite chance f = (.ok handle, e', f')) : e'.poisoned = false := by
  rw [ready] at h
  split at h
  · cases h
  next healthy =>
    rw [Bool.not_eq_true] at healthy
    split at h
    · cases h
      exact healthy
    · split at h
      · cases h
      · split at h <;> cases h
        exact healthy

/-- What an envelope seals is sealed for the keypair that it then has at hand. -/
lemma encrypt_eq_ok {text sealedText : String}
    (h : (e.encrypt suite chance f text).1 = .ok sealedText) :
    ∃ handle, (e.encrypt suite chance f text).2.1.key = some handle ∧ sealedText =
      (suite.sealFor handle.pair.publicKey chance.ephemeral chance.nonce text).render := by
  rw [encrypt] at h ⊢
  split at h
  · cases h
  next given =>
    rw [if_neg given]
    rcases looked : e.ready suite chance f with ⟨stop | handle, e', f'⟩
    · rw [looked] at h
      cases h
    · rw [looked] at h
      cases h
      exact ⟨handle, key_of_ready looked, rfl⟩

/-- With a keypair at hand, an envelope opens a text that is not empty just where the text is the
base64 of an ephemeral key, a nonce and a ciphertext that is not empty, and the ciphertext opens
under the key derived for them; the contents are what it opens to. Every other text is refused as
the cipher's failure, and neither the envelope nor the facility changes. Texts that are opened and
differ have parts that differ, and what any envelope seals has the parts that went into it. -/
theorem decrypt_accepts_sealed_texts_only (suite : Suite) (chance : Chance)
    (healthy : e.poisoned = false) (hand : e.key = some handle) (f : φ) :
    (∀ sealedText, sealedText ≠ "" →
      (∀ text, (e.decrypt suite chance f sealedText).1 = .ok text ↔
        ∃ (ephemeral : PublicKey) (nonce : Nonce) (ciphertext : Bytes), ciphertext ≠ [] ∧
          sealedText = Base64.encode (ephemeral.bytes ++ nonce.bytes ++ ciphertext) ∧
          suite.openText? (suite.textKey (suite.agree handle.pair.secretKey ephemeral) ephemeral
            handle.pair.publicKey) nonce ciphertext = some (utf8 text)) ∧
      ((∃ text, (e.decrypt suite chance f sealedText).1 = .ok text) ∨
        ∃ fault, (e.decrypt suite chance f sealedText).1 = .error (.error (.cipher fault))) ∧
      (e.decrypt suite chance f sealedText).2 = (e, f)) ∧
    (∀ sealedText sealedText' text text', sealedText ≠ sealedText' →
      (e.decrypt suite chance f sealedText).1 = .ok text →
      (e.decrypt suite chance f sealedText').1 = .ok text' →
      ∃ s s', Sealed.parse sealedText = .ok s ∧ Sealed.parse sealedText' = .ok s' ∧ s ≠ s') ∧
    ∀ (chance' : Chance) (e' : Envelope) (f' : φ) (text sealedText : String),
      (e'.encrypt suite chance' f' text).1 = .ok sealedText →
      ∃ handle', (e'.encrypt suite chance' f' text).2.1.key = some handle' ∧
        Sealed.parse sealedText = .ok
          { ephemeral := suite.publicOf chance'.ephemeral
            nonce := chance'.nonce
            ciphertext := suite.sealText (suite.textKey
              (suite.agree chance'.ephemeral handle'.pair.publicKey)
              (suite.publicOf chance'.ephemeral) handle'.pair.publicKey) chance'.nonce
              (utf8 text) } := by
  refine ⟨fun sealedText nonempty => ⟨fun text => ?_, ?_, ?_⟩, ?_, ?_⟩
  · rw [decrypt_eq_ok_iff healthy hand, openWith_eq_ok_iff]
    constructor
    · rintro ⟨s, read, found⟩
      obtain ⟨rfl, some⟩ := Sealed.parse_eq_ok_iff.1 read
      exact ⟨s.ephemeral, s.nonce, s.ciphertext, some, rfl, Suite.openSealed_eq_ok_iff.1 found⟩
    · rintro ⟨ephemeral, nonce, ciphertext, some, rfl, found⟩
      exact ⟨⟨ephemeral, nonce, ciphertext⟩, Sealed.parse_eq_ok_iff.2 ⟨rfl, some⟩,
        Suite.openSealed_eq_ok_iff.2 found⟩
  · rw [decrypt_of_hand healthy hand nonempty]
    cases openWith suite handle.pair sealedText with
    | ok text => exact .inl ⟨text, rfl⟩
    | error fault => exact .inr ⟨fault, rfl⟩
  · rw [decrypt_of_hand healthy hand nonempty]
  · intro sealedText sealedText' text text' apart first second
    rw [decrypt_eq_ok_iff healthy hand] at first second
    obtain ⟨s, read, -⟩ := openWith_eq_ok_iff.1 first
    obtain ⟨s', read', -⟩ := openWith_eq_ok_iff.1 second
    refine ⟨s, s', read, read', ?_⟩
    rintro rfl
    -- both texts are what their common parts are written as
    have same := (Sealed.parse_eq_ok_iff.1 read).1
    exact apart (same.trans (Sealed.parse_eq_ok_iff.1 read').1.symm)
  · intro chance' e' f' text sealedText sealed
    obtain ⟨handle', atHand, rfl⟩ := encrypt_eq_ok sealed
    exact ⟨handle', atHand, Sealed.parse_render (suite.sealText_ne_nil _ _ _)⟩

/-- With the standard suite, a text made by hand for the secret half of a keypair is opened,
whatever the public half is, and a text that is too short is refused. -/
theorem standard_suite_opens_handmade_text :
    let zeros : Bytes := .replicate 32 0
    let secret : SecretKey := ⟨zeros, List.length_replicate⟩
    let ephemeral : PublicKey := ⟨zeros, List.length_replicate⟩
    let nonce : Nonce := ⟨.replicate 12 0, List.length_replicate⟩
    let e : Envelope := ⟨some "a", some ⟨"a", ephemeral, secret⟩, false⟩
    let key := Suite.standard.textKey (Suite.standard.agree secret ephemeral) ephemeral ephemeral
    let ciphertext := Suite.standard.sealText key nonce (utf8 "p")
    let sealedText := Base64.encode (ephemeral.bytes ++ nonce.bytes ++ ciphertext)
    let answer (text : String) := (e.decrypt .standard (.sample 0) ({} : MemoryFacility) text).1
    answer sealedText = .ok "p" ∧ ∃ fault, answer "c2hvcnQ=" = .error (.error (.cipher fault)) := by
  intro zeros secret ephemeral nonce e key ciphertext sealedText answer
  have spec := (decrypt_accepts_sealed_texts_only .standard (.sample 0) (e := e) rfl rfl
    ({} : MemoryFacility)).1
  have some : ciphertext ≠ [] := Suite.standard.sealText_ne_nil _ _ _
  have nonempty : sealedText ≠ "" := Sealed.render_ne_empty (s := ⟨ephemeral, nonce, _⟩) some
  refine ⟨?_, (spec "c2hvcnQ=" (by decide)).2.1.resolve_left ?_⟩
  · exact ((spec sealedText nonempty).1 "p").2
      ⟨ephemeral, nonce, ciphertext, some, rfl, Suite.standard.open_seal _ _ _⟩
  · rintro ⟨text, opened⟩
    obtain ⟨ephemeral, nonce, ciphertext, -, written, -⟩ :=
      ((spec "c2hvcnQ=" (by decide)).1 text).1 opened
    have five : Base64.decode "c2hvcnQ=" = .ok (utf8 "short") :=
      Base64.decode_eq_ok_iff.2 (by decide +kernel)
    have size : 32 + 12 + ciphertext.length = 5 := by
      rw [Base64.decode_eq_ok_iff.2 written, Except.ok.injEq] at five
      have sizes := congrArg List.length five
      rw [List.length_append, List.length_append, ephemeral.size_eq, nonce.size_eq] at sizes
      exact sizes
    omega

end Envelope

end Preferences
