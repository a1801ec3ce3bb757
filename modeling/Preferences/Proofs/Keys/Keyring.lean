import Preferences.Envelope.Basic
import Preferences.Keys.Keyring
import Preferences.Proofs.Files.Disk
import Preferences.Proofs.Keys.Record
import Preferences.Proofs.Outcome

/-!
# Keyrings asked again

A keyring that has provided an alias with a keypair keeps that keypair and provides the alias with
it again. Where the halves that a keyring keeps belong together, so do those that it provides. Main
statements: `Keyring.gives_of_provision` and `Keyring.provision_of_gives`.
-/

namespace Preferences

namespace Keyring

variable {suite : Suite} {c : Chance} {a text : String} {k k' : Keyring} {handle : KeyHandle}
  {pair : Keypair}

/-- The entry is read, or the keyring is told that there is none, or it cannot be got at. -/
lemma load_cases (k : Keyring) (a : String) :
    (∃ text, k.load a = .ok text ∧ k.credentials.fault? .build = none ∧
      k.credentials.fault? .get = none ∧
      k.credentials.entries.get? ⟨k.service, a⟩ = some (utf8 text)) ∨
    (k.load a = .error (.notFound a) ∧ k.credentials.fault? .build = none ∧
      (k.credentials.fault? .get = some .noEntry ∨
        k.credentials.entries.get? ⟨k.service, a⟩ = none)) ∨
    ∃ fault, k.load a = .error (.unavailable (.credential fault)) := by
  simp only [load, entry, CredentialStore.pass, CredentialStore.getText]
  cases k.credentials.fault? .build with
  | some fault => exact .inr (.inr ⟨fault, rfl⟩)
  | none =>
    cases k.credentials.fault? .get with
    | some fault =>
      cases fault with
      | noEntry => exact .inr (.inl ⟨rfl, rfl, .inl rfl⟩)
      | platform | access | tooLong | invalid | notText => exact .inr (.inr ⟨_, rfl⟩)
    | none =>
      dsimp only [bind, Except.bind]
      cases k.credentials.entries.get? ⟨k.service, a⟩ with
      | none => exact .inr (.inl ⟨rfl, rfl, .inr rfl⟩)
      | some bs =>
        dsimp only
        cases decoded : Utf8.decode bs with
        | error => exact .inr (.inr ⟨.notText, rfl⟩)
        | ok text => exact .inl ⟨text, rfl, rfl, rfl, by rw [Utf8.eq_utf8_of_decode decoded]⟩

/-- What is loaded for an alias is the text of its entry. -/
lemma load_eq_ok (h : k.load a = .ok text) :
    k.credentials.entries.get? ⟨k.service, a⟩ = some (utf8 text) := by
  obtain ⟨_, loaded, -, -, kept⟩ | ⟨failed, -⟩ | ⟨_, failed⟩ := k.load_cases a
  · cases loaded.symm.trans h
    exact kept
  · cases failed.symm.trans h
  · cases failed.symm.trans h

/-- What the keyring keeps for the alias are the halves of the pair. -/
def Gives (k : Keyring) (a : String) (pair : Keypair) : Prop :=
  ∃ text, k.load a = .ok text ∧ decodePublic a text = .ok pair.publicKey ∧
    decodeSecret a text = .ok pair.secretKey

/-- If the keyring keeps two halves for the alias, they belong together. -/
def Sound (suite : Suite) (k : Keyring) (a : String) : Prop :=
  ∀ pair, k.Gives a pair → pair = suite.keypair pair.secretKey

/-! ## Both halves -/

/-- A look-up leaves the keyring as it was. -/
lemma lookUp_eq_ok {α : Type} {f : Keyring → Except KeyError α} {b : α} :
    lookUp f k = (.ok b, k') ↔ f k = .ok b ∧ k' = k := by
  simp only [lookUp, Attempt.look, Prod.mk.injEq, eq_comm (a := k)]
  cases f k <;> simp [Except.mapError]

/-- Both halves that are fetched are the keyring's. -/
lemma gives_of_fetch (h : fetchKeypair a k = (.ok handle, k')) :
    k' = k ∧ k.Gives a handle.pair := by
  obtain ⟨publicKey, k₁, first, rest⟩ := Attempt.bind_eq_ok.1 h
  obtain ⟨secretKey, k₂, second, last⟩ := Attempt.bind_eq_ok.1 rest
  obtain ⟨first, rfl⟩ := lookUp_eq_ok.1 first
  obtain ⟨second, rfl⟩ := lookUp_eq_ok.1 second
  obtain ⟨text, loaded, publicHalf⟩ := bind_eq_ok.1 first
  obtain ⟨text', loaded', secretHalf⟩ := bind_eq_ok.1 second
  cases loaded.symm.trans loaded'
  cases last
  exact ⟨rfl, text, loaded, publicHalf, secretHalf⟩

/-- Both halves that the keyring gives are fetched. -/
lemma fetch_of_gives (gives : k.Gives a pair) : fetchKeypair a k = (.ok ⟨a, pair⟩, k) := by
  obtain ⟨text, loaded, publicHalf, secretHalf⟩ := gives
  refine Attempt.bind_eq_ok.2 ⟨pair.publicKey, k, ?_, Attempt.bind_eq_ok.2
    ⟨pair.secretKey, k, ?_, rfl⟩⟩
  · exact lookUp_eq_ok.2 ⟨bind_eq_ok.2 ⟨text, loaded, publicHalf⟩, rfl⟩
  · exact lookUp_eq_ok.2 ⟨bind_eq_ok.2 ⟨text, loaded, secretHalf⟩, rfl⟩

/-! ## Keypairs made sure of -/

/-- An alias with an entry needs no keypair. -/
lemma ensure_of_load (loaded : k.load a = .ok text) :
    ensureKeypair suite c a k = (.ok (), k) := by
  refine Attempt.bind_eq_ok.2 ⟨true, k, lookUp_eq_ok.2 ⟨?_, rfl⟩, rfl⟩
  rw [hasKeypair, loaded]

/-- An alias that has been made sure of had an entry, or got one with a new keypair. -/
lemma ensure_eq_ok (h : ensureKeypair suite c a k = (.ok (), k')) :
    k' = k ∨ ∃ validity, k.generate a validity (suite.keypair c.keypairSecret) = .ok k' := by
  obtain ⟨known, k₁, asked, rest⟩ := Attempt.bind_eq_ok.1 h
  obtain ⟨-, rfl⟩ := lookUp_eq_ok.1 asked
  cases known with
  | true =>
    cases rest
    exact .inl rfl
  | false =>
    rw [if_neg (by decide)] at rest
    cases year : Validity.oneYearFrom? c.now with
    | none =>
      rw [year] at rest
      cases rest
    | some validity =>
      rw [year] at rest
      simp only [KeyFacility.generate] at rest
      split at rest
      next made =>
        cases rest
        exact .inr ⟨validity, made⟩
      next => cases rest

/-- A keypair that is generated becomes the entry of its alias. -/
lemma generate_eq_ok {validity : Validity} (h : k.generate a validity pair = .ok k') :
    k'.service = k.service ∧ k'.credentials.entries.get? ⟨k.service, a⟩ =
      some (utf8 (KeypairRecord.make a validity pair).render) := by
  simp only [generate, entry, CredentialStore.pass, CredentialStore.setText] at h
  cases built : k.credentials.fault? .build with
  | some fault =>
    rw [built] at h
    cases h
  | none =>
    cases put : k.credentials.fault? .set with
    | some fault =>
      rw [built, put] at h
      cases h
    | none =>
      rw [built, put] at h
      cases h
      exact ⟨rfl, Table.get?_insert_self _ _ _⟩

/-- A keyring keeps the keypair that it provides an alias with, whose halves belong together. -/
theorem gives_of_provision (sound : k.Sound suite a)
    (h : provision suite c a k = (.ok handle, k')) :
    k'.service = k.service ∧ k'.Gives a handle.pair ∧
      handle.pair = suite.keypair handle.pair.secretKey := by
  obtain ⟨_, k₁, ensured, fetched⟩ := Attempt.bind_eq_ok.1 h
  obtain ⟨rfl, gives⟩ := gives_of_fetch fetched
  rcases ensure_eq_ok ensured with rfl | ⟨validity, made⟩
  · exact ⟨rfl, gives, sound _ gives⟩
  · -- the entry is the record of the new keypair
    obtain ⟨service, kept⟩ := generate_eq_ok made
    refine ⟨service, gives, ?_⟩
    have ⟨text, loaded, publicHalf, secretHalf⟩ := gives
    have found := load_eq_ok loaded
    rw [service, kept] at found
    cases utf8_inj (Option.some.inj found)
    rw [decodePublic_render] at publicHalf
    rw [decodeSecret_render] at secretHalf
    obtain ⟨keyAlias, publicKey, secretKey⟩ := handle
    cases publicHalf
    cases secretHalf
    rfl

/-- A keyring provides an alias with the keypair that it keeps. -/
theorem provision_of_gives (gives : k.Gives a pair) (suite : Suite) (c : Chance) :
    provision suite c a k = (.ok ⟨a, pair⟩, k) := by
  have ⟨text, loaded, _⟩ := gives
  exact Attempt.bind_eq_ok.2 ⟨(), k, ensure_of_load loaded, fetch_of_gives gives⟩

/-- A keyring with no fault in its way gives what its credential store has. -/
lemma load_of_up (built : k.credentials.fault? .build = none)
    (got : k.credentials.fault? .get = none) :
    k.load a = match k.credentials.entries.get? ⟨k.service, a⟩ with
      | none => .error (.notFound a)
      | some bs => match Utf8.decode bs with
        | .ok text => .ok text
        | .error _ => .error (.unavailable (.credential .notText)) := by
  simp only [load, entry, CredentialStore.pass, CredentialStore.getText, built, got, bind,
    Except.bind]
  cases k.credentials.entries.get? ⟨k.service, a⟩ with
  | none => rfl
  | some bs =>
    dsimp only
    cases Utf8.decode bs <;> rfl

/-- A keyring that is up provides a new alias with a new keypair. -/
lemma provision_of_absent (up : ∀ stage, k.credentials.fault? stage = none)
    (absent : k.credentials.entries.get? ⟨k.service, a⟩ = none)
    {validity : Validity} (year : Validity.oneYearFrom? c.now = some validity) :
    ∃ k', provision suite c a k = (.ok ⟨a, suite.keypair c.keypairSecret⟩, k') := by
  let record := KeypairRecord.make a validity (suite.keypair c.keypairSecret)
  let k' : Keyring :=
    { k with credentials := k.credentials.put ⟨k.service, a⟩ (utf8 record.render) }
  have asked : k.hasKeypair a = .ok false := by
    rw [hasKeypair, load_of_up (up .build) (up .get), absent]
  have made : k.generate a validity (suite.keypair c.keypairSecret) = .ok k' := by
    simp only [generate, entry, CredentialStore.pass, CredentialStore.setText, up]
    rfl
  have loaded : k'.load a = .ok record.render := by
    have kept : k'.credentials.entries.get? ⟨k'.service, a⟩ = some (utf8 record.render) :=
      Table.get?_insert_self _ _ _
    have up' : ∀ stage, k'.credentials.fault? stage = none := up
    rw [load_of_up (up' .build) (up' .get), kept]
    simp only [Utf8.decode_utf8]
  have ensured : ensureKeypair suite c a k = (.ok (), k') := by
    refine Attempt.bind_eq_ok.2 ⟨false, k, lookUp_eq_ok.2 ⟨asked, rfl⟩, ?_⟩
    rw [if_neg (by decide), year]
    simp only [KeyFacility.generate, made]
  exact ⟨k', Attempt.bind_eq_ok.2 ⟨(), k', ensured, fetch_of_gives
    ⟨record.render, loaded, decodePublic_render .., decodeSecret_render ..⟩⟩⟩

end Keyring

end Preferences
