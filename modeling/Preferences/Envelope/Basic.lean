import Preferences.Envelope.Sealed
import Preferences.Keys.Facility

/-!
# Envelopes

An envelope seals and opens texts under the alias that is active. The first use looks the alias up
in the facility, and has a keypair generated there if it has none; the keypair is then kept until
another alias is chosen. A crash while the alias is looked up poisons the envelope for good. The
time and the random choices of an operation are made before it: with the same choices it does the
same.
-/

namespace Preferences

/-! ## What an operation takes from outside -/

/-- The time and the random choices of one operation. -/
structure Chance where
  now : Instant
  /-- The secret half of a keypair, should one be generated. -/
  keypairSecret : SecretKey
  /-- The secret key of one sealed text. -/
  ephemeral : SecretKey
  nonce : Nonce

/-- Choices made when the year 2024 began, for runs on fixed inputs. All bytes of the secret half of
the keypair are the same. -/
def Chance.sample (b : UInt8) : Chance where
  now := ⟨⟨2024, 1, 1, by decide, by decide, by decide, by decide, by decide, by decide⟩, 0, 0,
    by decide, by decide⟩
  keypairSecret := ⟨.replicate 32 b, List.length_replicate⟩
  ephemeral := ⟨.replicate 32 7, rfl⟩
  nonce := ⟨.replicate 12 0, rfl⟩

/-- The choices of all operations, and how many have been used. -/
structure Supply where
  chance : Nat → Chance
  used : Nat := 0

/-- The same choices for all operations, for runs on fixed inputs. -/
def Supply.sample : Supply where
  chance _ := .sample 0

/-- The choices for the next operation. -/
def Supply.next (s : Supply) : Chance × Supply := (s.chance s.used, { s with used := s.used + 1 })

/-! ## The keypair of an alias -/

/-- The keypair of an alias. -/
structure KeyHandle where
  keyAlias : String
  pair : Keypair
  deriving DecidableEq

/-- The state of an envelope. -/
structure Envelope where
  /-- The alias that is active. -/
  keyAlias : Option String := none
  /-- The keypair found for it. -/
  key : Option KeyHandle := none
  /-- Did a look-up crash? -/
  poisoned : Bool := false

/-- Has a keypair generated for an alias that has none. -/
def ensureKeypair {φ : Type} [KeyFacility φ] (suite : Suite) (chance : Chance)
    (keyAlias : String) : KeyCall φ Unit := do
  if ← KeyFacility.hasKeypair keyAlias then pure ()
  else
    match Validity.oneYearFrom? chance.now with
    | some validity =>
      KeyFacility.generate keyAlias validity (suite.keypair chance.keypairSecret)
    | none => .halt .crash

/-- Fetches both halves of an alias's keypair. -/
def fetchKeypair {φ : Type} [KeyFacility φ] (keyAlias : String) : KeyCall φ KeyHandle := do
  let publicKey ← KeyFacility.publicKey keyAlias
  let secretKey ← KeyFacility.secretKey keyAlias
  return ⟨keyAlias, publicKey, secretKey⟩

/-- Finds the keypair of an alias, generating one where there is none. -/
def provision {φ : Type} [KeyFacility φ] (suite : Suite) (chance : Chance) (keyAlias : String) :
    KeyCall φ KeyHandle := do
  ensureKeypair suite chance keyAlias
  fetchKeypair keyAlias

namespace Envelope

/-- The failure of every use after a crash. -/
def poisonedError : Error := .keyFacility (.unavailable .poisoned)

/-- The alias that is active, as it can be seen from outside. -/
def activeAlias (e : Envelope) : Option String := if e.poisoned then none else e.keyAlias

/-- Is the keypair of the active alias at hand? -/
def isReady (e : Envelope) : Bool := !e.poisoned && e.key.isSome

/-- Chooses an alias. The same alias again changes nothing; another one drops the keypair. -/
def setAlias (e : Envelope) (keyAlias : String) : Except Error Envelope :=
  if keyAlias = "" then .error (.invalidArgument .emptyAlias)
  else if e.poisoned then .error poisonedError
  else if e.keyAlias = some keyAlias then .ok e
  else .ok { e with keyAlias := some keyAlias, key := none }

variable {φ : Type} [KeyFacility φ]

/-- The keypair of the active alias, looked up where it is not at hand. -/
def ready (suite : Suite) (chance : Chance) (e : Envelope) (facility : φ) :
    Except (Halt Error) KeyHandle × Envelope × φ :=
  if e.poisoned then (.error (.error poisonedError), e, facility)
  else
    match e.key with
    | some handle => (.ok handle, e, facility)
    | none =>
      match e.keyAlias with
      | none => (.error (.error .noAlias), e, facility)
      | some keyAlias =>
        match provision suite chance keyAlias facility with
        | (.ok handle, facility) => (.ok handle, { e with key := some handle }, facility)
        -- a look-up that fails leaves nothing behind, so that the next use tries again
        | (.error (.error error), facility) => (.error (.error (.keyFacility error)), e, facility)
        | (.error .crash, facility) => (.error .crash, { e with poisoned := true }, facility)

/-- Seals a text under the active alias. -/
def encrypt (suite : Suite) (chance : Chance) (e : Envelope) (facility : φ) (text : String) :
    Except (Halt Error) String × Envelope × φ :=
  if text = "" then (.error (.error (.invalidArgument .emptyPlaintext)), e, facility)
  else
    match e.ready suite chance facility with
    | (.error stop, e, facility) => (.error stop, e, facility)
    | (.ok handle, e, facility) =>
      let sealedText := suite.sealFor handle.pair.publicKey chance.ephemeral chance.nonce text
      (.ok sealedText.render, e, facility)

/-- The text of a sealed text, opened with a keypair. -/
def openWith (suite : Suite) (pair : Keypair) (sealedText : String) :
    Except CipherFault String := do
  suite.openSealed pair (← Sealed.parse sealedText)

/-- Opens a text sealed under the active alias. -/
def decrypt (suite : Suite) (chance : Chance) (e : Envelope) (facility : φ) (sealedText : String) :
    Except (Halt Error) String × Envelope × φ :=
  if sealedText = "" then (.error (.error (.invalidArgument .emptyCiphertext)), e, facility)
  else
    match e.ready suite chance facility with
    | (.error stop, e, facility) => (.error stop, e, facility)
    | (.ok handle, e, facility) =>
      match openWith suite handle.pair sealedText with
      | .ok text => (.ok text, e, facility)
      | .error fault => (.error (.error (.cipher fault)), e, facility)

end Envelope

end Preferences
