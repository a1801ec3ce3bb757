import Preferences.Codec.Registry
import Preferences.Envelope.Basic
import Preferences.Store.Basic

/-!
# Typed stores

A typed store reads and writes values of any type in a preference store: native kinds as they are,
structured types as the texts of a registry, and confidential texts sealed by an envelope.
-/

namespace Preferences

/-- Fails for the empty key. -/
def requireKey (key : String) : Except Error Unit :=
  if key = "" then .error (.invalidArgument .emptyKey) else .ok ()

/-- Reads a value of a type. Only structured types need a default, since they have no zero value. -/
def readAs {σ : Type} [Store σ] (store : σ) (registry : Registry) :
    (t : PrefType) → (key : String) → (default : Option t.Val) → Except Error t.Val × Calls
  | .primitive k, key, default =>
    ((Store.get store k key (default.getD k.zero)).mapError .store, {})
  | .structured m, _, none => (.error (.invalidArgument (.noDefault m.typeName)), {})
  | .structured m, key, some default =>
    match Store.get store .string key "" with
    | .error e => (.error (.store e), {})
    | .ok raw => registry.decode (.structured m) raw default

/-- The stored form of a value. -/
def toStored (registry : Registry) : (t : PrefType) → t.Val → Except Error Value × Calls
  | .primitive k, v => (.ok (Value.ofCarrier k v), {})
  | .structured m, v =>
    match registry.encode (.structured m) v with
    | (.ok text, calls) => (.ok (.string text), calls)
    | (.error e, calls) => (.error e, calls)

/-- A typed store over a store with states `σ` and a key facility with states `φ`. -/
structure TypedStore (σ φ : Type) where
  store : σ
  facility : φ
  envelope : Envelope := {}
  registry : Registry := {}
  /-- How often adapters have been called. -/
  calls : Calls := {}
  supply : Supply
  suite : Suite := .standard

namespace TypedStore

variable {σ φ : Type} [Store σ] [KeyFacility φ]

/-- The value under a key. -/
def get (s : TypedStore σ φ) (t : PrefType) (key : String) (default : Option t.Val) :
    Except Error t.Val × TypedStore σ φ :=
  match requireKey key with
  | .error e => (.error e, s)
  | .ok _ =>
    let (result, calls) := readAs s.store s.registry t key default
    (result, { s with calls := s.calls + calls })

/-- Puts a value under a key. -/
def set (s : TypedStore σ φ) (t : PrefType) (key : String) (v : t.Val) (mode : SyncMode) :
    Except Error Unit × TypedStore σ φ :=
  match requireKey key with
  | .error e => (.error e, s)
  | .ok _ =>
    match toStored s.registry t v with
    -- what has no stored form does not reach the store
    | (.error e, calls) => (.error e, { s with calls := s.calls + calls })
    | (.ok stored, calls) =>
      let (result, store) := PendingWrite.finish ⟨key, stored⟩ mode s.store
      (result.mapError .store, { s with store, calls := s.calls + calls })

/-- Does the key hold a value? -/
def contains (s : TypedStore σ φ) (key : String) : Except Error Bool :=
  match requireKey key with
  | .error e => .error e
  | .ok _ => (Store.contains s.store key).mapError .store

/-- Registers an adapter for a type. -/
def addAdapter (s : TypedStore σ φ) (t : PrefType) (a : Adapter t.Val) : TypedStore σ φ :=
  { s with registry := s.registry.add t a }

/-- The text of a value. -/
def serialize (s : TypedStore σ φ) (t : PrefType) (v : t.Val) :
    Except Error String × TypedStore σ φ :=
  let (result, calls) := s.registry.encode t v
  (result, { s with calls := s.calls + calls })

/-- The value of a text. -/
def deserialize (s : TypedStore σ φ) (t : PrefType) (input : String) (default : t.Val) :
    Except Error t.Val × TypedStore σ φ :=
  let (result, calls) := s.registry.decode t input default
  (result, { s with calls := s.calls + calls })

/-- Chooses the alias for confidential texts. -/
def setAlias (s : TypedStore σ φ) (keyAlias : String) : Except Error Unit × TypedStore σ φ :=
  match s.envelope.setAlias keyAlias with
  | .ok envelope => (.ok (), { s with envelope })
  | .error e => (.error e, s)

/-- Seals a text. -/
def encrypt (s : TypedStore σ φ) (text : String) :
    Except (Halt Error) String × TypedStore σ φ :=
  let (chance, supply) := s.supply.next
  let (result, envelope, facility) := s.envelope.encrypt s.suite chance s.facility text
  (result, { s with envelope, facility, supply })

/-- Opens a sealed text. -/
def decrypt (s : TypedStore σ φ) (sealedText : String) :
    Except (Halt Error) String × TypedStore σ φ :=
  let (chance, supply) := s.supply.next
  let (result, envelope, facility) := s.envelope.decrypt s.suite chance s.facility sealedText
  (result, { s with envelope, facility, supply })

/-- Seals a text and puts it under a key. -/
def setSealed (s : TypedStore σ φ) (key text : String) :
    Except (Halt Error) Unit × TypedStore σ φ :=
  match requireKey key with
  | .error e => (.error (.error e), s)
  | .ok _ =>
    -- the key was looked at first: for an empty one no keypair is generated
    match s.encrypt text with
    | (.error stop, s) => (.error stop, s)
    | (.ok sealedText, s) =>
      let (result, s) := s.set (.primitive .string) key sealedText .apply
      (result.mapError .error, s)

/-- Opens the text sealed under a key. A key without a value has nothing to open. -/
def getSealed (s : TypedStore σ φ) (key : String) :
    Except (Halt Error) String × TypedStore σ φ :=
  match s.get (.primitive .string) key none with
  | (.error e, s) => (.error (.error e), s)
  | (.ok sealedText, s) => s.decrypt sealedText

end TypedStore

end Preferences
