import Preferences.Command.Values

/-!
# The health check

Writes a value of every sort under its own key and reads it back, the last one sealed.
-/

namespace Preferences.Health

variable {σ φ : Type} [Store σ] [KeyFacility φ]

/-- A step of the check. -/
abbrev Check (σ φ α : Type) := Attempt (TypedStore σ φ) (Halt Report) α

/-- Writes a probe, durably. -/
def put (t : PrefType) (key : String) (v : t.Val) : Check σ φ Unit := fun s =>
  let (result, s) := s.set t key v .commit
  (result.mapError fun e => .error (.preferences e), s)

/-- Reads a probe back. -/
def fetch (t : PrefType) (key : String) (default : Option t.Val) : Check σ φ t.Val := fun s =>
  let (result, s) := s.get t key default
  (result.mapError fun e => .error (.preferences e), s)

/-- The text that the store itself holds for a probe. -/
def stored (key : String) : Check σ φ String :=
  .look fun s => (Store.get s.store .string key "").mapError fun e => .error (.store e)

/-- Seals a probe. -/
def putSealed (key text : String) : Check σ φ Unit := fun s =>
  let (result, s) := s.setSealed key text
  (result.mapError (Halt.map .preferences), s)

/-- Opens a sealed probe. -/
def fetchSealed (key : String) : Check σ φ String := fun s =>
  let (result, s) := s.getSealed key
  (result.mapError (Halt.map .preferences), s)

/-- Registers the adapter of probe codes. -/
def adapt : Check σ φ Unit := fun s =>
  (.ok (), s.addAdapter (.structured .probeCode) .probeCode)

/-- Fails unless a probe came back as it was written. -/
def ensure (good : Bool) (probe : Probe) : Check σ φ Unit :=
  if good then pure () else .halt (.error (.unhealthy probe))

/-- The integer that is probed. -/
def longProbe : Word .int64 := ⟨6942069, by decide, by decide⟩

/-- The short integer that is probed. -/
def intProbe : Word .int32 := ⟨451, by decide, by decide⟩

/-- The record that is probed. -/
def recordProbe : ProbeRecord := ⟨"Bilbo", ⟨111, by decide, by decide⟩⟩

/-- The record that would show that the probe was lost. -/
def recordFallback : ProbeRecord := ⟨"Frodo", ⟨35, by decide, by decide⟩⟩

/-- The code that is probed. -/
def codeProbe : ProbeCode := ⟨"AA", ⟨2, by decide, by decide⟩⟩

/-- The code that would show that the probe was lost. -/
def codeFallback : ProbeCode := ⟨"ZZ", ⟨9, by decide, by decide⟩⟩

/-- The text of the probed code. -/
def codeText : String := "AA2"

/-- The text that is sealed. -/
def secretProbe : String := "secret"

/-- Writes the native kinds. -/
def putNative : Check σ φ Unit := do
  put (.primitive .long) "health/long" longProbe
  put (.primitive .int) "health/int" intProbe
  put (.primitive .bool) "health/bool" true
  put (.primitive .string) "health/string" "ok"

/-- Reads the native kinds back. -/
def checkNative : Check σ φ Unit := do
  let n ← fetch (.primitive .long) "health/long" none
  ensure (n == longProbe) .long
  let n ← fetch (.primitive .int) "health/int" none
  ensure (n == intProbe) .int
  let b ← fetch (.primitive .bool) "health/bool" none
  ensure b .bool
  let s ← fetch (.primitive .string) "health/string" none
  ensure (s == "ok") .string

/-- Tries a structured type without an adapter. -/
def checkRecord : Check σ φ Unit := do
  put (.structured .probeRecord) "health/record" recordProbe
  let r ← fetch (.structured .probeRecord) "health/record" (some recordFallback)
  ensure (r == recordProbe) .structured

/-- Tries a structured type with an adapter. -/
def checkCode : Check σ φ Unit := do
  adapt
  put (.structured .probeCode) "health/adapter" codeProbe
  let text ← stored "health/adapter"
  ensure (text == codeText) .adapterEncoding
  let c ← fetch (.structured .probeCode) "health/adapter" (some codeFallback)
  ensure (c == codeProbe) .adapter

/-- Tries a sealed text. -/
def checkSecret : Check σ φ Unit := do
  putSealed "health/secret" secretProbe
  let text ← stored "health/secret"
  ensure (text != secretProbe) .ciphertext
  let text ← fetchSealed "health/secret"
  ensure (text == secretProbe) .encryption

/-- The whole check. -/
def check : Check σ φ Unit := do
  putNative
  checkNative
  checkRecord
  checkCode
  checkSecret

end Preferences.Health
