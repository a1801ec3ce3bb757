import Preferences.Keys.Basic

/-!
# Key agreement on Curve25519

Scalar multiplication by the Montgomery ladder on the coordinate `u`, with the clamping of secrets.
-/

namespace Preferences.X25519

/-- The prime of the field. -/
def prime : Nat := Nat.pow 2 255 - 19

/-- The number that bytes write, the last one most significant. -/
def littleEndian : Bytes → Nat
  | [] => 0
  | b :: bs => b.toNat + 256 * littleEndian bs

/-- The little-endian bytes of a number, as many as a key has. -/
def keyBytes (n : Nat) : Bytes := (List.range keySize).map fun i => UInt8.ofNat (n / Nat.pow 256 i)

/-- A number is written as the bytes of a key. -/
theorem length_keyBytes (n : Nat) : (keyBytes n).length = keySize := by simp [keyBytes]

/-- A secret as a scalar: a multiple of eight with its highest bit at 254. -/
def clamp (n : Nat) : Nat := n % Nat.pow 2 254 / 8 * 8 + Nat.pow 2 254

/-- Subtraction in the field. -/
def sub (a b : Nat) : Nat := (a + prime - b) % prime

/-- Powers in the field, by the bits of the exponent. -/
def power (a : Nat) : Nat → Nat → Nat
  | 0, _ => 1
  | fuel + 1, e =>
    if e = 0 then 1
    else
      let half := power (a * a % prime) fuel (e / 2)
      if e % 2 = 1 then a * half % prime else half

/-- The inverse in the field; zero for zero. -/
def inverse (a : Nat) : Nat := power a 256 (prime - 2)

/-- Two points of the ladder, by projective coordinates. -/
structure Rungs where
  x2 : Nat
  z2 : Nat
  x3 : Nat
  z3 : Nat

/-- One step of the ladder: doubles the first point and adds the two, whose difference is at `u`. -/
def step (u : Nat) (r : Rungs) : Rungs :=
  let a := (r.x2 + r.z2) % prime
  let aa := a * a % prime
  let b := sub r.x2 r.z2
  let bb := b * b % prime
  let e := sub aa bb
  let c := (r.x3 + r.z3) % prime
  let d := sub r.x3 r.z3
  let da := d * a % prime
  let cb := c * b % prime
  let sum := (da + cb) % prime
  let difference := sub da cb
  -- `121665` is `(486662 - 2) / 4`, for the coefficient of the curve
  ⟨aa * bb % prime, e * ((aa + 121665 * e) % prime) % prime, sum * sum % prime,
    u * (difference * difference % prime) % prime⟩

/-- Exchanges the two points. -/
def Rungs.swap (r : Rungs) : Rungs := ⟨r.x3, r.z3, r.x2, r.z2⟩

/-- Climbs the ladder from bit `n` of the scalar down. -/
def climb (scalar u : Nat) : Nat → Rungs → Rungs
  | 0, r => r
  | n + 1, r =>
    -- the bit tells which of the two points is doubled
    climb scalar u n (if scalar.testBit n then (step u r.swap).swap else step u r)

/-- The coordinate of a multiple of the point at `u`. -/
def multiple (scalar u : Nat) : Nat :=
  let r := climb scalar u 255 ⟨1, 0, u, 1⟩
  r.x2 * inverse r.z2 % prime

/-- What a secret key and a public key agree on. -/
def agree (s : SecretKey) (p : PublicKey) : Bytes :=
  keyBytes (multiple (clamp (littleEndian s.bytes)) (littleEndian p.bytes % Nat.pow 2 255 % prime))

/-- The public half of a secret key. -/
def publicOf (s : SecretKey) : PublicKey :=
  ⟨keyBytes (multiple (clamp (littleEndian s.bytes)) 9), length_keyBytes _⟩

end Preferences.X25519
