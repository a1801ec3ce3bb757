import Preferences.Text.Bytes

/-!
# SHA-256

The digest of a byte string: padding, the message schedule of a block, and the compression of one
block into the eight words of the state. With it, HMAC and HKDF make keys of shared secrets.
-/

namespace Preferences.Sha256

/-- The constants of the sixty-four rounds. -/
def roundConstants : List UInt32 :=
  [0x428a2f98, 0x71374491, 0xb5c0fbcf, 0xe9b5dba5, 0x3956c25b, 0x59f111f1,
    0x923f82a4, 0xab1c5ed5, 0xd807aa98, 0x12835b01, 0x243185be, 0x550c7dc3,
    0x72be5d74, 0x80deb1fe, 0x9bdc06a7, 0xc19bf174, 0xe49b69c1, 0xefbe4786,
    0x0fc19dc6, 0x240ca1cc, 0x2de92c6f, 0x4a7484aa, 0x5cb0a9dc, 0x76f988da,
    0x983e5152, 0xa831c66d, 0xb00327c8, 0xbf597fc7, 0xc6e00bf3, 0xd5a79147,
    0x06ca6351, 0x14292967, 0x27b70a85, 0x2e1b2138, 0x4d2c6dfc, 0x53380d13,
    0x650a7354, 0x766a0abb, 0x81c2c92e, 0x92722c85, 0xa2bfe8a1, 0xa81a664b,
    0xc24b8b70, 0xc76c51a3, 0xd192e819, 0xd6990624, 0xf40e3585, 0x106aa070,
    0x19a4c116, 0x1e376c08, 0x2748774c, 0x34b0bcb5, 0x391c0cb3, 0x4ed8aa4a,
    0x5b9cca4f, 0x682e6ff3, 0x748f82ee, 0x78a5636f, 0x84c87814, 0x8cc70208,
    0x90befffa, 0xa4506ceb, 0xbef9a3f7, 0xc67178f2]

/-- The state before the first block. -/
def initial : List UInt32 :=
  [0x6a09e667, 0xbb67ae85, 0x3c6ef372, 0xa54ff53a,
    0x510e527f, 0x9b05688c, 0x1f83d9ab, 0x5be0cd19]

/-- Rotates a word to the right. -/
def rotate (x : UInt32) (n : UInt32) : UInt32 := (x >>> n) ||| (x <<< (32 - n))

/-- The big-endian bytes of a number, `size` of them. -/
def bigEndian (size n : Nat) : Bytes :=
  (List.range size).map fun i => UInt8.ofNat (n / Nat.pow 256 (size - 1 - i))

/-- The message with a one bit, zeros and its length in bits, in whole blocks. -/
def pad (message : Bytes) : Bytes :=
  -- with the byte of the bit and the eight of the length, whole blocks are filled
  let zeros := (119 - message.length % 64) % 64
  message ++ [0x80] ++ List.replicate zeros 0 ++ bigEndian 8 (8 * message.length)

/-- The big-endian words of bytes. -/
def wordsOf : Bytes → List UInt32
  | a :: b :: c :: d :: rest =>
    ((a.toUInt32 <<< 24) ||| (b.toUInt32 <<< 16) ||| (c.toUInt32 <<< 8) ||| d.toUInt32) ::
      wordsOf rest
  | _ => []

/-- Extends the schedule by `n` words. -/
def extend : Nat → Array UInt32 → Array UInt32
  | 0, w => w
  | n + 1, w =>
    let at_ (back : Nat) : UInt32 := w.getD (w.size - back) 0
    let x := at_ 15
    let y := at_ 2
    let s0 := rotate x 7 ^^^ rotate x 18 ^^^ (x >>> 3)
    let s1 := rotate y 17 ^^^ rotate y 19 ^^^ (y >>> 10)
    extend n (w.push (at_ 16 + s0 + at_ 7 + s1))

/-- The sixty-four words of a block's schedule. -/
def schedule (block : Bytes) : List UInt32 := (extend 48 (wordsOf block).toArray).toList

/-- The working variables of a block. -/
structure State where
  a : UInt32
  b : UInt32
  c : UInt32
  d : UInt32
  e : UInt32
  f : UInt32
  g : UInt32
  h : UInt32

/-- One round with its constant and its word of the schedule. -/
def round (s : State) (kw : UInt32 × UInt32) : State :=
  let s1 := rotate s.e 6 ^^^ rotate s.e 11 ^^^ rotate s.e 25
  let ch := (s.e &&& s.f) ^^^ (~~~s.e &&& s.g)
  let t1 := s.h + s1 + ch + kw.1 + kw.2
  let s0 := rotate s.a 2 ^^^ rotate s.a 13 ^^^ rotate s.a 22
  let maj := (s.a &&& s.b) ^^^ (s.a &&& s.c) ^^^ (s.b &&& s.c)
  ⟨t1 + (s0 + maj), s.a, s.b, s.c, s.d + t1, s.e, s.f, s.g⟩

/-- The state after one more block. -/
def compress (s : State) (block : Bytes) : State :=
  let t := (roundConstants.zip (schedule block)).foldl round s
  ⟨s.a + t.a, s.b + t.b, s.c + t.c, s.d + t.d, s.e + t.e, s.f + t.f, s.g + t.g, s.h + t.h⟩

/-- The parts of a list, `size` long each; the fuel bounds their number. -/
def blocks (size : Nat) : Nat → Bytes → List Bytes
  | 0, _ => []
  | _, [] => []
  | fuel + 1, bs => bs.take size :: blocks size fuel (bs.drop size)

/-- The state that the initial words make. -/
def start : State :=
  match initial with
  | [a, b, c, d, e, f, g, h] => ⟨a, b, c, d, e, f, g, h⟩
  | _ => ⟨0, 0, 0, 0, 0, 0, 0, 0⟩

/-- The 32 bytes of a digest. -/
def digest (message : Bytes) : Bytes :=
  let padded := pad message
  let s := (blocks 64 padded.length padded).foldl compress start
  [s.a, s.b, s.c, s.d, s.e, s.f, s.g, s.h].flatMap fun w => bigEndian 4 w.toNat

end Preferences.Sha256

namespace Preferences.Hkdf

/-- The size of a block of the digest. -/
def blockSize : Nat := 64

/-- The authentication code of a message under a key. -/
def hmac (key message : Bytes) : Bytes :=
  let short := if blockSize < key.length then Sha256.digest key else key
  let full := short ++ List.replicate (blockSize - short.length) 0
  Sha256.digest (full.map (· ^^^ 0x5c) ++ Sha256.digest (full.map (· ^^^ 0x36) ++ message))

/-- The 32 bytes derived from a secret, with a salt, for a purpose. -/
def derive (salt secret purpose : Bytes) : Bytes :=
  hmac (hmac salt secret) (purpose ++ [1])

end Preferences.Hkdf
