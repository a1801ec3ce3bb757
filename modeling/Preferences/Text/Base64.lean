import Preferences.Text.Bytes

/-!
# Base64

The standard alphabet with padding. Encoding is total; decoding accepts padded texts whose unused
bits are zero and reports the first fault otherwise.
-/

namespace Preferences.Base64

/-- The sixty-four symbols in order. -/
def alphabet : List Char :=
  "ABCDEFGHIJKLMNOPQRSTUVWXYZabcdefghijklmnopqrstuvwxyz0123456789+/".toList

/-- The symbol of a value below 64. -/
def symbol (n : Nat) : Char := alphabet.getD n '='

/-- The value of a symbol. -/
def value? (c : Char) : Option Nat :=
  if 'A' ≤ c ∧ c ≤ 'Z' then some (c.toNat - 65)
  else if 'a' ≤ c ∧ c ≤ 'z' then some (c.toNat - 71)
  else if '0' ≤ c ∧ c ≤ '9' then some (c.toNat + 4)
  else if c = '+' then some 62
  else if c = '/' then some 63
  else none

/-- The four symbols of three bytes. -/
def group (a b c : UInt8) : List Char :=
  let n := a.toNat * 65536 + b.toNat * 256 + c.toNat
  [symbol (n / 262144), symbol (n / 4096 % 64), symbol (n / 64 % 64), symbol (n % 64)]

/-- The symbols of a byte string. -/
def encodeChars : Bytes → List Char
  | [] => []
  | [a] => (group a 0 0).take 2 ++ ['=', '=']
  | [a, b] => (group a b 0).take 3 ++ ['=']
  | a :: b :: c :: rest => group a b c ++ encodeChars rest

/-- The base64 text of a byte string. -/
def encode (bs : Bytes) : String := String.ofList (encodeChars bs)

/-- Why a text is no base64. Offsets and symbols are those of its bytes. -/
inductive Fault where
  | invalidByte (offset : Nat) (byte : UInt8)
  | invalidLength (length : Nat)
  | invalidLastSymbol (offset : Nat) (byte : UInt8)
  | invalidPadding
  deriving DecidableEq

/-- The words for a fault. -/
def Fault.message : Fault → String
  | invalidByte offset byte => s!"Invalid symbol {byte.toNat}, offset {offset}."
  | invalidLength length => s!"Invalid input length: {length}"
  | invalidLastSymbol offset byte => s!"Invalid last symbol {byte.toNat}, offset {offset}."
  | invalidPadding => "Invalid padding"

/-- The value of a byte that is a symbol. -/
def valueOf? (b : UInt8) : Option Nat := value? (Char.ofNat b.toNat)

/-- The byte of the padding sign. -/
def pad : UInt8 := 61

/-- The three bytes of four symbol values. -/
def ungroup (w x y z : Nat) : Bytes :=
  let n := w * 262144 + x * 4096 + y * 64 + z
  [UInt8.ofNat (n / 65536), UInt8.ofNat (n / 256), UInt8.ofNat n]

/-- Reads one symbol of a full group. -/
def symbolAt (offset : Nat) (b : UInt8) : Except Fault Nat :=
  match valueOf? b with
  | some n => .ok n
  | none => .error (.invalidByte offset b)

/-- The values of the symbols at the head of the last group, up to its padding. `index` is the place
in the group and `firstPad` the place of the first padding sign so far. -/
def lastSymbols (offset : Nat) : Nat → Option Nat → Bytes → Except Fault (List Nat × Option Nat)
  | _, firstPad, [] => .ok ([], firstPad)
  | index, firstPad, b :: bs =>
    if b = pad then
      if index < 2 then .error (.invalidByte (offset + index) b)
      else lastSymbols offset (index + 1) (firstPad <|> some index) bs
    else
      match firstPad with
      | some p => .error (.invalidByte (offset + p) pad)
      | none =>
        match valueOf? b with
        | none => .error (.invalidByte (offset + index) b)
        | some n => do
          let (ns, p) ← lastSymbols offset (index + 1) none bs
          return (n :: ns, p)

/-- Reads the last group, of one to four bytes. -/
def lastGroup (offset : Nat) (bs : Bytes) : Except Fault Bytes := do
  let (ns, _) ← lastSymbols offset 0 none bs
  match ns with
  | [] | [_] => .error (.invalidLength (offset + ns.length))
  | [w, x] =>
    if bs.length ≠ 4 then .error .invalidPadding
    -- bits that no byte takes have to be zero
    else if x % 16 ≠ 0 then .error (.invalidLastSymbol (offset + 1) (bs.getD 1 0))
    else .ok ((ungroup w x 0 0).take 1)
  | [w, x, y] =>
    if bs.length ≠ 4 then .error .invalidPadding
    else if y % 4 ≠ 0 then .error (.invalidLastSymbol (offset + 2) (bs.getD 2 0))
    else .ok ((ungroup w x y 0).take 2)
  | w :: x :: y :: z :: _ => .ok (ungroup w x y z)

/-- Reads full groups and then the last one; `offset` is the place of the first byte. -/
def groups (offset : Nat) : Bytes → Except Fault Bytes
  -- the last group is read apart even when it is full, since only it may be padded
  | a :: b :: c :: d :: e :: rest => do
    let w ← symbolAt offset a
    let x ← symbolAt (offset + 1) b
    let y ← symbolAt (offset + 2) c
    let z ← symbolAt (offset + 3) d
    let tail ← groups (offset + 4) (e :: rest)
    return ungroup w x y z ++ tail
  | bs => lastGroup offset bs

/-- The bytes of a base64 text. A text with one byte too many that ends in a foreign byte reports
that byte before anything else. -/
def decode (s : String) : Except Fault Bytes :=
  let bs := utf8 s
  match bs with
  | [] => .ok []
  | b :: rest =>
    let last := rest.getLastD b
    if bs.length % 4 = 1 ∧ valueOf? last = none ∧ last ≠ pad then
      .error (.invalidByte (bs.length - 1) last)
    else groups 0 bs

end Preferences.Base64
