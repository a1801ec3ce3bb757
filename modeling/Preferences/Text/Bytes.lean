/-!
# Bytes and their texts

Byte strings, their hexadecimal text, and UTF-8 with the place of the first fault.
-/

namespace Preferences

/-- A byte string. -/
abbrev Bytes := List UInt8

/-- The UTF-8 bytes of a text. -/
def utf8 (s : String) : Bytes := s.toByteArray.data.toList

/-- Bytes that a text in UTF-8 takes. -/
def utf8Size (cs : List Char) : Nat := cs.foldr (fun c n => c.utf8Size + n) 0

/-- Why bytes are no UTF-8 text. -/
inductive Utf8Fault where
  /-- The `length` bytes from `index` on begin no character. -/
  | invalid (length index : Nat)
  /-- The bytes from `index` on are a character cut short. -/
  | incomplete (index : Nat)
  deriving DecidableEq

/-- The words for a fault. -/
def Utf8Fault.message : Utf8Fault → String
  | invalid length index => s!"invalid utf-8 sequence of {length} bytes from index {index}"
  | incomplete index => s!"incomplete utf-8 byte sequence from index {index}"

namespace Utf8

/-- How many continuation bytes follow a first byte, and the range of the first of them. -/
def lead (b : UInt8) : Option (Nat × UInt8 × UInt8) :=
  if b < 0x80 then some (0, 0x80, 0xbf)
  else if b < 0xc2 then none
  else if b < 0xe0 then some (1, 0x80, 0xbf)
  else if b = 0xe0 then some (2, 0xa0, 0xbf)
  else if b = 0xed then some (2, 0x80, 0x9f)
  else if b < 0xf0 then some (2, 0x80, 0xbf)
  else if b = 0xf0 then some (3, 0x90, 0xbf)
  else if b < 0xf4 then some (3, 0x80, 0xbf)
  else if b = 0xf4 then some (3, 0x80, 0x8f)
  else none

/-- The fault in the continuation bytes of a character at `index` of which `seen` bytes are read. -/
def tailFault (index seen : Nat) (low high : UInt8) : Nat → Bytes → Option Utf8Fault
  | 0, _ => none
  | _ + 1, [] => some (.incomplete index)
  | n + 1, b :: bs =>
    if low ≤ b && b ≤ high then tailFault index (seen + 1) 0x80 0xbf n bs
    else some (.invalid seen index)

/-- The first fault of a byte string whose first byte is at `index`; the fuel bounds the number of
characters. -/
def firstFault : Nat → Nat → Bytes → Option Utf8Fault
  | 0, _, _ => none
  | _, _, [] => none
  | fuel + 1, index, b :: bs =>
    match lead b with
    | none => some (.invalid 1 index)
    | some (n, low, high) =>
      match tailFault index 1 low high n bs with
      | some fault => some fault
      | none => firstFault fuel (index + n + 1) (bs.drop n)

/-- The text of UTF-8 bytes. -/
def decode (bs : Bytes) : Except Utf8Fault String :=
  match String.fromUTF8? ⟨bs.toArray⟩ with
  | some s => .ok s
  | none => .error ((firstFault bs.length 0 bs).getD (.incomplete 0))

end Utf8

namespace Hex

/-- The two lower-case hexadecimal digits of a byte. -/
def ofByte (b : UInt8) : List Char :=
  [Nat.digitChar (b.toNat / 16), Nat.digitChar (b.toNat % 16)]

/-- The lower-case hexadecimal text of bytes. -/
def encode (bs : Bytes) : String := String.ofList (bs.flatMap ofByte)

/-- The value of a hexadecimal digit of either case. -/
def digit? (c : Char) : Option Nat :=
  if c.isDigit then some (c.toNat - 48)
  else if 'a' ≤ c ∧ c ≤ 'f' then some (c.toNat - 87)
  else if 'A' ≤ c ∧ c ≤ 'F' then some (c.toNat - 55)
  else none

/-- The bytes of a hexadecimal text with two digits a byte. -/
def decode : List Char → Option Bytes
  | [] => some []
  | [_] => none
  | a :: b :: cs =>
    match digit? a, digit? b, decode cs with
    | some x, some y, some bs => some (UInt8.ofNat (16 * x + y) :: bs)
    | _, _, _ => none

end Hex

end Preferences
