import Preferences.Cipher.Aes

/-!
# Galois/Counter Mode

Sealing and opening of byte strings under a key of 32 bytes and a nonce of twelve, with AES-256 as
the block cipher. The text is crossed with a keystream, so opening crosses it again.
-/

namespace Preferences.Gcm

/-- The number that bytes write, the first one most significant. -/
def numberOf (bs : Bytes) : Nat := bs.foldl (fun n b => 256 * n + b.toNat) 0

/-- The big-endian bytes of a number, `size` of them. -/
def bytesOf (size n : Nat) : Bytes :=
  (List.range size).map fun i => UInt8.ofNat (n / Nat.pow 256 (size - 1 - i))

/-- Multiplies in the field of 128 bits, going on from bit `n` of the first factor. -/
def multiplyFrom (x : Nat) : Nat → Nat → Nat → Nat
  | 0, _, z => z
  | n + 1, v, z =>
    let z := if x.testBit n then z ^^^ v else z
    -- the highest bit stands for the lowest power, so a shift to the right multiplies
    let v := if v.testBit 0 then (v >>> 1) ^^^ (0xe1 <<< 120) else v >>> 1
    multiplyFrom x n v z

/-- The product in the field of 128 bits. -/
def multiply (x y : Nat) : Nat := multiplyFrom x 128 y 0

/-- Hashes whole and partial blocks into a number; the fuel bounds their number. -/
def hashBlocks (h : Nat) : Nat → Nat → Bytes → Nat
  | 0, y, _ => y
  | _, y, [] => y
  | fuel + 1, y, bs =>
    let block := bs.take 16
    let padded := block ++ List.replicate (16 - block.length) 0
    hashBlocks h fuel (multiply (y ^^^ numberOf padded) h) (bs.drop 16)

/-- The keystream from a counter on, block by block. -/
def keystream (keys : List Bytes) (nonce : Bytes) : Nat → Nat → Bytes
  | 0, _ => []
  | n + 1, counter =>
    Aes.encryptWith keys (nonce ++ bytesOf 4 counter) ++ keystream keys nonce n (counter + 1)

/-- Crosses bytes with those of a mask, of which missing ones are zero. -/
def cross : Bytes → Bytes → Bytes
  | [], _ => []
  | b :: bs, [] => b :: bs
  | b :: bs, m :: ms => (b ^^^ m) :: cross bs ms

/-- Encrypts or decrypts a text. -/
def crypt (keys : List Bytes) (nonce text : Bytes) : Bytes :=
  -- counter 1 is left to the tag
  cross text (keystream keys nonce ((text.length + 15) / 16) 2)

/-- The tag of an encrypted text. -/
def tag (keys : List Bytes) (nonce sealedText : Bytes) : Bytes :=
  let h := numberOf (Aes.encryptWith keys (List.replicate 16 0))
  let y := hashBlocks h (sealedText.length + 1) 0 sealedText
  -- the last block is the length in bits; nothing but the text is authenticated
  let s := multiply (y ^^^ (8 * sealedText.length)) h
  cross (bytesOf 16 s) (Aes.encryptWith keys (nonce ++ bytesOf 4 1))

/-- The size of a tag. -/
def tagSize : Nat := 16

/-- Encrypts a text and puts its tag behind it. -/
def sealText (key nonce text : Bytes) : Bytes :=
  let keys := Aes.roundKeys key
  let body := crypt keys nonce text
  body ++ tag keys nonce body

/-- The text of a sealed one, if its tag is right. -/
def openText? (key nonce sealedText : Bytes) : Option Bytes :=
  let keys := Aes.roundKeys key
  let size := sealedText.length - tagSize
  let body := sealedText.take size
  if tagSize ≤ sealedText.length ∧ sealedText.drop size = tag keys nonce body then
    some (crypt keys nonce body)
  else none

/-- A mask takes no bytes away and adds none. -/
theorem length_cross (bs mask : Bytes) : (cross bs mask).length = bs.length := by
  induction bs generalizing mask with
  | nil => rfl
  | cons b bs ih =>
    cases mask with
    | nil => rfl
    | cons m mask => exact congrArg (· + 1) (ih mask)

/-- Crossing with the same mask again undoes it. -/
theorem cross_cross (bs mask : Bytes) : cross (cross bs mask) mask = bs := by
  induction bs generalizing mask with
  | nil => rfl
  | cons b bs ih =>
    cases mask with
    | nil => rfl
    | cons m mask => rw [cross, cross, ih, UInt8.xor_assoc, UInt8.xor_self, UInt8.xor_zero]

/-- To apply the key stream twice gives the text back. -/
theorem crypt_crypt (keys : List Bytes) (nonce text : Bytes) :
    crypt keys nonce (crypt keys nonce text) = text := by
  have same : (crypt keys nonce text).length = text.length := length_cross _ _
  rw [crypt, same]
  exact cross_cross _ _

/-- A tag has its size. -/
theorem length_tag (keys : List Bytes) (nonce sealedText : Bytes) :
    (tag keys nonce sealedText).length = tagSize := by
  rw [tag, length_cross, bytesOf, List.length_map, List.length_range]
  rfl

/-- A sealed text has at least its tag. -/
theorem sealText_ne_nil (key nonce text : Bytes) : sealText key nonce text ≠ [] := by
  intro empty
  have short := congrArg List.length empty
  rw [sealText, List.length_append, length_tag] at short
  simp [tagSize] at short

/-- What was sealed is opened under the same key and nonce. -/
theorem openText?_sealText (key nonce text : Bytes) :
    openText? key nonce (sealText key nonce text) = some text := by
  have size (body : Bytes) :
      (body ++ tag (Aes.roundKeys key) nonce body).length - tagSize = body.length := by
    rw [List.length_append, length_tag, Nat.add_sub_cancel]
  have long (body : Bytes) : tagSize ≤ (body ++ tag (Aes.roundKeys key) nonce body).length := by
    rw [List.length_append, length_tag]
    exact Nat.le_add_left _ _
  simp only [openText?, sealText, size, List.take_left, List.drop_left, crypt_crypt]
  exact if_pos ⟨long _, trivial⟩

end Preferences.Gcm
