import Preferences.Number.Ranged

/-!
# Integers and truth values from words

A word is read from the left and refused at its first foreign character or where its value leaves
the range, whichever comes first.
-/

namespace Preferences

/-- Why a word is no integer of a range. -/
inductive IntegerFault where
  | empty
  | invalidDigit
  | tooLarge
  | tooSmall
  deriving DecidableEq

/-- The words for a fault. -/
def IntegerFault.message : IntegerFault → String
  | empty => "cannot parse integer from empty string"
  | invalidDigit => "invalid digit found in string"
  | tooLarge => "number too large to fit in target type"
  | tooSmall => "number too small to fit in target type"

/-- The value of a decimal digit. -/
def digitValue (c : Char) : Nat := c.toNat - '0'.toNat

/-- Appends digits to a magnitude that may not pass `limit`. -/
def magnitude (limit : Nat) (overflow : IntegerFault) : Nat → List Char → Except IntegerFault Nat
  | n, [] => .ok n
  | n, c :: cs =>
    if !c.isDigit then .error .invalidDigit
    else if limit < 10 * n + digitValue c then .error overflow
    else magnitude limit overflow (10 * n + digitValue c) cs

/-- Reads an integer of a range: an optional sign, of which `-` only where the range has negative
integers, and digits. -/
def Word.parse (w : Width) (cs : List Char) : Except IntegerFault (Word w) :=
  let positive (ds : List Char) : Except IntegerFault (Word w) := do
    let n ← magnitude w.hi.toNat .tooLarge 0 ds
    match Ranged.ofInt? (Int.ofNat n) with
    | some z => return z
    | none => .error .tooLarge
  let negative (ds : List Char) : Except IntegerFault (Word w) := do
    let n ← magnitude (-w.lo).toNat .tooSmall 0 ds
    match Ranged.ofInt? (-Int.ofNat n) with
    | some z => return z
    | none => .error .tooSmall
  match cs with
  | [] => .error .empty
  | ['+'] | ['-'] => .error .invalidDigit
  | '+' :: ds => positive ds
  -- without negative integers the sign is a foreign character
  | '-' :: ds => if w.lo < 0 then negative ds else positive cs
  | _ => positive cs

/-- Reads `true` or `false`. -/
def parseBool (s : String) : Option Bool :=
  if s = "true" then some true else if s = "false" then some false else none

end Preferences
