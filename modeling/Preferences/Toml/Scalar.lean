import Preferences.Number.Parse
import Preferences.Toml.Basic

/-!
# TOML numbers, truth values and moments

All are read from a whole word.
-/

namespace Preferences.Toml

/-- The digits of a run in which single underscores may stand between two digits. -/
def digitRun (ok : Char → Bool) : List Char → Option (List Char)
  | [] => none
  | [c] => if ok c then some [c] else none
  | c :: d :: cs =>
    if !ok c then none
    else if d = '_' then (digitRun ok cs).map (c :: ·)
    else (digitRun ok (d :: cs)).map (c :: ·)

/-- The value of a digit of any base up to sixteen. -/
def digitOf (c : Char) : Nat :=
  if c.isDigit then digitValue c
  else if 'a' ≤ c then c.toNat - 'a'.toNat + 10
  else c.toNat - 'A'.toNat + 10

/-- The number that digits of a base write. -/
def numberIn (base : Nat) (ds : List Char) : Nat := ds.foldl (fun n d => base * n + digitOf d) 0

/-- Is the character a digit of base sixteen? -/
def isHexDigit (c : Char) : Bool := c.isDigit || ('a' ≤ c && c ≤ 'f') || ('A' ≤ c && c ≤ 'F')

/-- Digits without a leading zero, unless zero is all there is. -/
def plainRun (cs : List Char) : Option (List Char) :=
  match digitRun Char.isDigit cs with
  | some ('0' :: _ :: _) => none
  | ds => ds

/-- An integer of at most 128 bits. -/
def boundedInteger (z : Int) : Option TomlScalar :=
  if Width.int128.lo ≤ z ∧ z ≤ Width.nat128.hi then some (.integer z) else none

/-- A sign, and the rest. -/
def sign : List Char → Bool × List Char
  | '-' :: cs => (true, cs)
  | '+' :: cs => (false, cs)
  | cs => (false, cs)

/-- Reads an integer. -/
def integer? (cs : List Char) : Option TomlScalar :=
  match cs with
  | '0' :: 'x' :: ds => do boundedInteger (numberIn 16 (← digitRun isHexDigit ds))
  | '0' :: 'o' :: ds => do
    boundedInteger (numberIn 8 (← digitRun (fun c => '0' ≤ c && c ≤ '7') ds))
  | '0' :: 'b' :: ds => do
    boundedInteger (numberIn 2 (← digitRun (fun c => c == '0' || c == '1') ds))
  | cs => do
    let (negative, ds) := sign cs
    let n : Int := numberIn 10 (← plainRun ds)
    boundedInteger (if negative then -n else n)

/-- Is the decimal `0.digits` times ten to a power too large for a binary number? -/
def overflows (digits : List Char) (power : Int) : Bool :=
  let significant := digits.dropWhile (· == '0')
  let point := power - (digits.length - significant.length : Nat)
  if significant.isEmpty || point < 309 then false
  else if 309 < point then true
  else
    -- from halfway between the greatest number and `2 ^ 1024` on, rounding is to infinity
    let n := numberIn 10 significant * Nat.pow 10 (309 - significant.length)
    (Nat.pow 2 1024 - Nat.pow 2 970) * Nat.pow 10 (significant.length - 309) ≤ n

/-- Reads a number with a fraction or an exponent, or one that is none. -/
def float? (cs : List Char) : Option TomlScalar := do
  let (_, cs) := sign cs
  if cs = ['i', 'n', 'f'] ∨ cs = ['n', 'a', 'n'] then return .float
  let isMark (c : Char) := c == '.' || c == 'e' || c == 'E'
  let whole ← plainRun (cs.takeWhile fun c => !isMark c)
  let rest := cs.dropWhile fun c => !isMark c
  let (fraction, rest) ← match rest with
    | '.' :: ds => do
      let fraction ← digitRun Char.isDigit (ds.takeWhile fun c => !isMark c)
      pure (fraction, ds.dropWhile fun c => !isMark c)
    | ds => pure ([], ds)
  let exponent ← match rest with
    | [] => if fraction.isEmpty then none else pure 0
    | c :: ds =>
      if c = 'e' ∨ c = 'E' then do
        let (negative, ds) := sign ds
        let n : Int := numberIn 10 (← digitRun Char.isDigit ds)
        pure (if negative then -n else n)
      else none
  if overflows (whole ++ fraction) (whole.length + exponent) then none else return .float

/-- A number of two digits up to a limit. -/
def twoDigits? (limit : Nat) : List Char → Option (Nat × List Char)
  | a :: b :: cs =>
    let n := 10 * digitValue a + digitValue b
    if a.isDigit && b.isDigit && n ≤ limit then some (n, cs) else none
  | _ => none

/-- A character that has to be there. -/
def mark? (c : Char) : List Char → Option (List Char)
  | d :: cs => if d = c then some cs else none
  | [] => none

/-- The days of a month. -/
def daysOf (year month : Nat) : Nat :=
  if month = 2 then
    if year % 4 = 0 ∧ (year % 100 ≠ 0 ∨ year % 400 = 0) then 29 else 28
  else if month = 4 ∨ month = 6 ∨ month = 9 ∨ month = 11 then 30
  else 31

/-- Reads a date. -/
def date? (cs : List Char) : Option (List Char) := do
  let (century, cs) ← twoDigits? 99 cs
  let (years, cs) ← twoDigits? 99 cs
  let cs ← mark? '-' cs
  let (month, cs) ← twoDigits? 12 cs
  let cs ← mark? '-' cs
  let (day, cs) ← twoDigits? 31 cs
  if 1 ≤ month ∧ 1 ≤ day ∧ day ≤ daysOf (100 * century + years) month then some cs else none

/-- Reads a time of day, whose seconds may be left out. -/
def time? (cs : List Char) : Option (List Char) := do
  let (_, cs) ← twoDigits? 23 cs
  let cs ← mark? ':' cs
  let (_, cs) ← twoDigits? 59 cs
  match cs with
  | ':' :: cs =>
    let (_, cs) ← twoDigits? 60 cs
    match cs with
    | '.' :: c :: cs => if c.isDigit then some (cs.dropWhile Char.isDigit) else none
    | '.' :: [] => none
    | cs => some cs
  | cs => some cs

/-- Reads what may follow a date and a time: nothing or an offset. -/
def offset? : List Char → Option Unit
  | [] => some ()
  | ['Z'] => some ()
  | ['z'] => some ()
  | c :: cs =>
    if c = '+' ∨ c = '-' then do
      let (_, cs) ← twoDigits? 23 cs
      let cs ← mark? ':' cs
      let (_, cs) ← twoDigits? 59 cs
      if cs.isEmpty then some () else none
    else none

/-- Reads a date, a time of day or both. -/
def moment? (cs : List Char) : Option TomlScalar :=
  match date? cs with
  | some [] => some .moment
  | some (c :: ds) =>
    if c = 'T' ∨ c = 't' ∨ c = ' ' then do
      offset? (← time? ds)
      return .moment
    else none
  | none =>
    match time? cs with
    | some [] => some .moment
    | _ => none

/-- Reads any scalar. -/
def scalar? (cs : List Char) : Option TomlScalar :=
  if cs = ['t', 'r', 'u', 'e'] then some (.boolean true)
  else if cs = ['f', 'a', 'l', 's', 'e'] then some (.boolean false)
  else (integer? cs).or ((float? cs).or (moment? cs))

end Preferences.Toml
