import Preferences.Number.Parse
import Preferences.Text.Characters
import Preferences.Time.Instant

/-!
# Texts of instants

Instants are written as `2024-03-01T12:00:00Z`, with a fraction of three, six or nine digits where
there is one. They are read in a relaxed form of that text, with any offset from universal time.
-/

namespace Preferences.Timestamp

/-- A number with zeros before it up to a width. -/
def padded (width n : Nat) : List Char :=
  let ds := natDigits n
  List.replicate (width - ds.length) '0' ++ ds

/-- A year: four digits, and a sign outside the years 0 to 9999. -/
def yearChars (year : Int) : List Char :=
  if 0 ≤ year ∧ year ≤ 9999 then padded 4 year.toNat
  else (if year < 0 then '-' else '+') :: padded 4 year.natAbs

/-- A fraction of a second in the fewest groups of three digits. -/
def fractionChars (nanos : Nat) : List Char :=
  if nanos = 0 then []
  else if nanos % 1000000 = 0 then '.' :: padded 3 (nanos / 1000000)
  else if nanos % 1000 = 0 then '.' :: padded 6 (nanos / 1000)
  else '.' :: padded 9 nanos

/-- The text of an instant. Nanoseconds of a second more make it the next second, which for a leap
second is the sixtieth of its minute. -/
def render (t : Instant) : List Char :=
  let leap := nanosPerSecond ≤ t.nanos
  let second := t.second % 60 + (if leap then 1 else 0)
  let nanos := t.nanos - (if leap then nanosPerSecond else 0)
  yearChars t.date.year ++ ['-'] ++ padded 2 t.date.month ++ ['-'] ++ padded 2 t.date.day ++
    ['T'] ++ padded 2 (t.second / 3600) ++ [':'] ++ padded 2 (t.second / 60 % 60) ++ [':'] ++
    padded 2 second ++ fractionChars nanos ++ ['Z']

/-- Why a text is no instant. -/
inductive Fault where
  | outOfRange
  | impossible
  | invalid
  | tooShort
  | tooLong
  deriving DecidableEq

/-- The words for a fault. -/
def Fault.message : Fault → String
  | outOfRange => "input is out of range"
  | impossible => "no possible date and time matching input"
  | invalid => "input contains invalid characters"
  | tooShort => "premature end of input"
  | tooLong => "trailing input"

/-- The characters after any blanks. -/
def skipBlank (cs : List Char) : List Char := cs.dropWhile isBlank

/-- Reads one to `width` digits. -/
def digits (width : Nat) (cs : List Char) : Except Fault (List Char × List Char) :=
  match cs with
  | [] => .error .tooShort
  | c :: _ =>
    if !c.isDigit then .error .invalid
    else
      let ds := (cs.take width).takeWhile Char.isDigit
      .ok (ds, cs.drop ds.length)

/-- The number that digits write. -/
def numberOf (ds : List Char) : Nat := Nat.ofDigitChars 10 ds 0

/-- Reads a number of at most `width` digits, after blanks, that is no more than `hi` and no less
than `lo`. -/
def field (width lo hi : Nat) (cs : List Char) : Except Fault (Nat × List Char) := do
  let (ds, rest) ← digits width (skipBlank cs)
  let n := numberOf ds
  if lo ≤ n ∧ n ≤ hi then return (n, rest) else .error .outOfRange

/-- Reads digits whose number fits into 64 bits with a sign. -/
def longNumber (cs : List Char) : Except Fault (Nat × List Char) := do
  let (ds, rest) ← digits cs.length cs
  if numberOf ds < 0x8000000000000000 then return (numberOf ds, rest) else .error .outOfRange

/-- Reads a year after blanks: four digits at most, or any number of them after a sign. -/
def year (cs : List Char) : Except Fault (Int × List Char) := do
  let (y, rest) : Int × List Char ← match skipBlank cs with
    | '-' :: ds => (longNumber ds).map fun p => (-Int.ofNat p.1, p.2)
    | '+' :: ds => (longNumber ds).map fun p => (Int.ofNat p.1, p.2)
    | ds => (digits 4 ds).map fun p => (Int.ofNat (numberOf p.1), p.2)
  if -0x80000000 ≤ y ∧ y < 0x80000000 then return (y, rest) else .error .outOfRange

/-- Reads a sign. -/
def mark (c : Char) : List Char → Except Fault (List Char)
  | [] => .error .tooShort
  | d :: ds => if d = c then .ok ds else .error .invalid

/-- Reads a sign after blanks. -/
def separator (c : Char) (cs : List Char) : Except Fault (List Char) := mark c (skipBlank cs)

/-- Reads a fraction of a second in nanoseconds, if there is one. Digits after the ninth are
dropped. -/
def fraction (cs : List Char) : Except Fault (Nat × List Char) :=
  match cs with
  | '.' :: ds => do
    let (fs, rest) ← digits 9 ds
    return (numberOf fs * Nat.pow 10 (9 - fs.length), rest.dropWhile Char.isDigit)
  | _ => .ok (0, cs)

/-- The two bytes at the head of a text, where both are digits or not. -/
def twoDigits (cs : List Char) : Except Fault (Char × Char × List Char) :=
  match cs with
  | a :: b :: rest => if a.utf8Size + b.utf8Size = 2 then .ok (a, b, rest) else .error .invalid
  | [a] => if a.utf8Size = 1 then .error .tooShort else .error .invalid
  | [] => .error .tooShort

/-- Reads an offset from universal time in seconds. -/
def offset (cs : List Char) : Except Fault (Int × List Char) := do
  match cs with
  | [] => .error .tooShort
  | c :: ds =>
    if c = 'Z' ∨ c = 'z' then return (0, ds)
    if (cs.take 3).map Char.toUpper = ['U', 'T', 'C'] then return (0, cs.drop 3)
    -- the third one is the minus sign of mathematics
    if c ≠ '+' ∧ c ≠ '-' ∧ c ≠ '−' then .error .invalid
    let (a, b, rest) ← twoDigits ds
    if !(a.isDigit && b.isDigit) then .error .invalid
    let rest := rest.dropWhile fun d => d == ':' || isBlank d
    let (x, y, rest) ← twoDigits rest
    if !(x.isDigit && y.isDigit) then .error .invalid
    -- hours beyond a day are refused later, when the text has been read to its end
    if '6' ≤ x then .error .outOfRange
    let seconds := Int.ofNat (3600 * numberOf [a, b] + 60 * numberOf [x, y])
    return (if c = '+' then seconds else -seconds, rest)

/-- The instant of the parts of a text. -/
def assemble (y : Int) (mo d h mi s nanos : Nat) (off : Int) : Except Fault Instant := do
  let leap := s == 60
  let some date := Date.ofParts? y mo d | .error .outOfRange
  let second := 3600 * h + 60 * mi + (if leap then 59 else s)
  let some t := Instant.ofParts? date second (nanos + (if leap then nanosPerSecond else 0))
    | .error .outOfRange
  if off ≤ -86400 ∨ 86400 ≤ off then .error .outOfRange
  match t.shift? (-off) with
  | some t => return t
  | none => .error .impossible

/-- Reads an instant: blanks may stand before each part, and the date and the time are divided by
`T`, `t` or a blank. -/
def parse (cs : List Char) : Except Fault Instant := do
  let (y, cs) ← year cs
  let cs ← separator '-' cs
  let (mo, cs) ← field 2 1 12 cs
  let cs ← separator '-' cs
  let (d, cs) ← field 2 1 31 cs
  let cs ← match cs with
    | [] => .error .tooShort
    | c :: ds => if c = 'T' ∨ c = 't' ∨ c = ' ' then .ok ds else .error .invalid
  let (h, cs) ← field 2 0 23 cs
  let cs ← separator ':' cs
  let (mi, cs) ← field 2 0 59 cs
  let cs ← separator ':' cs
  let (s, cs) ← field 2 0 60 cs
  let (nanos, cs) ← fraction cs
  let (off, cs) ← offset (skipBlank cs)
  match skipBlank cs with
  | [] => assemble y mo d h mi s nanos off
  | _ => .error .tooLong

end Preferences.Timestamp
