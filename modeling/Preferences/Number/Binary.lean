import Preferences.Number.Ranged

/-!
# Binary64 numbers and their decimal texts

A significand and a decimal exponent become a number by one rounded multiplication or division by a
power of ten, or several divisions where the exponent is far below zero. The text of a number is the
shortest one: a finite number is `m · 2 ^ q` exactly, and among the decimals with the fewest digits
that round to it, the nearest is chosen, by exact arithmetic on natural numbers.
-/

namespace Preferences

/-! ## Numbers from decimal parts -/

/-- The binary64 number nearest to `10 ^ n`. -/
def powerOfTen (n : Nat) : Float := Float.ofScientific 1 false n

/-- Divides by `10 ^ 308` while the exponent is below `-308` and the number is not zero. -/
def shrink : Nat → Float → Int → Float × Int
  | 0, x, e => (x, e)
  | fuel + 1, x, e =>
    if e < -308 ∧ ¬(x == 0) then shrink fuel (x / powerOfTen 308) (e + 308) else (x, e)

/-- `significand · 10 ^ e`, unless it is too large. A significand of at most 64 bits is zero after
three divisions by `10 ^ 308`. -/
def scaleByTen (significand : Nat) (e : Int) : Option Float :=
  let x := significand.toUInt64.toFloat
  if e < 0 then
    let (y, k) := shrink 4 x e
    if y == 0 then some y else some (y / powerOfTen (-k).toNat)
  else if e ≤ 308 then
    let y := x * powerOfTen e.toNat
    if y.isInf then none else some y
  else if x == 0 then some x
  else none

/-! ## Shortest decimal texts -/

/-- A positive binary64 number as `mantissa · 2 ^ exponent`. -/
structure Dyadic where
  mantissa : Nat
  exponent : Int
  /-- Is the gap to the next smaller number half the gap to the next larger one? -/
  narrowBelow : Bool

/-- The magnitude of a finite nonzero number. -/
def Dyadic.ofFloat (x : Float) : Dyadic :=
  let bits := x.toBits.toNat
  let fraction := bits % Nat.pow 2 52
  let biased := bits / Nat.pow 2 52 % Nat.pow 2 11
  if biased = 0 then ⟨fraction, -1074, false⟩
  else ⟨Nat.pow 2 52 + fraction, Int.ofNat biased - 1075, fraction == 0 && 1 < biased⟩

/-- A positive rational number, as a fraction. -/
structure Fraction where
  num : Nat
  den : Nat

/-- `n · 2 ^ q · 10 ^ -k` as a fraction. -/
def Fraction.scaled (n : Nat) (q k : Int) : Fraction :=
  ⟨n * Nat.pow 2 q.toNat * Nat.pow 10 (-k).toNat, Nat.pow 2 (-q).toNat * Nat.pow 10 k.toNat⟩

/-- Decimal digits with the place of the point: the number is `0.digits · 10 ^ point`. -/
structure Digits where
  digits : List Char
  point : Int

/-- A whole number of units `10 ^ k`, without its trailing zeros. -/
def Digits.ofUnits (n : Nat) (k : Int) : Digits :=
  let ds := natDigits n
  ⟨(ds.reverse.dropWhile (· == '0')).reverse, Int.ofNat ds.length + k⟩

/-- The multiple of `10 ^ k` that rounds to the number, if one of its two neighbours does: the
nearer of them, and of two equally near ones the even one. -/
def Dyadic.onGrid (d : Dyadic) (k : Int) : Option Nat :=
  -- in quarters of the last place the bounds, halfway to the neighbours, are whole
  let v := Fraction.scaled (4 * d.mantissa) (d.exponent - 2) k
  let gap := if d.narrowBelow then 1 else 2
  let low := (Fraction.scaled (4 * d.mantissa - gap) (d.exponent - 2) k).num
  let high := (Fraction.scaled (4 * d.mantissa + 2) (d.exponent - 2) k).num
  let inside (n : Nat) : Bool :=
    -- a bound itself is rounded to the even one of its two neighbours
    if d.mantissa % 2 = 0 then low ≤ n * v.den && n * v.den ≤ high
    else low < n * v.den && n * v.den < high
  let below := v.num / v.den
  let above := below + 1
  let up := v.num - below * v.den
  let down := above * v.den - v.num
  if inside below && 0 < below then
    if inside above && (down < up || (down = up && above % 2 = 0)) then some above else some below
  else if inside above then some above
  else none

/-- The exponent `k` with `10 ^ (k - 1) ≤ m · 2 ^ q < 10 ^ k`, searched upward from `k`. -/
def Dyadic.decade (d : Dyadic) : Nat → Int → Int
  | 0, k => k
  | fuel + 1, k =>
    let v := Fraction.scaled d.mantissa d.exponent k
    if v.num < v.den then k else d.decade fuel (k + 1)

/-- The first grid, from `n` digits on, with a multiple that rounds to the number. -/
def Dyadic.search (d : Dyadic) (decade : Int) : Nat → Nat → Digits
  | 0, n => .ofUnits ((d.onGrid (decade - Int.ofNat n)).getD 0) (decade - Int.ofNat n)
  | fuel + 1, n =>
    match d.onGrid (decade - Int.ofNat n) with
    | some units => .ofUnits units (decade - Int.ofNat n)
    | none => d.search decade fuel (n + 1)

/-- The shortest digits of a positive number. -/
def Dyadic.shortest (d : Dyadic) : Digits :=
  -- all numbers are between `10 ^ -324` and `10 ^ 309`, and 17 digits tell them apart
  d.search (d.decade 640 (-330)) 17 1

/-- Where positional notation begins and ends: a number is written with a point while
`least < point ≤ most`, and with an exponent otherwise. -/
structure FloatFormat where
  least : Int
  most : Int

/-- Numbers in JSON texts are positional from `0.00001` up to, not including, `10 ^ 16`. -/
def FloatFormat.json : FloatFormat := ⟨-5, 16⟩

/-- Writes digits. A number with a point keeps a digit on both sides of it. -/
def FloatFormat.write (f : FloatFormat) (d : Digits) : List Char :=
  let n := Int.ofNat d.digits.length
  if 0 < d.point ∧ d.point ≤ f.most then
    if n ≤ d.point then d.digits ++ List.replicate (d.point - n).toNat '0' ++ ['.', '0']
    else d.digits.take d.point.toNat ++ ['.'] ++ d.digits.drop d.point.toNat
  else if f.least < d.point ∧ d.point ≤ 0 then
    ['0', '.'] ++ List.replicate (-d.point).toNat '0' ++ d.digits
  else
    let e := d.point - 1
    let sign := if e < 0 then '-' else '+'
    let body := match d.digits with
      | [] => []
      | [c] => [c]
      | c :: cs => c :: '.' :: cs
    body ++ ['e', sign] ++ natDigits e.natAbs

/-- The text of a finite number in JSON. -/
def floatChars (x : Float) : List Char :=
  let sign := if x.toBits.toNat / Nat.pow 2 63 = 1 then ['-'] else []
  if x == 0 then sign ++ ['0', '.', '0']
  else sign ++ FloatFormat.json.write (Dyadic.ofFloat x).shortest

end Preferences
