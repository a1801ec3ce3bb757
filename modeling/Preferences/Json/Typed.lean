import Preferences.Json.Skip

/-!
# Reading values of a known type

Readers for scalars of a given type, for aggregates that may be written as a list or as an object,
and for values that are one of several named variants.
-/

namespace Preferences.Json

open JsonFault

/-- The integer of a range that a number holds. -/
def wordOf (w : Width) : JsonNumber → Except Cause (Word w)
  | .int z =>
    match Ranged.ofInt? z.val with
    | some v => .ok v
    | none => .error (.invalidValue (.number (.int z)) w.label)
  | .float x => .error (.invalidType (.number (.float x)) w.label)

/-- Reads an integer of a range. -/
def word (w : Width) (cs : List Char) : Except JsonFault (Word w × List Char) := do
  let (c, ds) ← beforeValue cs
  if c = '-' ∨ c.isDigit then
    let (n, rest) ← numberHead (c :: ds)
    match wordOf w n with
    | .ok v => return (v, rest)
    | .error cause => .error (here cause rest)
  else .error (mismatch w.label (c :: ds))

/-- Reads the digits of an integer of any size: digits only, of which a leading zero stands
alone. -/
def plainDigits : List Char → Read (List Char)
  | [] => .error (here .invalidNumber [])
  | c :: cs =>
    if c = '0' then
      match cs with
      | d :: _ => if d.isDigit then .error (ahead .invalidNumber cs) else .ok ([c], cs)
      | [] => .ok ([c], [])
    else if c.isDigit then
      .ok (c :: cs.takeWhile Char.isDigit, cs.dropWhile Char.isDigit)
    else .error (ahead .invalidNumber (c :: cs))

/-- Reads an integer of a range of 128 bits. -/
def bigWord (w : Width) (cs : List Char) : Except JsonFault (Word w × List Char) := do
  let (c, ds) ← beforeValue cs
  let (negative, ds) ←
    if c = '-' then
      if w.lo < 0 then .ok (true, ds) else .error (ahead .numberOutOfRange (c :: ds))
    else .ok (false, c :: ds)
  let (digits, rest) ← plainDigits ds
  let n : Int := Nat.ofDigitChars 10 digits 0
  match Ranged.ofInt? (if negative then -n else n) with
  | some v => return (v, rest)
  | none => .error (here .numberOutOfRange rest)

/-- The binary number of a JSON number. -/
def floatOf : JsonNumber → Float
  | .int z =>
    if z.val < 0 then -z.val.natAbs.toUInt64.toFloat else z.val.natAbs.toUInt64.toFloat
  | .float x => x

/-- Reads a binary number. -/
def real (cs : List Char) : Except JsonFault (Float × List Char) := do
  let (c, ds) ← beforeValue cs
  if c = '-' ∨ c.isDigit then
    let (n, rest) ← numberHead (c :: ds)
    return (floatOf n, rest)
  else .error (mismatch "f64" (c :: ds))

/-- Reads a truth value. -/
def flag (cs : List Char) : Except JsonFault (Bool × List Char) := do
  let (c, ds) ← beforeValue cs
  if c = 't' then
    let rest ← literal ['r', 'u', 'e'] ds
    return (true, rest)
  else if c = 'f' then
    let rest ← literal ['a', 'l', 's', 'e'] ds
    return (false, rest)
  else .error (mismatch "a boolean" (c :: ds))

/-- Reads a string that stands for something else, which may refuse it. -/
def textAs {α : Type} (expected : String) (interpret : String → Except Cause α) (cs : List Char) :
    Except JsonFault (α × List Char) := do
  let (c, ds) ← beforeValue cs
  if c = '"' then
    let (s, rest) ← stringRest ds
    match interpret s with
    | .ok a => return (a, rest)
    | .error cause => .error (here cause rest)
  else .error (mismatch expected (c :: ds))

/-- Reads a string. -/
def text : List Char → Read String := textAs "a string" .ok

/-- Reads `null`. -/
def unit (cs : List Char) : Except JsonFault (Unit × List Char) := do
  let (c, ds) ← beforeValue cs
  if c = 'n' then
    let rest ← literal ['u', 'l', 'l'] ds
    return ((), rest)
  else .error (mismatch "unit" (c :: ds))

/-- Reads `null` as no value, and anything else as a value. -/
def optional {α : Type} (reader : List Char → Read α) (cs : List Char) :
    Except JsonFault (Option α × List Char) := do
  match skipSpace cs with
  | 'n' :: ds =>
    let rest ← literal ['u', 'l', 'l'] ds
    return (none, rest)
  | ds =>
    let (a, rest) ← reader ds
    return (some a, rest)

/-- Runs a reader one bracket deeper; `cs` begins with that bracket. -/
def deeper {α : Type} (depth : Nat) (body : Nat → Read α) (cs : List Char) : Read α :=
  match depth with
  | 0 => .error (ahead .recursionLimit cs)
  | d + 1 => body d

/-- Reads a value written as a list. -/
def sequence {α : Type} (depth : Nat) (expected : String) (body : Nat → List Char → Read α)
    (cs : List Char) : Except JsonFault (α × List Char) := do
  let (c, ds) ← beforeValue cs
  if c = '[' then deeper depth (fun d => closing closeList (body d ds)) (c :: ds)
  else .error (mismatch expected (c :: ds))

/-- Reads a value written as an object. -/
def mapping {α : Type} (depth : Nat) (expected : String) (body : Nat → List Char → Read α)
    (cs : List Char) : Except JsonFault (α × List Char) := do
  let (c, ds) ← beforeValue cs
  if c = '\x7b' then deeper depth (fun d => closing closeObject (body d ds)) (c :: ds)
  else .error (mismatch expected (c :: ds))

/-- Reads a value written as a list or as an object. -/
def aggregate {α : Type} (depth : Nat) (expected : String)
    (ofList ofObject : Nat → List Char → Read α)
    (cs : List Char) : Except JsonFault (α × List Char) := do
  let (c, ds) ← beforeValue cs
  if c = '[' then deeper depth (fun d => closing closeList (ofList d ds)) (c :: ds)
  else if c = '\x7b' then deeper depth (fun d => closing closeObject (ofObject d ds)) (c :: ds)
  else .error (mismatch expected (c :: ds))

/-- Reads the name of a variant. -/
def variantName (known : List String) : List Char → Read String :=
  textAs "variant identifier" fun s =>
    if s ∈ known then .ok s else .error (.unknownVariant s known)

/-- Reads a variant: its name alone, or an object with its name as the only key. -/
def variant {α : Type} (depth : Nat) (known : List String) (alone : String → List Char → Read α)
    (keyed : String → Nat → List Char → Read α) (cs : List Char) :
    Except JsonFault (α × List Char) := do
  match skipSpace cs with
  | [] => .error (ahead .eofValue [])
  | c :: ds =>
    if c = '\x7b' then
      match depth with
      | 0 => .error (ahead .recursionLimit (c :: ds))
      | d + 1 =>
        let (more, ds) ← nextMember true ds
        if !more then .error (ahead .expectedValue ds)
        let (name, rest) ← variantName known ds
        let rest ← colon rest
        let (a, rest) ← keyed name d rest
        match skipSpace rest with
        | [] => .error (here .eofObject [])
        | e :: es => if e = '\x7d' then return (a, es) else .error (here .expectedValue (e :: es))
    else if c = '"' then
      let (name, rest) ← variantName known (c :: ds)
      alone name rest
    else .error (ahead .expectedValue (c :: ds))

/-- Reads a key that is a number in quotes, from its opening quote on. -/
def wordKey (w : Width) (cs : List Char) : Except JsonFault (Word w × List Char) := do
  let ds := cs.tail
  match ds with
  | [] => .error (here .expectedNumericKey [])
  | c :: _ =>
    if !(c == '-' || c.isDigit) then .error (here .expectedNumericKey ds)
    let (k, rest) ← word w ds
    match rest with
    | '"' :: rest => return (k, rest)
    | _ => .error (ahead .expectedQuote rest)

end Preferences.Json
