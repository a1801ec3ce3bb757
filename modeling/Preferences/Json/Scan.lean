import Preferences.Json.Fault
import Preferences.Number.Parse
import Preferences.Number.Binary

/-!
# Scalars of JSON texts

Blanks, literals, numbers and strings. Each reader takes the characters left and returns its value
with the characters after it.
-/

namespace Preferences.Json

open JsonFault

/-- Is the character one that may stand between the parts of a JSON text? -/
def isSpace (c : Char) : Bool := c == ' ' || c == '\n' || c == '\t' || c == '\r'

/-- The characters after any blanks. -/
def skipSpace (cs : List Char) : List Char := cs.dropWhile isSpace

/-- Reads the rest of a literal. -/
def literal : List Char → List Char → Except JsonFault (List Char)
  | [], cs => .ok cs
  | _ :: _, [] => .error (here .eofValue [])
  | e :: es, c :: cs => if c = e then literal es cs else .error (ahead .expectedIdent (c :: cs))

/-- The character of an escape of one letter. -/
def shortEscape (e : Char) : Option Char :=
  if e = '"' ∨ e = '\\' ∨ e = '/' then some e
  else if e = 'b' then some '\x08'
  else if e = 'f' then some '\x0c'
  else if e = 'n' then some '\n'
  else if e = 'r' then some '\r'
  else if e = 't' then some '\t'
  else none

/-- The value of four hexadecimal digits. -/
def hexFour (a b c d : Char) : Option Nat :=
  match Hex.digit? a, Hex.digit? b, Hex.digit? c, Hex.digit? d with
  | some w, some x, some y, some z => some (4096 * w + 256 * x + 16 * y + z)
  | _, _, _, _ => none

/-- The fault of a hexadecimal escape that does not have its four digits before `rest`. -/
def hexFault (rest : List Char) : JsonFault :=
  if utf8Size rest < 4 then here .eofString [] else placed .invalidEscape (utf8Size rest - 4)

/-- Is the code unit the first half of a surrogate pair? -/
def isHighSurrogate (n : Nat) : Bool := 0xd800 ≤ n && n ≤ 0xdbff

/-- Is the code unit the second half of a surrogate pair? -/
def isLowSurrogate (n : Nat) : Bool := 0xdc00 ≤ n && n ≤ 0xdfff

/-- The character of a surrogate pair. -/
def joinSurrogates (high low : Nat) : Char :=
  Char.ofNat (0x10000 + (high - 0xd800) * 1024 + (low - 0xdc00))

/-- Puts a character before those read after it. -/
def push (c : Char) : Read (List Char) → Read (List Char) :=
  Except.map fun p => (c :: p.1, p.2)

/-- Reads the characters of a string after its opening quote, up to and with the closing one. -/
def stringBody : List Char → Read (List Char)
  | [] => .error (here .eofString [])
  | c :: cs =>
    if c = '"' then .ok ([], cs)
    else if c = '\\' then
      match cs with
      | [] => .error (here .eofString [])
      | e :: ds =>
        match shortEscape e with
        | some x => push x (stringBody ds)
        | none =>
          if e = 'u' then
            match ds with
            | w :: x :: y :: z :: es =>
              match hexFour w x y z with
              | none => .error (hexFault ds)
              | some n =>
                -- a second half stands for nothing alone, and a first half only before a second one
                if isLowSurrogate n then .error (here .loneSurrogate es)
                else if isHighSurrogate n then
                  match es with
                  | [] => .error (here .eofString [])
                  | f :: fs =>
                    if f ≠ '\\' then .error (ahead .endOfHexEscape es)
                    else
                      match fs with
                      | [] => .error (here .eofString [])
                      | g :: gs =>
                        if g ≠ 'u' then .error (ahead .endOfHexEscape fs)
                        else
                          match gs with
                          | o :: p :: q :: r :: hs =>
                            match hexFour o p q r with
                            | none => .error (hexFault gs)
                            | some m =>
                              if isLowSurrogate m then push (joinSurrogates n m) (stringBody hs)
                              else .error (here .loneSurrogate hs)
                          | _ => .error (hexFault gs)
                else push (Char.ofNat n) (stringBody es)
            | _ => .error (hexFault ds)
          else .error (ahead .invalidEscape (e :: ds))
    else if c.toNat < 0x20 then .error (ahead .controlCharacter (c :: cs))
    else push c (stringBody cs)

/-- Reads a string after its opening quote. -/
def stringRest (cs : List Char) : Read String :=
  (stringBody cs).map fun p => (String.ofList p.1, p.2)

/-- Appends digits to a number while it does not pass `limit`. -/
def fit (limit : Nat) : Nat → List Char → Nat × List Char
  | n, [] => (n, [])
  | n, c :: cs =>
    if c.isDigit ∧ 10 * n + digitValue c ≤ limit then fit limit (10 * n + digitValue c) cs
    else (n, c :: cs)

/-- The greatest significand that is kept. -/
def maxSignificand : Nat := 0xffffffffffffffff

/-- A number with its sign. -/
def withSign (positive : Bool) (x : Float) : Float := if positive then x else -x

/-- The number `± significand · 10 ^ e`, read up to `rest`. -/
def scaled (positive : Bool) (significand : Nat) (e : Int) (rest : List Char) : Read JsonNumber :=
  match scaleByTen significand e with
  | some x => .ok (.float (withSign positive x), rest)
  | none => .error (here .numberOutOfRange rest)

/-- An exponent within 32 bits. -/
def clampExponent (e : Int) : Int := max (-0x80000000) (min 0x7fffffff e)

/-- Reads the exponent after its mark. -/
def exponent (positive : Bool) (significand : Nat) (start : Int) (cs : List Char) :
    Read JsonNumber :=
  let (up, cs) : Bool × List Char := match cs with
    | '+' :: ds => (true, ds)
    | '-' :: ds => (false, ds)
    | _ => (true, cs)
  match cs with
  | [] => .error (here .eofValue [])
  | c :: _ =>
    if !c.isDigit then .error (ahead .invalidNumber cs)
    else
      let (e, rest) := fit 0x7fffffff 0 cs
      match rest with
      | d :: ds =>
        if d.isDigit then
          -- the exponent has more than 32 bits: the number is too large, or as good as zero
          if significand ≠ 0 ∧ up then .error (here .numberOutOfRange ds)
          else .ok (.float (withSign positive 0), ds.dropWhile Char.isDigit)
        else scaled positive significand (clampExponent (if up then start + e else start - e)) rest
      | [] => scaled positive significand (clampExponent (if up then start + e else start - e)) rest

/-- Reads an exponent if there is one. -/
def exponent? (positive : Bool) (significand : Nat) (start : Int) (cs : List Char) :
    Read JsonNumber :=
  match cs with
  | c :: ds =>
    if c = 'e' ∨ c = 'E' then exponent positive significand start ds
    else scaled positive significand start cs
  | [] => scaled positive significand start cs

/-- Reads the digits after the point. Those that do not fit are dropped. -/
def decimals (positive : Bool) (significand : Nat) (start : Int) (cs : List Char) :
    Read JsonNumber :=
  let (n, rest) := fit maxSignificand significand cs
  let used := cs.length - rest.length
  match rest with
  | d :: ds =>
    if d.isDigit then exponent? positive n (start - used) (ds.dropWhile Char.isDigit)
    else if used = 0 then .error (ahead .invalidNumber rest)
    else exponent? positive n (start - used) rest
  | [] =>
    if used = 0 then .error (ahead .eofValue [])
    else exponent? positive n (start - used) []

/-- A whole number: an integer where one holds it exactly, and otherwise, as for a negative zero, a
binary number. -/
def whole (positive : Bool) (n : Nat) : JsonNumber :=
  let z : Int := if positive then n else -n
  match (if !positive && n == 0 then none else Ranged.ofInt? z : Option WireInt) with
  | some w => .int w
  | none => .float (withSign positive n.toUInt64.toFloat)

/-- Reads what follows the leading digits of a number. Further digits, which do not fit, raise the
exponent. -/
def afterDigits (positive : Bool) (significand : Nat) (cs : List Char) : Read JsonNumber :=
  let surplus := (cs.takeWhile Char.isDigit).length
  let rest := cs.dropWhile Char.isDigit
  match rest with
  | c :: ds =>
    if c = '.' then decimals positive significand surplus ds
    else if c = 'e' ∨ c = 'E' then exponent positive significand surplus ds
    else if surplus = 0 then .ok (whole positive significand, rest)
    else scaled positive significand surplus rest
  | [] =>
    if surplus = 0 then .ok (whole positive significand, rest)
    else scaled positive significand surplus rest

/-- Reads a number after its sign. A leading zero stands alone. -/
def unsigned (positive : Bool) : List Char → Read JsonNumber
  | [] => .error (here .eofValue [])
  | c :: cs =>
    if c = '0' then
      match cs with
      | d :: _ => if d.isDigit then .error (ahead .invalidNumber cs) else afterDigits positive 0 cs
      | [] => afterDigits positive 0 cs
    else if c.isDigit then
      let (n, rest) := fit maxSignificand (digitValue c) cs
      afterDigits positive n rest
    else .error (ahead .invalidNumber (c :: cs))

/-- Reads a number with its sign. -/
def numberHead (cs : List Char) : Read JsonNumber :=
  match cs with
  | '-' :: ds => unsigned false ds
  | _ => unsigned true cs

/-- Reads the scalar that begins with the first character, if one does. -/
def scalar? : List Char → Option (Read Json)
  | [] => none
  | c :: cs =>
    if c = 'n' then some ((literal ['u', 'l', 'l'] cs).map fun r => (null, r))
    else if c = 't' then some ((literal ['r', 'u', 'e'] cs).map fun r => (bool true, r))
    else if c = 'f' then some ((literal ['a', 'l', 's', 'e'] cs).map fun r => (bool false, r))
    else if c = '-' ∨ c.isDigit then
      some ((numberHead (c :: cs)).map fun p => (number p.1, p.2))
    else if c = '"' then some ((stringRest cs).map fun p => (string p.1, p.2))
    else none

/-- What a value is called where it was not expected. -/
def found : Json → Found
  | null => .null
  | bool b => .bool b
  | number n => .number n
  | string s => .string s
  | array _ => .sequence
  | object _ => .map

/-- The fault of a value that is not what was expected. A scalar is read first, and may be at fault
itself; a list or an object is not entered. -/
def mismatch (expected : String) (cs : List Char) : JsonFault :=
  match scalar? cs with
  | some (.ok (j, rest)) => here (.invalidType j.found expected) rest
  | some (.error fault) => fault.settle
  | none =>
    match cs with
    | '[' :: _ => here (.invalidType .sequence expected) cs
    | '\x7b' :: _ => here (.invalidType .map expected) cs
    | _ => ahead .expectedValue cs

/-- Skips blanks before a value, of which there must be one. -/
def beforeValue (cs : List Char) : Except JsonFault (Char × List Char) :=
  match skipSpace cs with
  | [] => .error (ahead .eofValue [])
  | c :: ds => .ok (c, ds)

end Preferences.Json
