import Preferences.Json.Reader

/-!
# Skipping JSON values

A member that nobody asked for is passed over: its form is checked, its nesting is not limited, and
neither the halves of surrogate pairs nor the sizes of numbers are looked at.
-/

namespace Preferences.Json

open JsonFault

/-- Passes over a string after its opening quote. -/
def skipString : List Char → Except JsonFault (List Char)
  | [] => .error (here .eofString [])
  | c :: cs =>
    if c = '"' then .ok cs
    else if c = '\\' then
      match cs with
      | [] => .error (here .eofString [])
      | e :: ds =>
        if (shortEscape e).isSome then skipString ds
        else if e = 'u' then
          match ds with
          | w :: x :: y :: z :: es =>
            if (hexFour w x y z).isSome then skipString es else .error (hexFault ds)
          | _ => .error (hexFault ds)
        else .error (ahead .invalidEscape (e :: ds))
    else if c.toNat < 0x20 then .error (here .controlCharacter (c :: cs))
    else skipString cs

/-- Passes over an exponent after its mark. -/
def skipExponent (cs : List Char) : Except JsonFault (List Char) :=
  let cs := match cs with
    | '+' :: ds | '-' :: ds => ds
    | _ => cs
  match cs with
  | [] => .error (here .invalidNumber [])
  | c :: ds =>
    if c.isDigit then .ok (ds.dropWhile Char.isDigit) else .error (ahead .invalidNumber (c :: ds))

/-- Passes over an exponent if there is one. -/
def skipExponent? (cs : List Char) : Except JsonFault (List Char) :=
  match cs with
  | c :: ds => if c = 'e' ∨ c = 'E' then skipExponent ds else .ok cs
  | [] => .ok []

/-- Passes over what follows the leading digits of a number. -/
def skipFraction (cs : List Char) : Except JsonFault (List Char) :=
  match cs with
  | '.' :: ds =>
    match ds with
    | d :: es =>
      if d.isDigit then skipExponent? (es.dropWhile Char.isDigit)
      else .error (ahead .invalidNumber ds)
    | [] => .error (ahead .invalidNumber [])
  | _ => skipExponent? cs

/-- Passes over a number after its sign. -/
def skipNumber : List Char → Except JsonFault (List Char)
  | [] => .error (here .invalidNumber [])
  | c :: cs =>
    if c = '0' then
      match cs with
      | d :: _ => if d.isDigit then .error (ahead .invalidNumber cs) else skipFraction cs
      | [] => .ok []
    else if c.isDigit then skipFraction (cs.dropWhile Char.isDigit)
    else .error (ahead .invalidNumber (c :: cs))

/-- Passes over the items of a list up to and with its closing bracket. -/
def skipItems (item : List Char → Except JsonFault (List Char)) :
    Nat → Bool → List Char → Except JsonFault (List Char)
  | 0, _, cs => .error (here .eofList cs)
  | fuel + 1, first, cs =>
    match skipSpace cs with
    | [] => .error (ahead .eofList [])
    | c :: ds =>
      if c = ']' then .ok ds
      else if first then do
        let cs ← item (c :: ds)
        skipItems item fuel false cs
      else if c = ',' then do
        let cs ← item ds
        skipItems item fuel false cs
      else .error (ahead .expectedListCommaOrEnd (c :: ds))

/-- Passes over a member from its key on. -/
def skipMember (item : List Char → Except JsonFault (List Char)) (cs : List Char) :
    Except JsonFault (List Char) :=
  match skipSpace cs with
  | [] => .error (ahead .eofObject [])
  | c :: ds =>
    if c = '"' then do
      let cs ← skipString ds
      let cs ← colon cs
      item cs
    else .error (ahead .keyMustBeString (c :: ds))

/-- Passes over the members of an object up to and with its closing brace. -/
def skipMembers (item : List Char → Except JsonFault (List Char)) :
    Nat → Bool → List Char → Except JsonFault (List Char)
  | 0, _, cs => .error (here .eofObject cs)
  | fuel + 1, first, cs =>
    match skipSpace cs with
    | [] => .error (ahead .eofObject [])
    | c :: ds =>
      if c = '\x7d' then .ok ds
      else if first then do
        let cs ← skipMember item (c :: ds)
        skipMembers item fuel false cs
      else if c = ',' then do
        let cs ← skipMember item ds
        skipMembers item fuel false cs
      else .error (ahead .expectedObjectCommaOrEnd (c :: ds))

/-- Passes over a value. The fuel bounds the nesting. -/
def skipValue : Nat → List Char → Except JsonFault (List Char)
  | 0, cs => .error (here .eofValue cs)
  | fuel + 1, cs => do
    let (c, ds) ← beforeValue cs
    if c = 'n' then literal ['u', 'l', 'l'] ds
    else if c = 't' then literal ['r', 'u', 'e'] ds
    else if c = 'f' then literal ['a', 'l', 's', 'e'] ds
    else if c = '-' then skipNumber ds
    else if c.isDigit then skipNumber (c :: ds)
    else if c = '"' then skipString ds
    else if c = '[' then skipItems (skipValue fuel) (ds.length + 1) true ds
    else if c = '\x7b' then skipMembers (skipValue fuel) (ds.length + 1) true ds
    else .error (ahead .expectedValue (c :: ds))

/-- Passes over the next value. -/
def skip (cs : List Char) : Except JsonFault (List Char) := skipValue (cs.length + 1) cs

end Preferences.Json
