import Preferences.Json.Scan

/-!
# Reading JSON values

The loops over the items of a list and the members of an object, shared by all readers, and the
reader of any value. A reader of nested values takes the number of brackets that may still be
opened.
-/

namespace Preferences.Json

open JsonFault

/-- Is there another item? Stops before the item or the closing bracket. -/
def nextItem (first : Bool) (cs : List Char) : Read Bool :=
  match skipSpace cs with
  | [] => .error (ahead .eofList [])
  | c :: ds =>
    if c = ']' then .ok (false, c :: ds)
    else if c = ',' ∧ !first then
      match skipSpace ds with
      | [] => .error (ahead .eofValue [])
      | e :: es =>
        if e = ']' then .error (ahead .trailingComma (e :: es)) else .ok (true, e :: es)
    else if first then .ok (true, c :: ds)
    else .error (ahead .expectedListCommaOrEnd (c :: ds))

/-- Is there another member? Stops before the quote of its key or the closing brace. -/
def nextMember (first : Bool) (cs : List Char) : Read Bool :=
  match skipSpace cs with
  | [] => .error (ahead .eofObject [])
  | c :: ds =>
    if c = '\x7d' then .ok (false, c :: ds)
    else if c = ',' ∧ !first then
      match skipSpace ds with
      | [] => .error (ahead .eofValue [])
      | e :: es =>
        if e = '"' then .ok (true, e :: es)
        else if e = '\x7d' then .error (ahead .trailingComma (e :: es))
        else .error (ahead .keyMustBeString (e :: es))
    else if first then
      if c = '"' then .ok (true, c :: ds) else .error (ahead .keyMustBeString (c :: ds))
    else .error (ahead .expectedObjectCommaOrEnd (c :: ds))

/-- Reads the colon after a key. -/
def colon (cs : List Char) : Except JsonFault (List Char) :=
  match skipSpace cs with
  | [] => .error (ahead .eofObject [])
  | c :: ds => if c = ':' then .ok ds else .error (ahead .expectedColon (c :: ds))

/-- Closes a list: the fault, if it is not closed here, and the characters left in either case. -/
def closeList (cs : List Char) : Option JsonFault × List Char :=
  match skipSpace cs with
  | [] => (some (ahead .eofList []), [])
  | c :: ds =>
    if c = ']' then (none, ds)
    else if c = ',' then
      -- the fault is that of what follows the comma
      let es := skipSpace ds
      (some (ahead (if es.head? = some ']' then .trailingComma else .trailingCharacters) es), es)
    else (some (ahead .trailingCharacters (c :: ds)), c :: ds)

/-- Closes an object: the fault, if it is not closed here, and the characters left in either case.
-/
def closeObject (cs : List Char) : Option JsonFault × List Char :=
  match skipSpace cs with
  | [] => (some (ahead .eofObject []), [])
  | c :: ds =>
    if c = '\x7d' then (none, ds)
    else if c = ',' then (some (ahead .trailingComma (c :: ds)), c :: ds)
    else (some (ahead .trailingCharacters (c :: ds)), c :: ds)

/-- Closes a container after its contents. A fault that still floats is placed where the container
would have been closed. -/
def closing {α : Type} (close : List Char → Option JsonFault × List Char) : Read α → Read α
  | .ok (a, cs) =>
    match close cs with
    | (none, ds) => .ok (a, ds)
    | (some fault, _) => .error fault
  | .error (.floating cause cs) => .error (here cause (close cs).2)
  | .error fault => .error fault

/-- Reads the items of a list, up to its closing bracket. The fuel bounds their number. -/
def items {α : Type} (item : List Char → Read α) :
    Nat → Bool → List Char → Except JsonFault (List α × List Char)
  | 0, _, cs => .error (here .eofList cs)
  | fuel + 1, first, cs => do
    let (more, cs) ← nextItem first cs
    if more then
      let (a, cs) ← item cs
      let (as, cs) ← items item fuel false cs
      return (a :: as, cs)
    else return ([], cs)

/-- Reads the members of an object, up to its closing brace, and folds them into a state. The fuel
bounds their number. -/
def members {κ σ : Type} (key : List Char → Read κ) (member : κ → σ → List Char → Read σ) :
    Nat → Bool → σ → List Char → Except JsonFault (σ × List Char)
  | 0, _, _, cs => .error (here .eofObject cs)
  | fuel + 1, first, s, cs => do
    let (more, cs) ← nextMember first cs
    if more then
      let (k, cs) ← key cs
      let (s, cs) ← member k s cs
      members key member fuel false s cs
    else return (s, cs)

/-- Reads a list after its opening bracket. -/
def list {α : Type} (item : List Char → Read α) (cs : List Char) : Read (List α) :=
  -- every item takes a character at least
  closing closeList (items item (cs.length + 1) true cs)

/-- Reads an object after its opening brace. -/
def objectOf {κ σ : Type} (key : List Char → Read κ) (member : κ → σ → List Char → Read σ) (s : σ)
    (cs : List Char) : Read σ :=
  closing closeObject (members key member (cs.length + 1) true s cs)

/-- Reads a key that is any string, from its opening quote on. -/
def textKey (cs : List Char) : Read String := stringRest cs.tail

/-- Reads a member as it stands behind those read before. -/
def keepMember (value : List Char → Read Json) (k : String) (ms : List (String × Json))
    (cs : List Char) : Except JsonFault (List (String × Json) × List Char) := do
  let cs ← colon cs
  let (j, cs) ← value cs
  return (ms ++ [(k, j)], cs)

/-- Reads a value, with a reader for the values inside it unless no bracket may be opened any
more. -/
def value (inner : Option (List Char → Read Json)) (cs : List Char) :
    Except JsonFault (Json × List Char) := do
  let (c, ds) ← beforeValue cs
  if c = '[' then
    match inner with
    | none => .error (ahead .recursionLimit (c :: ds))
    | some inner =>
      let (js, rest) ← list inner ds
      return (array js, rest)
  else if c = '\x7b' then
    match inner with
    | none => .error (ahead .recursionLimit (c :: ds))
    | some inner =>
      let (ms, rest) ← objectOf textKey (keepMember inner) [] ds
      return (object ms, rest)
  else
    match scalar? (c :: ds) with
    | some result => result
    | none => .error (ahead .expectedValue (c :: ds))

/-- Reads any value with at most so many brackets open at a time. -/
def read : Nat → List Char → Read Json
  | 0 => value none
  | depth + 1 => value (some (read depth))

/-- How many brackets may be open at a time. -/
def maxDepth : Nat := 127

/-- Reads a whole text with a reader, after which only blanks may follow. -/
def readWhole {α : Type} (reader : List Char → Read α) (text : List Char) : Except JsonFault α := do
  let (a, rest) ← reader text
  match skipSpace rest with
  | [] => return a
  | c :: cs => .error (ahead .trailingCharacters (c :: cs))

/-- The value of a whole text. -/
def parse (text : String) : Except JsonFault Json := readWhole (read maxDepth) text.toList

end Preferences.Json
