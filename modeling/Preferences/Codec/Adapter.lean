import Preferences.Catalogue
import Preferences.Number.Parse
import Preferences.Shape.Reader

/-!
# Engines and adapters

An engine writes values of every shape as texts; an adapter replaces it for one type.
-/

namespace Preferences

/-- Writes and reads values of every shape. -/
structure Engine where
  encode : (s : Shape) → s.Val → Except String String
  decode : (s : Shape) → String → Except String s.Val

namespace Engine

/-- JSON without blanks and with the keys of every object in order. -/
def json : Engine where
  encode s v :=
    match s.toJson v with
    | .ok j => .ok j.canon.compact
    | .error fault => .error fault.message
  decode s text :=
    match s.parse text with
    | .ok v => .ok v
    | .error fault => .error (fault.message text.toList)

/-- The text after a mark, if it begins with the mark. -/
def afterMark : List Char → List Char → Option (List Char)
  | [], cs => some cs
  | _ :: _, [] => none
  | m :: ms, c :: cs => if c = m then afterMark ms cs else none

/-- The mark of versioned texts. -/
def versionMark : String := "v1:"

/-- JSON behind a version mark. -/
def versioned : Engine where
  encode s v := (json.encode s v).map (versionMark ++ ·)
  decode s text :=
    match afterMark versionMark.toList text.toList with
    | some rest => json.decode s (String.ofList rest)
    | none => .error "missing v1 prefix"

/-- Writes a value of a type. -/
def encodeAs (e : Engine) (t : PrefType) (v : t.Val) : Except String String :=
  e.encode t.shape (t.shaped.toVal v)

/-- Reads a value of a type. -/
def decodeAs (e : Engine) (t : PrefType) (text : String) : Except String t.Val :=
  (e.decode t.shape text).map t.shaped.ofVal

end Engine

/-- The text that shows a value: its JSON, or the plain number where JSON has no room for it. -/
def PrefType.display : (t : PrefType) → t.Val → String
  | .structured .wide, v => String.ofList (intDigits v.value.val)
  | .structured .signed, v => String.ofList (intDigits v.value.val)
  | .structured .ratio, v =>
    let x := v.value
    if x.isNaN then "NaN"
    else if x.isInf then (if x < 0 then "-inf" else "inf")
    else String.ofList (floatChars x)
  | t, v =>
    match Engine.json.encodeAs t v with
    | .ok text => text
    | .error reason => reason

/-- How often adapters were called. -/
structure Calls where
  encodes : Nat := 0
  decodes : Nat := 0
  deriving DecidableEq

instance : Add Calls := ⟨fun a b => ⟨a.encodes + b.encodes, a.decodes + b.decodes⟩⟩

/-- A result, with the calls to adapters that it took. -/
abbrev Counted (α : Type) : Type := α × Calls

namespace Counted

/-- A result that took no call. -/
def uncalled {α : Type} (a : α) : Counted α := (a, {})

/-- Turns a result into another. -/
def map {α β : Type} (f : α → β) (a : Counted α) : Counted β := (f a.1, a.2)

end Counted

/-- A text form for the values of one type. -/
structure Adapter (α : Type) where
  encode : α → Except String String
  decode : String → Except String α

namespace Adapter

/-- Calls an adapter for the text of a value. -/
def callEncode {α : Type} (a : Adapter α) (v : α) : Counted (Except String String) :=
  (a.encode v, { encodes := 1 })

/-- Calls an adapter for the value of a text. -/
def callDecode {α : Type} (a : Adapter α) (text : String) : Counted (Except String α) :=
  (a.decode text, { decodes := 1 })

/-- Writes every value as the same text and reads none. -/
def fixed {α : Type} (text : String) : Adapter α where
  encode _ := .ok text
  decode _ := .error "unused"

/-- Refuses both ways. -/
def refusing {α : Type} : Adapter α where
  encode _ := .error "adapter refused"
  decode _ := .error "adapter refused"

/-- The text between `<` and `>`. -/
def betweenBrackets (text : String) : Option String :=
  match text.toList with
  | '<' :: rest => if rest.getLast? = some '>' then some (String.ofList rest.dropLast) else none
  | _ => none

/-- The shown text of a value between brackets. -/
def bracketed (t : PrefType) : Adapter t.Val where
  encode v := .ok ("<" ++ t.display v ++ ">")
  decode text :=
    match betweenBrackets text with
    | some inside => Engine.json.decodeAs t inside
    | none => .error "missing brackets"

/-- The characters before and after a byte offset, unless it falls inside a character. -/
def splitAtByte : Nat → List Char → Option (List Char × List Char)
  | 0, cs => some ([], cs)
  | _ + 1, [] => none
  | n + 1, c :: cs =>
    if c.utf8Size ≤ n + 1 then
      (splitAtByte (n + 1 - c.utf8Size) cs).map fun p => (c :: p.1, p.2)
    else none

/-- Two bytes of text and a digit. -/
def shorthand : Adapter CustomierClass where
  encode c := .ok (c.string ++ String.ofList (intDigits c.integer.val))
  decode text :=
    if utf8Size text.toList ≠ 3 then .error "invalid input"
    else
      match splitAtByte 2 text.toList with
      | none => .error "split inside a character"
      | some (string, digit) =>
        match Word.parse .nat8 digit with
        | .ok integer => .ok ⟨String.ofList string, integer⟩
        | .error fault => .error fault.message

/-- The name alone; the age is lost. -/
def nameOnly : Adapter Record where
  encode r := .ok r.name
  decode text := .ok ⟨text, Primitive.zero .int⟩

/-- The stem of a probe code with its digit behind it. -/
def probeCode : Adapter ProbeCode where
  encode c := .ok (c.stem ++ String.ofList (intDigits c.digit.val))
  decode text :=
    let cs := text.toList
    if cs.isEmpty || !cs.all (fun c => c.toNat < 128) then .error "expected an ascii code"
    else
      match Word.parse .nat8 (cs.drop (cs.length - 1)) with
      | .ok digit => .ok ⟨String.ofList cs.dropLast, digit⟩
      | .error fault => .error fault.message

end Adapter

end Preferences
