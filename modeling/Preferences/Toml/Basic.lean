/-!
# TOML documents

A document is a table. Tables remember how they came to be, since that decides what may still be
added to them: a table may be opened by a header once, dotted keys extend only tables that dotted
keys made, and an inline table is closed for good.
-/

namespace Preferences

/-- A value that is neither a text nor a container. -/
inductive TomlScalar where
  | boolean (b : Bool)
  | integer (z : Int)
  | float
  /-- A date, a time of day or both. -/
  | moment
  deriving DecidableEq

/-- How a table came to be. -/
inductive TableOrigin where
  /-- By a header of its own. -/
  | header
  /-- By the header of a table inside it. -/
  | implied
  /-- By a dotted key. -/
  | dotted
  | inline
  deriving DecidableEq

/-- A value of a document. -/
inductive Toml where
  | string (s : String)
  | scalar (s : TomlScalar)
  | array (items : List Toml)
  | table (origin : TableOrigin) (entries : List (String × Toml))
  /-- Tables that headers append to. -/
  | tables (elements : List (List (String × Toml)))

namespace Toml

/-- The entries of a table. -/
abbrev Entries := List (String × Toml)

/-- The value of a key. -/
def lookup (k : String) (es : Entries) : Option Toml := (es.find? fun e => e.1 == k).map (·.2)

/-- The entries with another value for a key that is there. -/
def replace (k : String) (v : Toml) (es : Entries) : Entries :=
  es.map fun e => if e.1 == k then (k, v) else e

/-- Adds a new key. -/
def add (k : String) (v : Toml) (es : Entries) : Option Entries :=
  match lookup k es with
  | none => some (es ++ [(k, v)])
  | some _ => none

/-- Adds a dotted key: the tables on its way are made by it or by keys and headers before, and the
last of them only by dotted keys. -/
def addDotted (path : List String) (k : String) (v : Toml) (es : Entries) : Option Entries :=
  match path with
  | [] => add k v es
  | p :: ps =>
    match lookup p es with
    | none => (addDotted ps k v []).map fun sub => es ++ [(p, table .dotted sub)]
    | some (table .dotted sub) =>
      (addDotted ps k v sub).map fun sub => replace p (table .dotted sub) es
    | some (table .implied sub) =>
      if ps = [] then none
      else (addDotted ps k v sub).map fun sub => replace p (table .implied sub) es
    | some _ => none

/-- Changes the table that a header leads to, making the tables on its way. Of an array of tables
the last one is meant. -/
def atHeader (change : Entries → Option Entries) (path : List String) (es : Entries) :
    Option Entries :=
  match path with
  | [] => change es
  | p :: ps =>
    match lookup p es with
    | none => (atHeader change ps []).map fun sub => es ++ [(p, table .implied sub)]
    | some (table .inline _) => none
    | some (table origin sub) =>
      (atHeader change ps sub).map fun sub => replace p (table origin sub) es
    | some (tables elements) =>
      match elements.getLast? with
      | none => none
      | some sub =>
        (atHeader change ps sub).map fun sub => replace p (tables (elements.dropLast ++ [sub])) es
    | some _ => none

/-- Opens a table by its header. -/
def openTable (k : String) (es : Entries) : Option Entries :=
  match lookup k es with
  | none => some (es ++ [(k, table .header [])])
  | some (table .implied sub) => some (replace k (table .header sub) es)
  | some _ => none

/-- Opens a new table of an array of tables. -/
def openElement (k : String) (es : Entries) : Option Entries :=
  match lookup k es with
  | none => some (es ++ [(k, tables [[]])])
  | some (tables elements) => some (replace k (tables (elements ++ [[]])) es)
  | some _ => none

end Toml

end Preferences
