import Preferences.Shape.Reader

/-!
# Validity of keypairs

The window in which a keypair is meant to be used: a calendar year from its start.
-/

namespace Preferences

/-- A window of time, both ends included. -/
structure Validity where
  notBefore : Instant
  notAfter : Instant
  deriving DecidableEq

instance : Shaped Validity where
  shape := .record "KeyValidity" (.cons "not_before" .instant (.cons "not_after" .instant .nil))
  toVal v := (v.notBefore, v.notAfter, ())
  ofVal v := ⟨v.1, v.2.1⟩

namespace Validity

/-- A calendar year from an instant, or else 365 days, if it ends within the calendar. -/
def oneYearFrom? (start : Instant) : Option Validity :=
  (start.nextYear? <|> start.daysLater? 365).map fun stop => ⟨start, stop⟩

/-- Does the window hold the instant? -/
def contains (v : Validity) (t : Instant) : Bool := v.notBefore.notAfter t && t.notAfter v.notAfter

/-- The JSON value of a window. -/
def toJson (v : Validity) : Json :=
  .object [("not_before", .string (String.ofList (Timestamp.render v.notBefore))),
    ("not_after", .string (String.ofList (Timestamp.render v.notAfter)))]

/-- The window that a JSON text holds. -/
def parse (text : String) : Except JsonFault Validity :=
  ((Shaped.shape Validity).parse text).map Shaped.ofVal

end Validity

end Preferences
