import Preferences.Time.Date

/-!
# Instants

A date, a second of the day and nanoseconds. The nanoseconds may run on for a second more: that is a
leap second at the end of a minute, and elsewhere an instant between two seconds that no clock
shows.
-/

namespace Preferences

/-- A second of nanoseconds. -/
def nanosPerSecond : Nat := 1000000000

/-- A point in time, in universal time. -/
structure Instant where
  date : Date
  /-- Seconds since midnight. -/
  second : Nat
  /-- Nanoseconds since that second. -/
  nanos : Nat
  second_lt : second < 86400
  nanos_lt : nanos < 2 * nanosPerSecond
  deriving DecidableEq

namespace Instant

/-- The instant with these parts, if there is one. -/
def ofParts? (date : Date) (second nanos : Nat) : Option Instant :=
  if h : second < 86400 ∧ nanos < 2 * nanosPerSecond then
    some ⟨date, second, nanos, h.1, h.2⟩
  else none

/-- Seconds since the start of 1970, without the nanoseconds. -/
def unixSeconds (t : Instant) : Int := 86400 * t.date.toDays + t.second

/-- The instant so many seconds and nanoseconds after the start of 1970. More than a second of
nanoseconds makes a leap second, and is refused but at the end of a minute. -/
def ofUnix? (seconds : Int) (nanos : Nat) : Option Instant :=
  if nanosPerSecond ≤ nanos ∧ seconds % 60 ≠ 59 then none
  else do
    let date ← Date.ofDays? (seconds / 86400)
    ofParts? date (seconds % 86400).toNat nanos

/-- The parts that decide the order, most significant first. -/
def orderKey (t : Instant) : List Int :=
  [t.date.year, t.date.month, t.date.day, t.second, t.nanos]

/-- Is the first instant no later than the second? -/
def notAfter (s t : Instant) : Bool := compare s.orderKey t.orderKey != .gt

/-- The instant so many seconds later, for less than a day. -/
def shift? (t : Instant) (seconds : Int) : Option Instant :=
  let moved := t.second + seconds
  if moved < 0 then do
    let date ← t.date.previous?
    ofParts? date (moved + 86400).toNat t.nanos
  else if moved < 86400 then ofParts? t.date moved.toNat t.nanos
  else do
    let date ← t.date.next?
    ofParts? date (moved - 86400).toNat t.nanos

/-- The instant so many days later, for at least one day. A leap second does not recur: it counts as
the second before it. -/
def daysLater? (t : Instant) (days : Nat) : Option Instant := do
  let date ← Date.ofDays? (t.date.toDays + days)
  ofParts? date t.second (t.nanos % nanosPerSecond)

/-- The same time of day a calendar year later. -/
def nextYear? (t : Instant) : Option Instant := do
  let date ← t.date.nextYear?
  return ⟨date, t.second, t.nanos, t.second_lt, t.nanos_lt⟩

end Instant

end Preferences
