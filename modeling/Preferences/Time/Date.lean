/-!
# Calendar dates

Dates of the Gregorian calendar, extended to both sides, from the year -262143 to the year 262142.
-/

namespace Preferences

/-- Has the year a 29 February? -/
def isLeapYear (year : Int) : Bool := year % 4 == 0 && (year % 100 != 0 || year % 400 == 0)

/-- The number of days of a month. -/
def daysInMonth (year : Int) (month : Nat) : Nat :=
  if month = 2 then (if isLeapYear year then 29 else 28)
  else if month = 4 ∨ month = 6 ∨ month = 9 ∨ month = 11 then 30
  else 31

/-- The earliest year. -/
def minYear : Int := -262143

/-- The latest year. -/
def maxYear : Int := 262142

/-- A date of the calendar. -/
structure Date where
  year : Int
  month : Nat
  day : Nat
  year_ge : minYear ≤ year
  year_le : year ≤ maxYear
  month_pos : 1 ≤ month
  month_le : month ≤ 12
  day_pos : 1 ≤ day
  day_le : day ≤ daysInMonth year month
  deriving DecidableEq

namespace Date

/-- The date with these parts, if there is one. -/
def ofParts? (year : Int) (month day : Nat) : Option Date :=
  if h : (minYear ≤ year ∧ year ≤ maxYear) ∧ (1 ≤ month ∧ month ≤ 12) ∧
      1 ≤ day ∧ day ≤ daysInMonth year month then
    some ⟨year, month, day, h.1.1, h.1.2, h.2.1.1, h.2.1.2, h.2.2.1, h.2.2.2⟩
  else none

/-- Days from 1 January 1970 on. Years are counted from March, so that a 29 February ends its
year. -/
def toDays (d : Date) : Int :=
  let y := if d.month ≤ 2 then d.year - 1 else d.year
  let m : Int := if d.month ≤ 2 then d.month + 9 else d.month - 3
  -- `(153 * m + 2) / 5` days come before month `m` of a year that begins in March
  365 * y + y / 4 - y / 100 + y / 400 + (153 * m + 2) / 5 + d.day - 719469

/-- The date so many days after 1 January 1970, if there is one. -/
def ofDays? (days : Int) : Option Date :=
  let z := days + 719468
  -- the calendar repeats every 400 years, which is an era
  let era := z / 146097
  let doe := z % 146097
  let yoe := (doe - doe / 1460 + doe / 36524 - doe / 146096) / 365
  let doy := doe - (365 * yoe + yoe / 4 - yoe / 100)
  let mp := (5 * doy + 2) / 153
  let day := doy - (153 * mp + 2) / 5 + 1
  let month := if mp < 10 then mp + 3 else mp - 9
  let year := yoe + 400 * era + (if month ≤ 2 then 1 else 0)
  ofParts? year month.toNat day.toNat

/-- The day after. -/
def next? (d : Date) : Option Date :=
  ofParts? d.year d.month (d.day + 1) <|> ofParts? d.year (d.month + 1) 1 <|>
    ofParts? (d.year + 1) 1 1

/-- The day before. -/
def previous? (d : Date) : Option Date :=
  ofParts? d.year d.month (d.day - 1) <|>
    ofParts? d.year (d.month - 1) (daysInMonth d.year (d.month - 1)) <|>
    ofParts? (d.year - 1) 12 31

/-- The same day of the next year, or 28 February where that year has no 29 February. -/
def nextYear? (d : Date) : Option Date :=
  ofParts? (d.year + 1) d.month (min d.day (daysInMonth (d.year + 1) d.month))

end Date

end Preferences
