import Mathlib.Tactic.Lemma
import Preferences.Time.Date

/-!
# Days of the calendar

The number of a date counts the days of the years and of the months before it. So later dates have
later numbers, a date that is found by its number has that number, and a calendar year is 366 days
long where a 29 February lies in it and 365 days long elsewhere. Main statements: `Date.toDays_eq`,
`Date.lt_iff_toDays_lt`, `Date.toDays_of_ofDays?` and `Date.toDays_nextYear?`.
-/

namespace Preferences

/-- A leap year is one in four, but of the hundreds one in four hundred. -/
lemma isLeapYear_iff (year : Int) :
    isLeapYear year = true ↔ year % 4 = 0 ∧ (year % 100 ≠ 0 ∨ year % 400 = 0) := by
  simp [isLeapYear]

namespace Date

/-! ## Counting -/

/-- The number of the last day before a year. -/
def daysBeforeYear (year : Int) : Int :=
  let y := year - 1
  365 * y + y / 4 - y / 100 + y / 400 - 719163

/-- The days of a year before a month. -/
def daysBeforeMonth (year : Int) : Nat → Nat
  | 0 | 1 => 0
  | month + 2 => daysBeforeMonth year (month + 1) + daysInMonth year (month + 1)

/-- A year more is 366 days more after a leap year, and 365 after another. -/
lemma daysBeforeYear_succ (year : Int) :
    daysBeforeYear (year + 1) = daysBeforeYear year + if isLeapYear year then 366 else 365 := by
  simp only [daysBeforeYear, isLeapYear_iff]
  split
  · omega
  · omega

/-- A month more is its days more. -/
lemma daysBeforeMonth_succ (year : Int) {month : Nat} (pos : 1 ≤ month) :
    daysBeforeMonth year (month + 1) = daysBeforeMonth year month + daysInMonth year month := by
  obtain ⟨m, rfl⟩ : ∃ m, month = m + 1 := ⟨month - 1, by omega⟩
  rfl

/-- Counted from March, months have 153 days in five. -/
lemma daysBeforeMonth_eq (year : Int) {month : Nat} (pos : 1 ≤ month) (le : month ≤ 12) :
    (daysBeforeMonth year month : Int) =
      if month ≤ 2 then (153 * ((month : Int) + 9) + 2) / 5 - 306
      else (153 * ((month : Int) - 3) + 2) / 5 + 59 + if isLeapYear year then 1 else 0 := by
  have months : month = 1 ∨ month = 2 ∨ month = 3 ∨ month = 4 ∨ month = 5 ∨ month = 6 ∨ month = 7 ∨
      month = 8 ∨ month = 9 ∨ month = 10 ∨ month = 11 ∨ month = 12 := by omega
  rcases months with rfl | rfl | rfl | rfl | rfl | rfl | rfl | rfl | rfl | rfl | rfl | rfl <;>
    simp only [daysBeforeMonth, daysInMonth] <;> cases isLeapYear year <;> rfl

/-- The number of a date counts the days of the years before it, of the months before it, and of
its month up to it. -/
theorem toDays_eq (d : Date) :
    d.toDays = daysBeforeYear d.year + daysBeforeMonth d.year d.month + d.day := by
  simp only [daysBeforeMonth_eq d.year d.month_pos d.month_le, toDays, daysBeforeYear,
    isLeapYear_iff]
  split
  · omega
  · split
    · omega
    · omega

/-! ## Order -/

instance : LT Date := ⟨fun d e =>
  d.year < e.year ∨ d.year = e.year ∧ (d.month < e.month ∨ d.month = e.month ∧ d.day < e.day)⟩

instance : LE Date := ⟨fun d e => d < e ∨ d = e⟩

/-- An earlier date has the smaller year, month or day, in this order. -/
lemma lt_def {d e : Date} : d < e ↔ d.year < e.year ∨ d.year = e.year ∧
    (d.month < e.month ∨ d.month = e.month ∧ d.day < e.day) := Iff.rfl

/-- Dates are the same where all their parts are. -/
lemma eq_iff {d e : Date} : d = e ↔ d.year = e.year ∧ d.month = e.month ∧ d.day = e.day := by
  cases d
  cases e
  simp

/-- Of two dates one is earlier, unless they are the same. -/
lemma lt_trichotomy (d e : Date) : d < e ∨ d = e ∨ e < d := by
  rw [lt_def, lt_def, eq_iff]
  omega

/-- An earlier date or the same is one by its parts. -/
lemma le_def {d e : Date} : d ≤ e ↔ d.year < e.year ∨ d.year = e.year ∧
    (d.month < e.month ∨ d.month = e.month ∧ d.day ≤ e.day) := by
  show d < e ∨ d = e ↔ _
  rw [lt_def, eq_iff]
  omega

/-- Later months have more days before them. -/
lemma daysBeforeMonth_mono (year : Int) {m m' : Nat} (le : m ≤ m') :
    daysBeforeMonth year m ≤ daysBeforeMonth year m' := by
  induction le with
  | refl => exact Nat.le_refl _
  | @step n _ ih =>
    cases n with
    | zero => exact ih
    | succ n =>
      rw [daysBeforeMonth_succ year (Nat.succ_pos n)]
      exact Nat.le_add_right_of_le ih

/-- Later years have more days before them. -/
lemma daysBeforeYear_mono {y y' : Int} (le : y ≤ y') : daysBeforeYear y ≤ daysBeforeYear y' := by
  simp only [daysBeforeYear]
  omega

/-- A date comes no later than the last day of its month. -/
lemma day_in_month (d : Date) :
    daysBeforeMonth d.year d.month + d.day ≤ daysBeforeMonth d.year (d.month + 1) := by
  rw [daysBeforeMonth_succ d.year d.month_pos]
  exact Nat.add_le_add_left d.day_le _

/-- A date comes after all days before its year. -/
lemma daysBeforeYear_lt (d : Date) : daysBeforeYear d.year < d.toDays := by
  have first := d.day_pos
  rw [toDays_eq]
  omega

/-- A date comes before all days of the next year. -/
lemma toDays_le (d : Date) : d.toDays ≤ daysBeforeYear (d.year + 1) := by
  have whole : daysBeforeMonth d.year 13 = if isLeapYear d.year then 366 else 365 := by
    simp only [daysBeforeMonth, daysInMonth]
    cases isLeapYear d.year <;> rfl
  have month := day_in_month d
  have rest : daysBeforeMonth d.year (d.month + 1) ≤ daysBeforeMonth d.year 13 :=
    daysBeforeMonth_mono d.year (Nat.succ_le_succ d.month_le)
  rw [toDays_eq, daysBeforeYear_succ]
  split at whole
  next leap =>
    rw [if_pos leap]
    omega
  next common =>
    rw [if_neg common]
    omega

/-- Later dates have later numbers. -/
lemma toDays_lt_toDays {d e : Date} (lt : d < e) : d.toDays < e.toDays := by
  rcases lt_def.1 lt with year | ⟨year, month | ⟨month, day⟩⟩
  · calc d.toDays ≤ daysBeforeYear (d.year + 1) := toDays_le d
      _ ≤ daysBeforeYear e.year := daysBeforeYear_mono year
      _ < e.toDays := daysBeforeYear_lt e
  · have last := day_in_month d
    have between : daysBeforeMonth d.year (d.month + 1) ≤ daysBeforeMonth d.year e.month :=
      daysBeforeMonth_mono d.year month
    have first := e.day_pos
    rw [toDays_eq, toDays_eq, ← year]
    omega
  · rw [toDays_eq, toDays_eq, year, month]
    omega

/-- The order of dates is the order of their numbers. -/
theorem lt_iff_toDays_lt {d e : Date} : d < e ↔ d.toDays < e.toDays := by
  refine ⟨toDays_lt_toDays, fun lt => ?_⟩
  rcases lt_trichotomy d e with before | rfl | after
  · exact before
  · exact absurd lt (Int.lt_irrefl _)
  · exact absurd (toDays_lt_toDays after) (Int.lt_asymm lt)

/-- No two dates have one day number. -/
lemma toDays_inj {d e : Date} (same : d.toDays = e.toDays) : d = e := by
  rcases lt_trichotomy d e with before | rfl | after
  · exact absurd same (Int.ne_of_lt (toDays_lt_toDays before))
  · rfl
  · exact absurd same (Int.ne_of_gt (toDays_lt_toDays after))

/-! ## Dates from numbers -/

/-- A date that is made of parts has them. -/
lemma ofParts?_eq_some {y : Int} {m n : Nat} {d : Date} (h : ofParts? y m n = some d) :
    d.year = y ∧ d.month = m ∧ d.day = n := by
  rw [ofParts?] at h
  split at h
  · cases h
    exact ⟨rfl, rfl, rfl⟩
  · cases h

/-- The year of a day within four centuries of years that begin in March. In each century a leap
day ends every fourth year but the last, and one more leap day ends the four centuries. -/
lemma year_of_era {day year : Int} (low : 0 ≤ day) (high : day < 146097)
    (found : year = (day - day / 1460 + day / 36524 - day / 146096) / 365) :
    (0 ≤ year ∧ year < 400) ∧ 0 ≤ day - (365 * year + year / 4 - year / 100) ∧
      day - (365 * year + year / 4 - year / 100) ≤ 365 := by
  obtain rfl | notLast : day = 146096 ∨ day < 146096 := by omega
  · subst found
    decide
  · obtain ⟨century, hc⟩ : ∃ c, c = day / 36524 := ⟨_, rfl⟩
    obtain ⟨four, hf⟩ : ∃ f, f = day % 36524 / 1461 := ⟨_, rfl⟩
    obtain ⟨one, ho⟩ : ∃ o, o = day % 36524 % 1461 / 365 := ⟨_, rfl⟩
    have centuries : century = 0 ∨ century = 1 ∨ century = 2 ∨ century = 3 := by omega
    have ones : one = 0 ∨ one = 1 ∨ one = 2 ∨ one = 3 ∨ one = 4 := by omega
    -- the leap day that ends four years still belongs to the last of them
    have counted : year = 100 * century + 4 * four + min one 3 := by
      rcases centuries with rfl | rfl | rfl | rfl <;>
        rcases ones with rfl | rfl | rfl | rfl | rfl <;> omega
    have hundreds : year / 100 = century := by omega
    have fours : year / 4 = 25 * century + four := by omega
    omega

/-- The number of a date, by its year and its month counted from March. -/
lemma toDays_of_march {d : Date} {y m : Int} (low : 0 ≤ m) (high : m < 12)
    (month : (d.month : Int) = if m < 10 then m + 3 else m - 9)
    (year : d.year = y + if m < 10 then 0 else 1) :
    d.toDays = 365 * y + y / 4 - y / 100 + y / 400 + (153 * m + 2) / 5 + d.day - 719469 := by
  rw [toDays]
  split at month
  next late =>
    rw [if_pos late] at year
    rw [if_neg (by omega), if_neg (by omega)]
    have same : (d.month : Int) - 3 = m := by omega
    rw [same, year]
    omega
  next early =>
    rw [if_neg early] at year
    rw [if_pos (by omega), if_pos (by omega)]
    have same : (d.month : Int) + 9 = m := by omega
    have before : d.year - 1 = y := by omega
    rw [same, before]

/-- The date of a number has that number. -/
theorem toDays_of_ofDays? {days : Int} {d : Date} (h : ofDays? days = some d) :
    d.toDays = days := by
  obtain ⟨year, month, day⟩ := ofParts?_eq_some h
  have first := d.day_pos
  generalize counted : (days + 719468) / 146097 = era at *
  generalize rest : (days + 719468) % 146097 = doe at *
  generalize found : (doe - doe / 1460 + doe / 36524 - doe / 146096) / 365 = yoe at *
  obtain ⟨years, doys⟩ := year_of_era (by omega) (by omega) found.symm
  generalize left : doe - (365 * yoe + yoe / 4 - yoe / 100) = doy at *
  generalize passed : (5 * doy + 2) / 153 = mp at *
  have months : 0 ≤ mp ∧ mp < 12 := by omega
  have fours : (yoe + 400 * era) / 4 = yoe / 4 + 100 * era := by omega
  have hundreds : (yoe + 400 * era) / 100 = yoe / 100 + 4 * era := by omega
  have eras : (yoe + 400 * era) / 400 = era := by omega
  rw [toDays_of_march (y := yoe + 400 * era) months.1 months.2, fours, hundreds, eras]
  · omega
  · split at month
    · omega
    · omega
  · split at year
    · omega
    · omega

/-! ## The same day a year later -/

/-- The day that only leap years have. -/
def IsLeapDay (d : Date) : Prop := d.month = 2 ∧ d.day = 29

instance (d : Date) : Decidable d.IsLeapDay := inferInstanceAs (Decidable (_ ∧ _))

/-- A leap day is in a leap year. -/
lemma IsLeapDay.isLeapYear {d : Date} (leapDay : d.IsLeapDay) : isLeapYear d.year = true := by
  have last := d.day_le
  rw [leapDay.1, leapDay.2, daysInMonth, if_pos rfl] at last
  split at last
  · assumption
  · exact absurd last (by decide)

/-- Every leap year in range has a leap day. -/
lemma exists_leapDay {year : Int} (low : minYear ≤ year) (high : year ≤ maxYear)
    (leap : Preferences.isLeapYear year = true) : ∃ d : Date, d.IsLeapDay ∧ d.year = year := by
  have last : daysInMonth year 2 = 29 := by rw [daysInMonth, if_pos rfl, if_pos leap]
  exact ⟨⟨year, 2, 29, low, high, by decide, by decide, by decide, Nat.le_of_eq last.symm⟩,
    ⟨rfl, rfl⟩, rfl⟩

variable {d e : Date}

/-- The same day a year later is 28 February for 29 February. -/
lemma nextYear?_eq_some (h : d.nextYear? = some e) :
    e.year = d.year + 1 ∧ e.month = d.month ∧ e.day = if d.IsLeapDay then 28 else d.day := by
  obtain ⟨year, month, day⟩ := ofParts?_eq_some h
  refine ⟨year, month, day.trans ?_⟩
  split
  next leapDay =>
    have leap := leapDay.isLeapYear
    have common : ¬ isLeapYear (d.year + 1) = true := by
      rw [isLeapYear_iff] at leap ⊢
      omega
    rw [daysInMonth, if_pos leapDay.1, if_neg common, leapDay.2]
    rfl
  next other =>
    have last := d.day_le
    rw [IsLeapDay] at other
    -- but for a leap day, next year's month is long enough
    refine Nat.min_eq_left ?_
    rw [daysInMonth] at last ⊢
    split at last
    next february =>
      rw [if_pos february]
      split at last <;> split <;> omega
    next longer =>
      rw [if_neg longer]
      exact last

example : (ofParts? 2024 2 29).bind nextYear? = ofParts? 2025 2 28 := by decide

/-- There is a next year to all years but the last. -/
lemma nextYear?_eq_none : d.nextYear? = none ↔ d.year = maxYear := by
  have some_day : 1 ≤ daysInMonth (d.year + 1) d.month := by
    rw [daysInMonth]
    repeat' split
    all_goals decide
  have day : 1 ≤ min d.day (daysInMonth (d.year + 1) d.month) :=
    Nat.le_min.2 ⟨d.day_pos, some_day⟩
  have low := d.year_ge
  have high := d.year_le
  rw [nextYear?, ofParts?]
  split
  next inside =>
    have earlier : d.year ≠ maxYear := by omega
    simp only [reduceCtorEq, earlier]
  next outside =>
    refine iff_of_true rfl (Decidable.byContradiction fun earlier => outside ⟨?_, ?_, day, ?_⟩)
    · omega
    · exact ⟨d.month_pos, d.month_le⟩
    · exact Nat.min_le_right _ _

/-- A year from January or February on is as long as the year it begins in, except from a leap day
on. -/
lemma toDays_nextYear?_early (h : d.nextYear? = some e) (early : d.month ≤ 2)
    (other : ¬ d.IsLeapDay) :
    e.toDays = d.toDays + if isLeapYear d.year then 366 else 365 := by
  obtain ⟨year, month, day⟩ := nextYear?_eq_some h
  rw [if_neg other] at day
  rw [toDays_eq, toDays_eq, year, month, day, daysBeforeYear_succ,
    daysBeforeMonth_eq _ d.month_pos d.month_le, daysBeforeMonth_eq _ d.month_pos d.month_le,
    if_pos early, if_pos early]
  omega

/-- From a leap day to the end of February of the next year it is 365 days. -/
lemma toDays_nextYear?_leapDay (h : d.nextYear? = some e) (leapDay : d.IsLeapDay) :
    e.toDays = d.toDays + 365 := by
  obtain ⟨year, month, day⟩ := nextYear?_eq_some h
  have early : d.month ≤ 2 := Nat.le_of_eq leapDay.1
  rw [if_pos leapDay] at day
  rw [toDays_eq, toDays_eq, year, month, day, leapDay.2, daysBeforeYear_succ,
    daysBeforeMonth_eq _ d.month_pos d.month_le, daysBeforeMonth_eq _ d.month_pos d.month_le,
    if_pos early, if_pos early, if_pos leapDay.isLeapYear]
  omega

/-- A year from March on is as long as the year it ends in. -/
lemma toDays_nextYear?_late (h : d.nextYear? = some e) (late : ¬ d.month ≤ 2) :
    e.toDays = d.toDays + if isLeapYear e.year then 366 else 365 := by
  obtain ⟨year, month, day⟩ := nextYear?_eq_some h
  rw [if_neg fun leapDay => late (Nat.le_of_eq leapDay.1)] at day
  rw [toDays_eq, toDays_eq, year, month, day, daysBeforeYear_succ,
    daysBeforeMonth_eq _ d.month_pos d.month_le, daysBeforeMonth_eq _ d.month_pos d.month_le,
    if_neg late, if_neg late]
  split
  · split
    · omega
    · omega
  · split
    · omega
    · omega

/-- The leap day in a year is that of the year it begins in, or else that of the year it ends in. -/
lemma leapDay_between_iff (h : d.nextYear? = some e) :
    (∃ x : Date, x.IsLeapDay ∧ d < x ∧ x ≤ e) ↔
      if d.month ≤ 2 then isLeapYear d.year = true ∧ ¬ d.IsLeapDay
      else isLeapYear e.year = true := by
  obtain ⟨year, month, day⟩ := nextYear?_eq_some h
  constructor
  · rintro ⟨x, leapDay, after, before⟩
    have leap := leapDay.isLeapYear
    rw [lt_def] at after
    rw [le_def] at before
    rw [IsLeapDay] at leapDay
    rcases (by omega : x.year = d.year ∨ x.year = e.year) with first | second
    · rw [if_pos (by omega), IsLeapDay, ← first]
      exact ⟨leap, by omega⟩
    · -- a leap day at the end of the year is no later than the day it ends on
      have late : ¬ d.month ≤ 2 := by
        have last := d.day_le
        have leap' : isLeapYear e.year = true := second ▸ leap
        have common : ¬ isLeapYear d.year = true := by
          rw [isLeapYear_iff] at leap' ⊢
          omega
        intro early
        rw [daysInMonth, if_neg common] at last
        split at day
        · omega
        · split at last <;> omega
      rw [if_neg late, ← second]
      exact leap
  · intro leap
    split at leap
    next early =>
      obtain ⟨x, leapDay, same⟩ := exists_leapDay d.year_ge d.year_le leap.1
      have last := d.day_le
      rw [daysInMonth, if_pos leap.1] at last
      have other := leap.2
      refine ⟨x, leapDay, lt_def.2 ?_, le_def.2 (by omega)⟩
      rw [IsLeapDay] at leapDay other
      split at last <;> omega
    next late =>
      obtain ⟨x, leapDay, same⟩ := exists_leapDay e.year_ge e.year_le leap
      rw [IsLeapDay] at leapDay
      exact ⟨x, leapDay, lt_def.2 (by omega), le_def.2 (by omega)⟩

/-- A calendar year is 366 days long where a 29 February lies in it, its end included, and 365 days
long elsewhere. -/
theorem toDays_nextYear? (h : d.nextYear? = some e) :
    (∃ x : Date, x.IsLeapDay ∧ d < x ∧ x ≤ e) ∧ e.toDays = d.toDays + 366 ∨
    (¬ ∃ x : Date, x.IsLeapDay ∧ d < x ∧ x ≤ e) ∧ e.toDays = d.toDays + 365 := by
  rw [leapDay_between_iff h]
  by_cases early : d.month ≤ 2
  · rw [if_pos early]
    by_cases leapDay : d.IsLeapDay
    · exact .inr ⟨fun between => between.2 leapDay, toDays_nextYear?_leapDay h leapDay⟩
    · have length := toDays_nextYear?_early h early leapDay
      split at length
      next leap => exact .inl ⟨⟨leap, leapDay⟩, length⟩
      next common => exact .inr ⟨fun between => common between.1, length⟩
  · rw [if_neg early]
    have length := toDays_nextYear?_late h early
    split at length
    next leap => exact .inl ⟨leap, length⟩
    next common => exact .inr ⟨common, length⟩

end Date

end Preferences
