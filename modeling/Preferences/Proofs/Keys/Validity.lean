import Preferences.Keys.Validity
import Preferences.Proofs.Time.Calendar

/-!
# A calendar year of validity

Instants come in the order of the seconds since 1970, and of the nanoseconds from there, which may
run on for a second more before the next second comes, as they do in a leap second. A window of a
calendar year ends at the same time of day and holds the instants between its ends; there is one
from every instant that is not in the last year of the calendar. Main statement:
`Validity.spans_calendar_year`.
-/

namespace Preferences

namespace Instant

/-! ## Order -/

instance : LE Instant := ⟨fun s t =>
  s.unixSeconds < t.unixSeconds ∨ s.unixSeconds = t.unixSeconds ∧ s.nanos ≤ t.nanos⟩

/-- Instants are compared by their seconds, then by their nanoseconds. -/
lemma le_def {s t : Instant} : s ≤ t ↔
    s.unixSeconds < t.unixSeconds ∨ s.unixSeconds = t.unixSeconds ∧ s.nanos ≤ t.nanos := Iff.rfl

/-- Lists are compared by their first items, then by the others. -/
lemma compare_cons_ne_gt {a b : Int} {as bs : List Int} :
    compare (a :: as) (b :: bs) ≠ .gt ↔ a < b ∨ a = b ∧ compare as bs ≠ .gt := by
  rw [List.compare_cons_cons]
  rcases Int.lt_trichotomy a b with lt | rfl | gt
  · rw [Std.compare_eq_lt.2 lt]
    exact iff_of_true nofun (.inl lt)
  · rw [Std.compare_self]
    exact ⟨fun rest => .inr ⟨rfl, rest⟩, fun h => (h.resolve_left (Int.lt_irrefl a)).2⟩
  · rw [Std.compare_eq_gt.2 gt]
    exact iff_of_false (· rfl) (by omega)

/-- The parts of instants come in the order of the seconds and nanoseconds since 1970. -/
lemma notAfter_iff (s t : Instant) : s.notAfter t = true ↔ s ≤ t := by
  have days := @Date.lt_iff_toDays_lt s.date t.date
  have same : s.date.toDays = t.date.toDays ↔ s.date = t.date :=
    ⟨Date.toDays_inj, congrArg Date.toDays⟩
  have early := s.second_lt
  have late := t.second_lt
  have done : compare ([] : List Int) [] ≠ .gt ↔ True := iff_true_intro nofun
  rw [Date.lt_def] at days
  rw [Date.eq_iff] at same
  simp only [notAfter, bne_iff_ne, orderKey, compare_cons_ne_gt, done, and_true, le_def,
    unixSeconds]
  omega

/-! ## A year later -/

/-- The same time of day a year later. -/
lemma nextYear?_eq_some {start stop : Instant} (h : start.nextYear? = some stop) :
    start.date.nextYear? = some stop.date ∧ stop.second = start.second ∧
      stop.nanos = start.nanos := by
  rw [nextYear?] at h
  cases found : start.date.nextYear? with
  | none =>
    rw [found] at h
    cases h
  | some date =>
    rw [found] at h
    cases h
    exact ⟨rfl, rfl, rfl⟩

/-- An instant has no next year only in the last year of the calendar. -/
lemma nextYear?_eq_none {start : Instant} :
    start.nextYear? = none ↔ start.date.year = maxYear := by
  rw [← Date.nextYear?_eq_none, nextYear?]
  cases start.date.nextYear? with
  | none => exact iff_of_true rfl rfl
  | some date => exact iff_of_false nofun nofun

/-- From the last year of the calendar on, 365 days lead out of it. -/
lemma daysLater?_of_last_year {start : Instant} (last : start.date.year = maxYear) :
    start.daysLater? 365 = none := by
  have outside : Date.ofDays? (start.date.toDays + 365) = none := by
    refine Option.eq_none_iff_forall_ne_some.2 fun stop found => ?_
    have length : Date.daysBeforeYear (maxYear + 1) = Date.daysBeforeYear maxYear + 365 := by decide
    have days := Date.toDays_of_ofDays? found
    have first := Date.daysBeforeYear_lt start.date
    have inside : stop.toDays ≤ Date.daysBeforeYear (maxYear + 1) := by
      refine Int.le_trans (Date.toDays_le stop) (Date.daysBeforeYear_mono ?_)
      exact Int.add_le_add_right stop.year_le 1
    rw [last] at first
    omega
  show (Date.ofDays? (start.date.toDays + 365)).bind _ = none
  rw [outside]
  rfl

end Instant

namespace Validity

/-- A window from an instant ends a calendar year later. -/
lemma oneYearFrom?_eq_some {start : Instant} {v : Validity} (h : oneYearFrom? start = some v) :
    v.notBefore = start ∧ start.nextYear? = some v.notAfter := by
  rw [oneYearFrom?] at h
  cases later : start.nextYear? with
  | none =>
    have last := Instant.nextYear?_eq_none.1 later
    rw [later, Instant.daysLater?_of_last_year last] at h
    cases h
  | some stop =>
    rw [later] at h
    cases h
    exact ⟨rfl, rfl⟩

/-- A window of a year has an end unless it starts in the last year of the calendar. -/
lemma oneYearFrom?_eq_none {start : Instant} :
    oneYearFrom? start = none ↔ start.date.year = maxYear := by
  rw [← Instant.nextYear?_eq_none, oneYearFrom?]
  cases later : start.nextYear? with
  | none =>
    rw [Instant.daysLater?_of_last_year (Instant.nextYear?_eq_none.1 later)]
    exact iff_of_true rfl rfl
  | some stop => exact iff_of_false nofun nofun

/-- A window contains what is between its ends, these included. -/
lemma contains_iff (v : Validity) (t : Instant) :
    v.contains t = true ↔ v.notBefore ≤ t ∧ t ≤ v.notAfter := by
  rw [contains, Bool.and_eq_true, Instant.notAfter_iff, Instant.notAfter_iff]

/-- There is a window of a year from every instant but those of the last year of the calendar, from
where 365 days lead out of it too. The window begins at the instant and ends in the next year on the
same day of the same month, or on 28 February for 29 February, at the same time of day. That is 366
days later if a 29 February comes after the first day and no later than the last, and else 365 days
later. The window holds the instants from its beginning to its end, both included. -/
theorem spans_calendar_year (start : Instant) :
    (oneYearFrom? start = none ↔ start.date.year = maxYear) ∧
    (start.nextYear? = none → start.daysLater? 365 = none) ∧
    ∀ v, oneYearFrom? start = some v →
      v.notBefore = start ∧
      v.notAfter.date.year = start.date.year + 1 ∧
      v.notAfter.date.month = start.date.month ∧
      v.notAfter.date.day = (if start.date.IsLeapDay then 28 else start.date.day) ∧
      v.notAfter.second = start.second ∧ v.notAfter.nanos = start.nanos ∧
      ((∃ x : Date, x.IsLeapDay ∧ start.date < x ∧ x ≤ v.notAfter.date) ∧
          v.notAfter.date.toDays = start.date.toDays + 366 ∨
        (¬ ∃ x : Date, x.IsLeapDay ∧ start.date < x ∧ x ≤ v.notAfter.date) ∧
          v.notAfter.date.toDays = start.date.toDays + 365) ∧
      (∀ t, v.contains t = true ↔ start ≤ t ∧ t ≤ v.notAfter) ∧
      v.contains start = true ∧ v.contains v.notAfter = true := by
  refine ⟨oneYearFrom?_eq_none, fun none =>
    Instant.daysLater?_of_last_year (Instant.nextYear?_eq_none.1 none), fun v made => ?_⟩
  obtain ⟨rfl, later⟩ := oneYearFrom?_eq_some made
  obtain ⟨date, second, nanos⟩ := Instant.nextYear?_eq_some later
  obtain ⟨year, month, day⟩ := Date.nextYear?_eq_some date
  have length := Date.toDays_nextYear? date
  have inOrder : v.notBefore ≤ v.notAfter := by
    refine .inl ?_
    rw [Instant.unixSeconds, Instant.unixSeconds, second]
    omega
  have ends (t : Instant) : t ≤ t := .inr ⟨rfl, Nat.le_refl _⟩
  exact ⟨rfl, year, month, day, second, nanos, length, contains_iff v,
    (contains_iff v _).2 ⟨ends _, inOrder⟩, (contains_iff v _).2 ⟨inOrder, ends _⟩⟩

/-- The year from a leap second at the end of 29 February 2024 ends in a leap second at the end of
28 February 2025, 365 days later. -/
theorem leap_second_of_leap_day :
    let first : Date :=
      ⟨2024, 2, 29, by decide, by decide, by decide, by decide, by decide, by decide⟩
    let last : Date :=
      ⟨2025, 2, 28, by decide, by decide, by decide, by decide, by decide, by decide⟩
    let start : Instant := ⟨first, 86399, 1500000000, by decide, by decide⟩
    let stop : Instant := ⟨last, 86399, 1500000000, by decide, by decide⟩
    oneYearFrom? start = some ⟨start, stop⟩ ∧ last.toDays = first.toDays + 365 ∧
      (¬ ∃ x : Date, x.IsLeapDay ∧ first < x ∧ x ≤ last) ∧
      ∀ t, (Validity.mk start stop).contains t = true ↔ start ≤ t ∧ t ≤ stop := by
  intro first last start stop
  have made : oneYearFrom? start = some ⟨start, stop⟩ := by decide
  have days : last.toDays = first.toDays + 365 := by decide
  obtain ⟨-, -, spec⟩ := spans_calendar_year start
  obtain ⟨-, -, -, -, -, -, length, holds, -⟩ := spec _ made
  refine ⟨made, days, ?_, holds⟩
  rcases length with ⟨-, longer⟩ | ⟨none, -⟩
  · exact absurd (days.symm.trans longer) (by decide)
  · exact none

end Validity

end Preferences
