import Mathlib.Algebra.Group.Nat.Defs
import Mathlib.Tactic.Lemma
import Preferences.Time.Timestamp

/-!
# Instants read back

Every instant of the calendar is read back from its text, those of leap seconds and of years with a
sign among them. Only where the nanoseconds run on for a second more before the end of a minute, the
text is that of the next second. Main statement: `Timestamp.parse_render`.
-/

namespace Preferences

namespace Instant

/-- A clock shows the instant: the nanoseconds run on for a second more at the end of a minute
only. -/
def OnClock (t : Instant) : Prop := t.nanos < nanosPerSecond ∨ t.second % 60 = 59

instance (t : Instant) : Decidable t.OnClock := inferInstanceAs (Decidable (_ ∨ _))

/-- The instant that a clock shows for it: a second more of nanoseconds before the end of a minute
is the next second. -/
def told (t : Instant) : Instant :=
  if h : t.OnClock then t
  else
    { date := t.date
      second := t.second + 1
      nanos := t.nanos - nanosPerSecond
      second_lt := by
        rw [OnClock] at h
        have := t.second_lt
        omega
      nanos_lt := Nat.lt_of_le_of_lt (Nat.sub_le _ _) t.nanos_lt }

/-- What is on a clock is told as it is. -/
lemma told_of_onClock {t : Instant} (h : t.OnClock) : t.told = t := dif_pos h

/-- What is told of an instant, a clock shows. -/
lemma onClock_told (t : Instant) : t.told.OnClock := by
  rw [told]
  split
  next h => exact h
  next h =>
    have bound := t.nanos_lt
    refine .inl ?_
    show t.nanos - nanosPerSecond < nanosPerSecond
    omega

/-- Only what is on a clock is told as it is. -/
lemma told_eq_self_iff {t : Instant} : t.told = t ↔ t.OnClock :=
  ⟨fun same => same ▸ t.onClock_told, told_of_onClock⟩

end Instant

namespace Timestamp

/-! ## Numbers -/

/-- A padded number has digits only. -/
lemma isDigit_of_mem_padded {width n : Nat} {c : Char} (h : c ∈ padded width n) :
    c.isDigit = true := by
  rcases List.mem_append.1 h with zero | digit
  · rw [List.eq_of_mem_replicate zero]
    decide
  · exact Nat.isDigit_of_mem_toDigits (by decide) (by decide) digit

/-- A padded number is read as the number. -/
lemma numberOf_padded (width n : Nat) : numberOf (padded width n) = n := by
  rw [numberOf, padded, Nat.ofDigitChars_append, Nat.ofDigitChars_replicate_zero, Nat.mul_zero]
  exact Nat.ofDigitChars_ten_toDigits

/-- A padded number has a digit at least. -/
lemma padded_ne_nil (width n : Nat) : padded width n ≠ [] := by
  intro empty
  exact Nat.toDigits_ne_nil (List.append_eq_nil_iff.1 empty).2

/-- A number that fits is padded to the width. -/
lemma length_padded {width n : Nat} (pos : 0 < width) (small : n < 10 ^ width) :
    (padded width n).length = width := by
  have fits : (natDigits n).length ≤ width :=
    (Nat.length_toDigits_le_iff (by decide) pos).2 small
  rw [padded, List.length_append, List.length_replicate]
  exact Nat.sub_add_cancel fits

/-- The text goes on with something other than a digit. -/
def Foreign (rest : List Char) : Prop := ∀ c cs, rest = c :: cs → c.isDigit = false

/-- A character that is no digit ends digits. -/
lemma Foreign.cons {c : Char} (cs : List Char) (h : c.isDigit = false) : Foreign (c :: cs) := by
  rintro d ds same
  cases same
  exact h

/-- Where digits have ended there are none to take. -/
lemma takeWhile_foreign {rest : List Char} (h : Foreign rest) (n : Nat) :
    (rest.take n).takeWhile Char.isDigit = [] := by
  cases rest with
  | nil => simp
  | cons c cs =>
    cases n with
    | zero => rfl
    | succ n => simp [h c cs rfl]

/-- Digits are taken up to the width, or up to what is no digit. -/
lemma digits_append {width : Nat} {ds rest : List Char} (nonempty : ds ≠ [])
    (all : ∀ c ∈ ds, c.isDigit = true)
    (fits : ds.length = width ∨ ds.length ≤ width ∧ Foreign rest) :
    digits width (ds ++ rest) = .ok (ds, rest) := by
  have taken : ((ds ++ rest).take width).takeWhile Char.isDigit = ds := by
    rw [List.take_append,
      List.takeWhile_append_of_pos fun c known => all c (List.mem_of_mem_take known)]
    rcases fits with exactly | ⟨within, foreign⟩
    · rw [exactly, Nat.sub_self, List.take_of_length_le (Nat.le_of_eq exactly)]
      exact List.append_nil ds
    · rw [takeWhile_foreign foreign, List.take_of_length_le within, List.append_nil]
  obtain ⟨d, ds', rfl⟩ := List.exists_cons_of_ne_nil nonempty
  rw [List.cons_append] at taken ⊢
  rw [digits, all d List.mem_cons_self]
  simp only [taken]
  have behind : (d :: ds' ++ rest).drop (d :: ds').length = rest := List.drop_left
  exact congrArg (fun rest => Except.ok (d :: ds', rest)) behind

/-! ## Parts of a text -/

/-- There is no blank to skip before another character. -/
lemma skipBlank_cons {c : Char} (cs : List Char) (h : isBlank c = false) :
    skipBlank (c :: cs) = c :: cs :=
  List.dropWhile_cons_of_neg (by rw [h]; decide)

/-- A digit is no blank. -/
lemma isBlank_of_isDigit {c : Char} (h : c.isDigit = true) : isBlank c = false := by
  have digit : 48 ≤ c.toNat ∧ c.toNat ≤ 57 := by
    simpa [Char.isDigit, UInt32.le_iff_toNat_le] using h
  simp only [isBlank, Bool.or_eq_false_iff, Bool.and_eq_false_iff, decide_eq_false_iff_not,
    beq_eq_false_iff_ne]
  omega

/-- A padded number begins with no sign. -/
lemma padded_append_ne {width n : Nat} {rest ds : List Char} {c : Char} (sign : c.isDigit = false) :
    padded width n ++ rest ≠ c :: ds := by
  obtain ⟨d, ds', e⟩ := List.exists_cons_of_ne_nil (padded_ne_nil width n)
  have digit : d.isDigit = true := isDigit_of_mem_padded (e ▸ List.mem_cons_self)
  rw [e]
  intro same
  rw [(List.cons.inj same).1, sign] at digit
  cases digit

/-- There is no blank to skip before a padded number. -/
lemma skipBlank_padded (width n : Nat) (rest : List Char) :
    skipBlank (padded width n ++ rest) = padded width n ++ rest := by
  obtain ⟨d, ds, e⟩ := List.exists_cons_of_ne_nil (padded_ne_nil width n)
  have digit : d.isDigit = true := isDigit_of_mem_padded (e ▸ List.mem_cons_self)
  rw [e, List.cons_append]
  exact skipBlank_cons _ (isBlank_of_isDigit digit)

/-- A field is read as the padded number that fills it. -/
lemma field_padded {width lo hi n : Nat} (pos : 0 < width) (small : n < 10 ^ width)
    (range : lo ≤ n ∧ n ≤ hi) (rest : List Char) :
    field width lo hi (padded width n ++ rest) = .ok (n, rest) := by
  have taken : digits width (padded width n ++ rest) = .ok (padded width n, rest) :=
    digits_append (padded_ne_nil width n) (fun c => isDigit_of_mem_padded)
      (.inl (length_padded pos small))
  rw [field, skipBlank_padded, taken]
  simp only [bind, Except.bind, numberOf_padded, if_pos range]
  rfl

/-- A separator is read where it stands. -/
lemma separator_cons {c : Char} (cs : List Char) (h : isBlank c = false) :
    separator c (c :: cs) = .ok cs := by
  rw [separator, skipBlank_cons cs h, mark, if_pos rfl]

/-- A padded year is read with all its digits. -/
lemma longNumber_padded {n : Nat} (small : n < 0x8000000000000000) {rest : List Char}
    (foreign : Foreign rest) : longNumber (padded 4 n ++ rest) = .ok (n, rest) := by
  have taken :
      digits (padded 4 n ++ rest).length (padded 4 n ++ rest) = .ok (padded 4 n, rest) := by
    refine digits_append (padded_ne_nil 4 n) (fun c => isDigit_of_mem_padded) (.inr ⟨?_, foreign⟩)
    rw [List.length_append]
    exact Nat.le_add_right _ _
  rw [longNumber, taken]
  simp only [bind, Except.bind, numberOf_padded]
  exact if_pos small

/-- A year with or without a sign is read back. -/
lemma year_yearChars {y : Int} (lo : minYear ≤ y) (hi : y ≤ maxYear) {rest : List Char}
    (foreign : Foreign rest) : year (yearChars y ++ rest) = .ok (y, rest) := by
  have range : -0x80000000 ≤ y ∧ y < 0x80000000 := by
    simp only [minYear, maxYear] at lo hi
    omega
  rw [yearChars]
  split
  next plain =>
    -- four digits and no sign
    have small : y.toNat < 10 ^ 4 := by omega
    have value : Int.ofNat y.toNat = y := Int.toNat_of_nonneg plain.1
    have taken : digits 4 (padded 4 y.toNat ++ rest) = .ok (padded 4 y.toNat, rest) :=
      digits_append (padded_ne_nil 4 _) (fun c => isDigit_of_mem_padded)
        (.inl (length_padded (by decide) small))
    rw [year, skipBlank_padded]
    split
    next same => exact absurd same (padded_append_ne (by decide))
    next same => exact absurd same (padded_append_ne (by decide))
    next =>
      have number : (digits 4 (padded 4 y.toNat ++ rest)).map
          (fun p => (Int.ofNat (numberOf p.1), p.2)) = .ok (y, rest) := by
        rw [taken, Except.map, numberOf_padded, value]
      rw [number]
      exact if_pos range
  next signed =>
    have small : y.natAbs < 0x8000000000000000 := by omega
    by_cases negative : y < 0
    · have value : -Int.ofNat y.natAbs = y := by
        simp only [Int.ofNat_eq_natCast]
        omega
      have number : (longNumber (padded 4 y.natAbs ++ rest)).map
          (fun p => (-Int.ofNat p.1, p.2)) = .ok (y, rest) := by
        rw [longNumber_padded small foreign, Except.map, value]
      rw [if_pos negative, List.cons_append, year, skipBlank_cons _ (by decide)]
      show ((longNumber (padded 4 y.natAbs ++ rest)).map fun p => (-Int.ofNat p.1, p.2)).bind _ = _
      rw [number]
      exact if_pos range
    · have value : Int.ofNat y.natAbs = y := by
        simp only [Int.ofNat_eq_natCast]
        omega
      have number : (longNumber (padded 4 y.natAbs ++ rest)).map
          (fun p => (Int.ofNat p.1, p.2)) = .ok (y, rest) := by
        rw [longNumber_padded small foreign, Except.map, value]
      rw [if_neg negative, List.cons_append, year, skipBlank_cons _ (by decide)]
      show ((longNumber (padded 4 y.natAbs ++ rest)).map fun p => (Int.ofNat p.1, p.2)).bind _ = _
      rw [number]
      exact if_pos range

/-- A fraction of three, six or nine digits counts as many nanoseconds as its place says. -/
lemma fraction_padded {width n : Nat} (pos : 0 < width) (short : width ≤ 9)
    (small : n < 10 ^ width) {rest : List Char} (foreign : Foreign rest) :
    fraction ('.' :: padded width n ++ rest) = .ok (n * Nat.pow 10 (9 - width), rest) := by
  have length := length_padded pos small
  have taken : digits 9 (padded width n ++ rest) = .ok (padded width n, rest) :=
    digits_append (padded_ne_nil width n) (fun c => isDigit_of_mem_padded)
      (.inr ⟨by rwa [length], foreign⟩)
  have stays : rest.dropWhile Char.isDigit = rest := by
    cases rest with
    | nil => rfl
    | cons c cs => exact List.dropWhile_cons_of_neg (by rw [foreign c cs rfl]; decide)
  rw [List.cons_append, fraction, taken]
  simp only [bind, Except.bind, numberOf_padded, length, stays]
  rfl

/-- A fraction of a second is read back. -/
lemma fraction_fractionChars {nanos : Nat} (small : nanos < nanosPerSecond) (rest : List Char) :
    fraction (fractionChars nanos ++ 'Z' :: rest) = .ok (nanos, 'Z' :: rest) := by
  have foreign : Foreign ('Z' :: rest) := .cons rest (by decide)
  rw [nanosPerSecond] at small
  rw [fractionChars]
  split
  next none =>
    subst none
    rfl
  next =>
    split
    next millis =>
      have whole : nanos / 1000000 * Nat.pow 10 (9 - 3) = nanos :=
        Nat.div_mul_cancel (Nat.dvd_of_mod_eq_zero millis)
      rw [fraction_padded (by decide) (by decide) (by omega) foreign, whole]
    next =>
      split
      next micros =>
        have whole : nanos / 1000 * Nat.pow 10 (9 - 6) = nanos :=
          Nat.div_mul_cancel (Nat.dvd_of_mod_eq_zero micros)
        rw [fraction_padded (by decide) (by decide) (by omega) foreign, whole]
      next =>
        rw [fraction_padded (by decide) (by decide) (by omega) foreign]
        exact congrArg (fun n => Except.ok (n, 'Z' :: rest)) (Nat.mul_one nanos)

/-! ## Whole texts -/

/-- A date is found by its parts. -/
lemma ofParts?_date (d : Date) : Date.ofParts? d.year d.month d.day = some d :=
  dif_pos ⟨⟨d.year_ge, d.year_le⟩, ⟨d.month_pos, d.month_le⟩, d.day_pos, d.day_le⟩

/-- An instant is found by its parts. -/
lemma ofParts?_instant (t : Instant) : Instant.ofParts? t.date t.second t.nanos = some t :=
  dif_pos ⟨t.second_lt, t.nanos_lt⟩

/-- To shift by nothing gives the same instant. -/
lemma shift?_zero (t : Instant) : t.shift? (-0) = some t := by
  have bound := t.second_lt
  have same : ((t.second : Int) + -0).toNat = t.second := by omega
  rw [Instant.shift?]
  rw [if_neg (by omega), if_pos (by omega), same]
  exact ofParts?_instant t

/-- The parts of an instant make the instant. -/
lemma assemble_parts (t : Instant) {s nanos : Nat}
    (second : 3600 * (t.second / 3600) + 60 * (t.second / 60 % 60) + (if s = 60 then 59 else s) =
      t.second) (fraction : nanos + (if s = 60 then nanosPerSecond else 0) = t.nanos) :
    assemble t.date.year t.date.month t.date.day (t.second / 3600) (t.second / 60 % 60) s nanos 0 =
      .ok t := by
  simp only [assemble, beq_iff_eq, second, fraction, ofParts?_date, ofParts?_instant, shift?_zero]
  rfl

/-- A text of parts that are in range is read as these parts. -/
lemma parse_parts {y : Int} {mo d h mi s nanos : Nat} (ylo : minYear ≤ y) (yhi : y ≤ maxYear)
    (hmo : 1 ≤ mo ∧ mo ≤ 12) (hd : 1 ≤ d ∧ d ≤ 31) (hh : h ≤ 23) (hmi : mi ≤ 59) (hs : s ≤ 60)
    (hn : nanos < nanosPerSecond) :
    parse (yearChars y ++ '-' :: (padded 2 mo ++ '-' :: (padded 2 d ++ 'T' :: (padded 2 h ++
      ':' :: (padded 2 mi ++ ':' :: (padded 2 s ++ (fractionChars nanos ++ ['Z']))))))) =
      assemble y mo d h mi s nanos 0 := by
  have dash : isBlank '-' = false := by decide
  have colon : isBlank ':' = false := by decide
  have foreign (rest : List Char) : Foreign ('-' :: rest) := .cons rest (by decide)
  rw [parse, year_yearChars ylo yhi (foreign _)]
  simp only [bind, Except.bind, separator_cons _ dash]
  rw [field_padded (by decide) (by omega) hmo]
  simp only [separator_cons _ dash]
  rw [field_padded (by decide) (by omega) hd]
  simp only [true_or, if_true]
  rw [field_padded (by decide) (by omega) ⟨Nat.zero_le _, hh⟩]
  simp only [separator_cons _ colon]
  rw [field_padded (by decide) (by omega) ⟨Nat.zero_le _, hmi⟩]
  simp only [separator_cons _ colon]
  rw [field_padded (by decide) (by omega) ⟨Nat.zero_le _, hs⟩]
  simp only [fraction_fractionChars hn]
  rfl

/-- No month has more than 31 days. -/
lemma day_le (d : Date) : d.day ≤ 31 := by
  refine Nat.le_trans d.day_le ?_
  rw [daysInMonth]
  split
  · split <;> decide
  · split <;> decide

/-- Instants that a clock shows alike have one text. -/
lemma render_told (t : Instant) : render t.told = render t := by
  by_cases h : t.OnClock
  · rw [Instant.told_of_onClock h]
  · rw [Instant.OnClock, not_or, Nat.not_lt] at h
    have bound := t.nanos_lt
    have carried : t.told.date = t.date ∧ t.told.second = t.second + 1 ∧
        t.told.nanos = t.nanos - nanosPerSecond := by
      rw [Instant.told, dif_neg (by rw [Instant.OnClock]; omega)]
      exact ⟨rfl, rfl, rfl⟩
    obtain ⟨date, second, nanos⟩ := carried
    -- the next second is in the same minute, and what is left of the nanoseconds is less than one
    have hour : (t.second + 1) / 3600 = t.second / 3600 := by omega
    have minute : (t.second + 1) / 60 % 60 = t.second / 60 % 60 := by omega
    have within : (t.second + 1) % 60 = t.second % 60 + 1 := by omega
    have settled : ¬ nanosPerSecond ≤ t.nanos - nanosPerSecond := by omega
    simp only [render, date, second, nanos, hour, minute, within, if_neg settled, if_pos h.1,
      Nat.add_zero, Nat.sub_zero]

/-- An instant that a clock shows is read back from its text. -/
lemma parse_render_of_onClock {t : Instant} (shown : t.OnClock) : parse (render t) = .ok t := by
  have bound := t.second_lt
  have nanos := t.nanos_lt
  have shape (s n : Nat) :
      yearChars t.date.year ++ ['-'] ++ padded 2 t.date.month ++ ['-'] ++ padded 2 t.date.day ++
        ['T'] ++ padded 2 (t.second / 3600) ++ [':'] ++ padded 2 (t.second / 60 % 60) ++ [':'] ++
        padded 2 s ++ fractionChars n ++ ['Z'] =
      yearChars t.date.year ++ '-' :: (padded 2 t.date.month ++ '-' :: (padded 2 t.date.day ++
        'T' :: (padded 2 (t.second / 3600) ++ ':' :: (padded 2 (t.second / 60 % 60) ++
          ':' :: (padded 2 s ++ (fractionChars n ++ ['Z'])))))) := by
    simp only [List.append_assoc, List.cons_append, List.nil_append]
  have month : 1 ≤ t.date.month ∧ t.date.month ≤ 12 := ⟨t.date.month_pos, t.date.month_le⟩
  have day : 1 ≤ t.date.day ∧ t.date.day ≤ 31 := ⟨t.date.day_pos, day_le t.date⟩
  rw [render]
  by_cases leap : nanosPerSecond ≤ t.nanos
  · -- a leap second is the sixtieth of a minute that has already had its fifty-nine
    have last : t.second % 60 = 59 := shown.resolve_left (Nat.not_lt.2 leap)
    simp only [if_pos leap]
    rw [shape, parse_parts t.date.year_ge t.date.year_le month day (by omega) (by omega) (by omega)
      (by omega)]
    refine assemble_parts t ?_ ?_
    · rw [if_pos (by omega)]
      omega
    · rw [if_pos (by omega)]
      omega
  · simp only [if_neg leap]
    rw [shape, parse_parts t.date.year_ge t.date.year_le month day (by omega) (by omega) (by omega)
      (by omega)]
    refine assemble_parts t ?_ ?_
    · rw [if_neg (by omega)]
      omega
    · rw [if_neg (by omega)]
      omega

/-- From its text an instant is read as a clock shows it. -/
theorem parse_render (t : Instant) : parse (render t) = .ok t.told := by
  rw [← render_told, parse_render_of_onClock t.onClock_told]

end Timestamp

end Preferences
