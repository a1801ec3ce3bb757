import Preferences.Proofs.Json.Grammar

/-!
# Number literals

How JSON writes numbers, part by part and with no word about readers, and how the reader of numbers
does on what is so written: it takes all of it, whatever ends the number behind it, unless the
number is out of range; and it takes nothing else. Main statements: `NumberLiteral.settles` and
`literal_of_numberHead`.
-/

namespace Preferences.Json

open JsonFault

/-! ## The grammar -/

/-- Digits, at least one. -/
def SomeDigits (ds : List Char) : Prop := ds ≠ [] ∧ ∀ d ∈ ds, d.isDigit = true

/-- The digits before the point: a zero stands alone. -/
def SpellsWhole (ds : List Char) : Prop := SomeDigits ds ∧ (ds.head? = some '0' → ds = ['0'])

/-- The point and the digits behind it, if there are any. -/
inductive SpellsFraction : List Char → Prop where
  | none : SpellsFraction []
  | some {fs : List Char} : SomeDigits fs → SpellsFraction ('.' :: fs)

/-- The mark of an exponent, its sign if it has one, and its digits, if there is one. -/
inductive SpellsExponent : List Char → Prop where
  | none : SpellsExponent []
  | some {mark : Char} {sign ds : List Char} : mark = 'e' ∨ mark = 'E' →
    sign = [] ∨ sign = ['+'] ∨ sign = ['-'] → SomeDigits ds → SpellsExponent (mark :: (sign ++ ds))

/-- A number as JSON writes it. -/
inductive NumberLiteral : List Char → Prop where
  | intro {sign whole fraction exponent : List Char} : sign = [] ∨ sign = ['-'] →
    SpellsWhole whole → SpellsFraction fraction → SpellsExponent exponent →
    NumberLiteral (sign ++ (whole ++ (fraction ++ exponent)))

/-- The characters do not go on with a number that has this fraction and this exponent. -/
def EndsAfter (fraction exponent rest : List Char) : Prop :=
  ∀ c ds, rest = c :: ds → c.isDigit = false ∧
    (exponent = [] → c ≠ 'e' ∧ c ≠ 'E' ∧ (fraction = [] → c ≠ '.'))

/-- What stops any number ends one with whatever fraction and exponent. -/
lemma Stops.endsAfter {rest : List Char} (stops : Stops rest) (fraction exponent : List Char) :
    EndsAfter fraction exponent rest := by
  intro c ds same
  obtain ⟨foreign, point, lower, upper⟩ := stops c ds same
  exact ⟨foreign, fun _ => ⟨lower, upper, fun _ => point⟩⟩

/-- What ends a number begins with no digit. -/
lemma EndsAfter.foreign {fraction exponent rest : List Char}
    (ends : EndsAfter fraction exponent rest) : Foreign rest :=
  fun c ds same => (ends c ds same).1

/-- A character that is no digit ends digits. -/
lemma Foreign.cons {c : Char} (other : c.isDigit = false) (ds : List Char) : Foreign (c :: ds) := by
  rintro d es ⟨⟩
  exact other

/-- Digits do not go on with a text and its rest if they do not with either. -/
lemma foreign_append {text rest : List Char} (first : Foreign text) (then_ : Foreign rest) :
    Foreign (text ++ rest) := by
  cases text with
  | nil => exact then_
  | cons c cs => exact .cons (first c cs rfl) _

/-- An exponent begins with no digit. -/
lemma SpellsExponent.foreign {text : List Char} (h : SpellsExponent text) : Foreign text := by
  cases h with
  | none => nofun
  | some mark => rcases mark with rfl | rfl <;> exact .cons (by decide) _

/-- A fraction begins with no digit. -/
lemma SpellsFraction.foreign {text : List Char} (h : SpellsFraction text) : Foreign text := by
  cases h with
  | none => nofun
  | some => exact .cons (by decide) _

/-- Characters part at the first that is no digit. -/
lemma digits_split (cs : List Char) :
    ∃ ds rest, cs = ds ++ rest ∧ (∀ d ∈ ds, d.isDigit = true) ∧ Foreign rest := by
  refine ⟨cs.takeWhile Char.isDigit, cs.dropWhile Char.isDigit,
    List.takeWhile_append_dropWhile.symm, List.all_eq_true.1 List.all_takeWhile, ?_⟩
  intro c ds same
  have first := List.head?_dropWhile_not Char.isDigit cs
  rw [same] at first
  simpa using first

/-! ## Digits are passed over -/

section Passing

variable {positive : Bool} {ds rest : List Char}

/-- Digits are taken up to where they end. -/
lemma takeWhile_digits (digits : ∀ d ∈ ds, d.isDigit = true) (foreign : Foreign rest) :
    (ds ++ rest).takeWhile Char.isDigit = ds ∧ (ds ++ rest).dropWhile Char.isDigit = rest := by
  rw [List.takeWhile_append_of_pos digits, List.dropWhile_append_of_pos digits]
  cases rest with
  | nil => simp
  | cons c cs => simp [foreign c cs rfl]

/-- Digits that do not fit are left, whatever stands behind them. -/
lemma fit_foreign (limit n : Nat) (digits : ∀ d ∈ ds, d.isDigit = true) :
    ∃ m left, (∀ d ∈ left, d.isDigit = true) ∧ left.length ≤ ds.length ∧
      ∀ rest, Foreign rest → fit limit n (ds ++ rest) = (m, left ++ rest) := by
  induction ds generalizing n with
  | nil =>
    refine ⟨n, [], nofun, Nat.le_refl _, fun rest foreign => ?_⟩
    cases rest with
    | nil => rfl
    | cons c cs => simp [fit, foreign c cs rfl]
  | cons d ds ih =>
    obtain ⟨digit, others⟩ := List.forall_mem_cons.1 digits
    by_cases fits : 10 * n + digitValue d ≤ limit
    · obtain ⟨m, left, still, short, taken⟩ := ih (10 * n + digitValue d) others
      refine ⟨m, left, still, Nat.le_succ_of_le short, fun rest foreign => ?_⟩
      rw [List.cons_append, fit, if_pos ⟨digit, fits⟩, taken rest foreign]
    · refine ⟨n, d :: ds, digits, Nat.le_refl _, fun rest _ => ?_⟩
      rw [List.cons_append, fit, if_neg fun h => fits h.2]

end Passing

/-! ## Literals are taken -/

/-- A reader does alike on a text whatever ends it: it takes it for one number, or finds it out of
range. -/
def Settles (reader : List Char → Read JsonNumber) (ends : List Char → Prop) (text : List Char) :
    Prop :=
  (∃ n, ∀ rest, ends rest → reader (text ++ rest) = .ok (n, rest)) ∨
    ∀ rest, ends rest → ∃ left, reader (text ++ rest) = .error (.placed .numberOutOfRange left)

/-- A reader settles as one that reads the same. -/
lemma Settles.of_eq {reader reader' : List Char → Read JsonNumber} {ends : List Char → Prop}
    {text text' : List Char} (h : Settles reader' ends text')
    (same : ∀ rest, ends rest → reader (text ++ rest) = reader' (text' ++ rest)) :
    Settles reader ends text := by
  rcases h with ⟨n, taken⟩ | refused
  · exact .inl ⟨n, fun rest ended => (same rest ended).trans (taken rest ended)⟩
  · refine .inr fun rest ended => ?_
    obtain ⟨left, out⟩ := refused rest ended
    exact ⟨left, (same rest ended).trans out⟩

/-- A reader that settles before some ends settles before fewer. -/
lemma Settles.mono {reader : List Char → Read JsonNumber} {ends ends' : List Char → Prop}
    {text : List Char} (h : Settles reader ends text) (weaker : ∀ rest, ends' rest → ends rest) :
    Settles reader ends' text :=
  h.imp (fun ⟨n, taken⟩ => ⟨n, fun rest ended => taken rest (weaker rest ended)⟩)
    fun refused rest ended => refused rest (weaker rest ended)

section Reading

variable {positive : Bool} {n : Nat} {start : Int} {ends : List Char → Prop}
  {text ds fs fraction ex rest : List Char}

/-- A number is scaled whatever follows, or is out of range. -/
lemma settles_scaled (positive : Bool) (n : Nat) (e : Int) :
    Settles (scaled positive n e) ends [] := by
  cases scaled : scaleByTen n e with
  | some x =>
    refine .inl ⟨.float (withSign positive x), fun rest _ => ?_⟩
    rw [List.nil_append, Json.scaled, scaled]
  | none =>
    refine .inr fun rest _ => ⟨utf8Size rest, ?_⟩
    rw [List.nil_append, Json.scaled, scaled]
    rfl

/-- The digits of an exponent, up or down. -/
def exponentDigits (positive up : Bool) (n : Nat) (start : Int) (cs : List Char) :
    Read JsonNumber :=
  match cs with
  | [] => .error (here .eofValue [])
  | c :: _ =>
    if !c.isDigit then .error (ahead .invalidNumber cs)
    else
      let (e, rest) := fit 0x7fffffff 0 cs
      match rest with
      | d :: ds =>
        if d.isDigit then
          if n ≠ 0 ∧ up then .error (here .numberOutOfRange ds)
          else .ok (.float (withSign positive 0), ds.dropWhile Char.isDigit)
        else scaled positive n (clampExponent (if up then start + e else start - e)) rest
      | [] => scaled positive n (clampExponent (if up then start + e else start - e)) rest

/-- An exponent goes up unless its sign is a minus. -/
lemma exponent_cases (positive : Bool) (n : Nat) (start : Int) (cs : List Char) :
    ∃ sign ds up, (sign = [] ∨ sign = ['+'] ∨ sign = ['-']) ∧ cs = sign ++ ds ∧
      exponent positive n start cs = exponentDigits positive up n start ds := by
  rw [exponent.eq_def]
  split
  next up ds signs =>
    split at signs
    next => cases signs; exact ⟨['+'], ds, true, .inr (.inl rfl), rfl, rfl⟩
    next => cases signs; exact ⟨['-'], ds, false, .inr (.inr rfl), rfl, rfl⟩
    next => cases signs; exact ⟨[], cs, true, .inl rfl, rfl, rfl⟩

/-- The digits of an exponent are read up to where they end. -/
lemma settles_exponentDigits (positive up : Bool) (n : Nat) (start : Int) (digits : SomeDigits ds) :
    Settles (exponentDigits positive up n start) Foreign ds := by
  obtain ⟨m, left, still, -, taken⟩ := fit_foreign 0x7fffffff 0 digits.2
  obtain ⟨c, cs, rfl⟩ := List.exists_cons_of_ne_nil digits.1
  have digit : c.isDigit = true := digits.2 c List.mem_cons_self
  have fitted (rest : List Char) (foreign : Foreign rest) :
      fit 0x7fffffff 0 (c :: (cs ++ rest)) = (m, left ++ rest) := taken rest foreign
  -- digits are left only of an exponent that has more than 32 bits
  cases left with
  | nil =>
    refine (settles_scaled positive n
      (clampExponent (if up then start + m else start - m))).of_eq fun rest foreign => ?_
    rw [List.cons_append, exponentDigits]
    simp only [digit, Bool.not_true, Bool.false_eq_true, if_false, fitted rest foreign]
    cases rest with
    | nil => rfl
    | cons d ds => simp [foreign d ds rfl]
  | cons d ds =>
    obtain ⟨more, others⟩ := List.forall_mem_cons.1 still
    by_cases large : n ≠ 0 ∧ up
    · refine .inr fun rest foreign => ⟨utf8Size (ds ++ rest), ?_⟩
      rw [List.cons_append, exponentDigits]
      simp only [digit, Bool.not_true, Bool.false_eq_true, if_false, fitted rest foreign,
        List.cons_append, more, if_true, if_pos large]
      rfl
    · refine .inl ⟨.float (withSign positive 0), fun rest foreign => ?_⟩
      rw [List.cons_append, exponentDigits]
      simp only [digit, Bool.not_true, Bool.false_eq_true, if_false, fitted rest foreign,
        List.cons_append, more, if_true, if_neg large, (takeWhile_digits others foreign).2]

/-- An exponent without its mark. -/
lemma settles_exponent (positive : Bool) (n : Nat) (start : Int) {sign : List Char}
    (signed : sign = [] ∨ sign = ['+'] ∨ sign = ['-']) (digits : SomeDigits ds) :
    Settles (exponent positive n start) Foreign (sign ++ ds) := by
  rcases signed with rfl | rfl | rfl
  · refine (settles_exponentDigits positive true n start digits).of_eq fun rest _ => ?_
    obtain ⟨c, cs, rfl⟩ := List.exists_cons_of_ne_nil digits.1
    have digit : c.isDigit = true := digits.2 c List.mem_cons_self
    rw [List.nil_append, List.cons_append, exponent.eq_def]
    split
    next up ds signs =>
      split at signs
      next same => cases same; cases digit
      next same => cases same; cases digit
      next => cases signs; rfl
  · exact (settles_exponentDigits positive true n start digits).of_eq fun _ _ => rfl
  · exact (settles_exponentDigits positive false n start digits).of_eq fun _ _ => rfl

/-- A mark begins an exponent. -/
lemma exponent?_mark {mark : Char} (marks : mark = 'e' ∨ mark = 'E') (cs : List Char) :
    exponent? positive n start (mark :: cs) = exponent positive n start cs := if_pos marks

/-- Where there is no mark there is no exponent. -/
lemma exponent?_plain (plain : ∀ c ds, rest = c :: ds → c ≠ 'e' ∧ c ≠ 'E') :
    exponent? positive n start rest = scaled positive n start rest := by
  cases rest with
  | nil => rfl
  | cons c cs => exact if_neg (not_or.2 (plain c cs rfl))

/-- An exponent is read if it is there. -/
lemma settles_exponent? (positive : Bool) (n : Nat) (start : Int) (h : SpellsExponent ex) :
    Settles (exponent? positive n start) (EndsAfter fraction ex) ex := by
  cases h with
  | none =>
    refine (settles_scaled positive n start).of_eq fun rest ends => exponent?_plain ?_
    intro c ds same
    obtain ⟨lower, upper, -⟩ := (ends c ds same).2 rfl
    exact ⟨lower, upper⟩
  | some marks signed digits =>
    exact ((settles_exponent positive n start signed digits).mono fun _ => EndsAfter.foreign).of_eq
      fun rest _ => exponent?_mark marks _

/-- The digits behind a point are passed over. -/
lemma decimals_pass (positive : Bool) (n : Nat) (start : Int) (digits : SomeDigits fs) :
    ∃ m k, ∀ rest, Foreign rest →
      decimals positive n start (fs ++ rest) = exponent? positive m k rest := by
  obtain ⟨m, left, still, short, taken⟩ := fit_foreign maxSignificand n digits.2
  refine ⟨m, start - (fs.length - left.length : Nat), fun rest foreign => ?_⟩
  have used : (fs ++ rest).length - (left ++ rest).length = fs.length - left.length := by
    simp only [List.length_append]
    omega
  rw [decimals, taken rest foreign]
  dsimp only
  rw [used]
  cases left with
  | nil =>
    have some : fs.length ≠ 0 := by simpa using digits.1
    cases rest with
    | nil => exact if_neg some
    | cons d ds =>
      simp only [List.nil_append, foreign d ds rfl, Bool.false_eq_true, if_false, List.length_nil,
        Nat.sub_zero, if_neg some]
  | cons d ds =>
    obtain ⟨digit, others⟩ := List.forall_mem_cons.1 still
    simp only [List.cons_append, digit, if_true, (takeWhile_digits others foreign).2]

/-- The digits behind the point are read, and the exponent if it is there. -/
lemma settles_decimals (positive : Bool) (n : Nat) (start : Int) (digits : SomeDigits fs)
    (h : SpellsExponent ex) :
    Settles (decimals positive n start) (EndsAfter fraction ex) (fs ++ ex) := by
  obtain ⟨m, k, passed⟩ := decimals_pass positive n start digits
  refine (settles_exponent? positive m k h).of_eq fun rest ends => ?_
  rw [List.append_assoc]
  exact passed _ (foreign_append h.foreign ends.foreign)

/-- What stands behind the digits before the point, of which so many have no room. -/
def pastDigits (positive : Bool) (n surplus : Nat) (cs : List Char) : Read JsonNumber :=
  match cs with
  | c :: ds =>
    if c = '.' then decimals positive n surplus ds
    else if c = 'e' ∨ c = 'E' then exponent positive n surplus ds
    else if surplus = 0 then .ok (whole positive n, cs)
    else scaled positive n surplus cs
  | [] =>
    if surplus = 0 then .ok (whole positive n, cs)
    else scaled positive n surplus cs

/-- Digits that are too many are counted. -/
lemma afterDigits_append (positive : Bool) (n : Nat) (digits : ∀ d ∈ ds, d.isDigit = true)
    (foreign : Foreign rest) :
    afterDigits positive n (ds ++ rest) = pastDigits positive n ds.length rest := by
  obtain ⟨taken, dropped⟩ := takeWhile_digits digits foreign
  rw [afterDigits, taken, dropped]
  rfl

/-- Behind digits that are too many an exponent counts from there. -/
lemma pastDigits_mark (surplus : Nat) {mark : Char} (marks : mark = 'e' ∨ mark = 'E')
    (cs : List Char) :
    pastDigits positive n surplus (mark :: cs) = exponent positive n surplus cs := by
  have other : mark ≠ '.' := by rcases marks with rfl | rfl <;> decide
  rw [pastDigits, if_neg other, if_pos marks]

/-- Behind digits that are too many the fraction and the exponent are read. -/
lemma settles_pastDigits (positive : Bool) (n surplus : Nat)
    (fractional : SpellsFraction fraction) (h : SpellsExponent ex) :
    Settles (pastDigits positive n surplus) (EndsAfter fraction ex) (fraction ++ ex) := by
  cases fractional with
  | some digits => exact (settles_decimals positive n surplus digits h).of_eq fun _ _ => rfl
  | none =>
    cases h with
    | some marks signed digits =>
      exact ((settles_exponent positive n surplus signed digits).mono
        fun _ => EndsAfter.foreign).of_eq fun rest _ => pastDigits_mark surplus marks _
    | none =>
      have ended (rest : List Char) (ends : EndsAfter [] [] rest) :
          pastDigits positive n surplus rest =
            if surplus = 0 then .ok (whole positive n, rest)
            else scaled positive n surplus rest := by
        cases rest with
        | nil => rfl
        | cons c cs =>
          obtain ⟨lower, upper, point⟩ := (ends c cs rfl).2 rfl
          rw [pastDigits, if_neg (point rfl), if_neg (not_or.2 ⟨lower, upper⟩)]
      by_cases fits : surplus = 0
      · refine .inl ⟨whole positive n, fun rest ends => ?_⟩
        exact (ended rest ends).trans (if_pos fits)
      · refine (settles_scaled positive n surplus).of_eq fun rest ends => ?_
        exact (ended rest ends).trans (if_neg fits)

/-- All that follows the digits that fit is read. -/
lemma settles_afterDigits (positive : Bool) (n : Nat) (digits : ∀ d ∈ ds, d.isDigit = true)
    (fractional : SpellsFraction fraction) (h : SpellsExponent ex) :
    Settles (afterDigits positive n) (EndsAfter fraction ex) (ds ++ (fraction ++ ex)) := by
  refine (settles_pastDigits positive n ds.length fractional h).of_eq fun rest ends => ?_
  rw [List.append_assoc]
  exact afterDigits_append positive n digits
    (foreign_append (foreign_append fractional.foreign h.foreign) ends.foreign)

/-- The digits before the point are passed over. -/
lemma unsigned_pass (positive : Bool) (h : SpellsWhole ds) :
    ∃ m left, (∀ d ∈ left, d.isDigit = true) ∧ ∀ rest, Foreign rest →
      unsigned positive (ds ++ rest) = afterDigits positive m (left ++ rest) := by
  obtain ⟨⟨some, digits⟩, zero⟩ := h
  obtain ⟨c, cs, rfl⟩ := List.exists_cons_of_ne_nil some
  by_cases leading : c = '0'
  · subst leading
    obtain rfl : cs = [] := (List.cons.inj (zero rfl)).2
    refine ⟨0, [], nofun, fun rest foreign => ?_⟩
    rw [List.singleton_append, List.nil_append, unsigned.eq_def]
    dsimp only
    rw [if_pos rfl]
    cases rest with
    | nil => rfl
    | cons d ds => simp only [foreign d ds rfl, Bool.false_eq_true, if_false]
  · obtain ⟨digit, others⟩ := List.forall_mem_cons.1 digits
    obtain ⟨m, left, still, -, taken⟩ := fit_foreign maxSignificand (digitValue c) others
    refine ⟨m, left, still, fun rest foreign => ?_⟩
    rw [List.cons_append, unsigned.eq_def]
    dsimp only
    rw [if_neg leading, if_pos digit, taken rest foreign]

/-- The number behind its sign is read. -/
lemma settles_unsigned (positive : Bool) (h : SpellsWhole ds)
    (fractional : SpellsFraction fraction) (exponential : SpellsExponent ex) :
    Settles (unsigned positive) (EndsAfter fraction ex) (ds ++ (fraction ++ ex)) := by
  obtain ⟨m, left, still, passed⟩ := unsigned_pass positive h
  refine (settles_afterDigits positive m still fractional exponential).of_eq fun rest ends => ?_
  rw [List.append_assoc, List.append_assoc left]
  have foreign := foreign_append fractional.foreign exponential.foreign
  exact passed _ (foreign_append foreign ends.foreign)

/-- A number is read with its sign. -/
lemma settles_numberHead {sign : List Char} (signed : sign = [] ∨ sign = ['-'])
    (h : SpellsWhole ds) (fractional : SpellsFraction fraction)
    (exponential : SpellsExponent ex) :
    Settles numberHead (EndsAfter fraction ex) (sign ++ (ds ++ (fraction ++ ex))) := by
  rcases signed with rfl | rfl
  · refine (settles_unsigned true h fractional exponential).of_eq fun rest _ => ?_
    obtain ⟨c, cs, rfl⟩ := List.exists_cons_of_ne_nil h.1.1
    exact numberHead_of_digit (h.1.2 c List.mem_cons_self) _
  · exact (settles_unsigned false h fractional exponential).of_eq fun _ _ => rfl

/-- A literal is taken for one number by the reader, or is out of range, wherever it stands. -/
theorem NumberLiteral.settles {text : List Char} (h : NumberLiteral text) :
    Settles numberHead Stops text := by
  obtain ⟨signed, digits, fractional, exponential⟩ := h
  exact (settles_numberHead signed digits fractional exponential).mono
    fun rest stops => stops.endsAfter _ _

end Reading

/-! ## Nothing else is taken -/

section Accepted

variable {positive : Bool} {n surplus : Nat} {start : Int} {fraction cs rest : List Char}
  {p : JsonNumber × List Char}

/-- What is read as an exponent has a sign or none, and digits. -/
lemma digits_of_exponent (h : exponent positive n start cs = .ok p) :
    ∃ sign ds rest, (sign = [] ∨ sign = ['+'] ∨ sign = ['-']) ∧ SomeDigits ds ∧ Foreign rest ∧
      cs = sign ++ (ds ++ rest) := by
  obtain ⟨sign, tail, up, signed, rfl, same⟩ := exponent_cases positive n start cs
  obtain ⟨ds, rest, rfl, digits, foreign⟩ := digits_split tail
  refine ⟨sign, ds, rest, signed, ⟨?_, digits⟩, foreign, rfl⟩
  rintro rfl
  rw [same] at h
  cases rest with
  | nil => cases h
  | cons c cs =>
    rw [List.nil_append, exponentDigits, foreign c cs rfl] at h
    cases h

/-- What is read with an exponent or without spells one or none. -/
lemma exponent_of_exponent? (more : fraction ≠ []) (foreign : Foreign cs)
    (h : exponent? positive n start cs = .ok p) :
    ∃ ex rest, SpellsExponent ex ∧ EndsAfter fraction ex rest ∧ cs = ex ++ rest := by
  have plain (ended : ∀ c ds, cs = c :: ds → c ≠ 'e' ∧ c ≠ 'E') :
      ∃ ex rest, SpellsExponent ex ∧ EndsAfter fraction ex rest ∧ cs = ex ++ rest := by
    refine ⟨[], cs, .none, fun c ds same => ⟨foreign c ds same, fun _ => ?_⟩, rfl⟩
    obtain ⟨lower, upper⟩ := ended c ds same
    exact ⟨lower, upper, fun none => absurd none more⟩
  cases cs with
  | nil => exact plain nofun
  | cons c ds =>
    by_cases marks : c = 'e' ∨ c = 'E'
    · rw [exponent?_mark marks] at h
      obtain ⟨sign, digits, rest, signed, some, foreign', rfl⟩ := digits_of_exponent h
      refine ⟨c :: (sign ++ digits), rest, .some marks signed some, ?_, by simp⟩
      exact fun d es same => ⟨foreign' d es same, nofun⟩
    · refine plain ?_
      rintro _ _ ⟨⟩
      exact not_or.1 marks

/-- What is read behind the point spells a fraction, and an exponent if there is one. -/
lemma fraction_of_decimals (h : decimals positive n start cs = .ok p) :
    ∃ fs ex rest, SomeDigits fs ∧ SpellsExponent ex ∧ EndsAfter ('.' :: fs) ex rest ∧
      cs = fs ++ (ex ++ rest) := by
  obtain ⟨fs, tail, rfl, digits, foreign⟩ := digits_split cs
  have some : fs ≠ [] := by
    rintro rfl
    cases tail with
    | nil => cases h
    | cons c cs => simp [decimals, fit, foreign c cs rfl] at h
  obtain ⟨m, k, passed⟩ := decimals_pass positive n start ⟨some, digits⟩
  rw [passed tail foreign] at h
  obtain ⟨ex, rest, exponential, ends, rfl⟩ :=
    exponent_of_exponent? (List.cons_ne_nil '.' fs) foreign h
  exact ⟨fs, ex, rest, ⟨some, digits⟩, exponential, ends, rfl⟩

/-- What is read behind digits that are too many spells a fraction and an exponent, as far as they
are there. -/
lemma fraction_of_pastDigits (foreign : Foreign cs)
    (h : pastDigits positive n surplus cs = .ok p) :
    ∃ fraction ex rest, SpellsFraction fraction ∧ SpellsExponent ex ∧
      EndsAfter fraction ex rest ∧ cs = fraction ++ (ex ++ rest) := by
  cases cs with
  | nil => exact ⟨[], [], [], .none, .none, nofun, rfl⟩
  | cons c ds =>
    by_cases point : c = '.'
    · subst point
      obtain ⟨fs, ex, rest, digits, exponential, ends, rfl⟩ := fraction_of_decimals h
      exact ⟨_, ex, rest, .some digits, exponential, ends, rfl⟩
    by_cases marks : c = 'e' ∨ c = 'E'
    · rw [pastDigits_mark surplus marks] at h
      obtain ⟨sign, digits, rest, signed, some, foreign', rfl⟩ := digits_of_exponent h
      refine ⟨[], c :: (sign ++ digits), rest, .none, .some marks signed some, ?_, by simp⟩
      exact fun d es same => ⟨foreign' d es same, nofun⟩
    · refine ⟨[], [], c :: ds, .none, .none, ?_, rfl⟩
      rintro _ _ ⟨⟩
      obtain ⟨lower, upper⟩ := not_or.1 marks
      exact ⟨foreign c ds rfl, fun _ => ⟨lower, upper, fun _ => point⟩⟩

/-- What is read behind the sign begins with the digits before the point. -/
lemma whole_of_unsigned (h : unsigned positive cs = .ok p) :
    ∃ ds rest, SpellsWhole ds ∧ Foreign rest ∧ cs = ds ++ rest := by
  obtain ⟨ds, rest, rfl, digits, foreign⟩ := digits_split cs
  refine ⟨ds, rest, ⟨⟨?_, digits⟩, ?_⟩, foreign, rfl⟩
  · rintro rfl
    cases rest with
    | nil => cases h
    | cons c cs =>
      have other := foreign c cs rfl
      have nonzero : c ≠ '0' := by
        rintro rfl
        cases other
      simp [unsigned.eq_def, nonzero, other] at h
  · intro leading
    obtain ⟨tail, rfl⟩ := List.head?_eq_some_iff.1 leading
    cases tail with
    | nil => rfl
    | cons d ds =>
      have digit : d.isDigit = true := digits d (by simp)
      simp [unsigned.eq_def, digit] at h

/-- What is read behind the sign is spelled by its parts. -/
lemma literal_of_unsigned (h : unsigned positive cs = .ok p) :
    ∃ ds fraction ex rest, SpellsWhole ds ∧ SpellsFraction fraction ∧ SpellsExponent ex ∧
      EndsAfter fraction ex rest ∧ cs = ds ++ (fraction ++ (ex ++ rest)) := by
  obtain ⟨ds, tail, whole, foreign, rfl⟩ := whole_of_unsigned h
  obtain ⟨m, left, still, passed⟩ := unsigned_pass positive whole
  rw [passed tail foreign, afterDigits_append positive m still foreign] at h
  obtain ⟨fraction, ex, rest, fractional, exponential, ends, rfl⟩ :=
    fraction_of_pastDigits foreign h
  exact ⟨ds, fraction, ex, rest, whole, fractional, exponential, ends, rfl⟩

end Accepted

/-- What the reader of numbers takes is a literal, up to where it ends. -/
theorem literal_of_numberHead {cs rest : List Char} {n : JsonNumber}
    (h : numberHead cs = .ok (n, rest)) :
    ∃ text, NumberLiteral text ∧ TakesNumber n text ∧ cs = text ++ rest := by
  obtain ⟨sign, ds, fraction, ex, left, signed, whole, fractional, exponential, ends, rfl⟩ :
      ∃ sign ds fraction ex left, (sign = [] ∨ sign = ['-']) ∧ SpellsWhole ds ∧
        SpellsFraction fraction ∧ SpellsExponent ex ∧ EndsAfter fraction ex left ∧
        cs = sign ++ (ds ++ (fraction ++ ex)) ++ left := by
    have read := h
    rw [numberHead.eq_def] at read
    split at read
    next =>
      obtain ⟨ds, fraction, ex, left, parts⟩ := literal_of_unsigned read
      exact ⟨['-'], ds, fraction, ex, left, .inr rfl, by simpa using parts⟩
    next =>
      obtain ⟨ds, fraction, ex, left, parts⟩ := literal_of_unsigned read
      exact ⟨[], ds, fraction, ex, left, .inl rfl, by simpa using parts⟩
  -- what a literal settles does not depend on what follows it
  rcases settles_numberHead signed whole fractional exponential with ⟨m, taken⟩ | refused
  · rw [taken left ends] at h
    cases h
    refine ⟨_, .intro signed whole fractional exponential, ⟨?_, fun rest stops => ?_⟩, rfl⟩
    · obtain ⟨d, digits, rfl⟩ := List.exists_cons_of_ne_nil whole.1.1
      rcases signed with rfl | rfl
      · exact ⟨d, _, rfl, .inr (whole.1.2 d List.mem_cons_self)⟩
      · exact ⟨'-', _, rfl, .inl rfl⟩
    · exact taken rest (stops.endsAfter _ _)
  · obtain ⟨_, out⟩ := refused left ends
    rw [out] at h
    cases h

end Preferences.Json
