import Preferences.Proofs.Json.Literal

/-!
# What the reader accepts

Every text that is read as a tree is one that spells the tree: blanks stand in its gaps, and its
numbers are literals. So a text is read if and only if it spells a tree that nests no deeper than
the limit, and it spells at most one; where the tree has no floats, its numbers are integers in
their only spelling. Main statements: `parse_eq_ok_iff`, `spells_of_parse` and `Spells.unique`.
-/

namespace Preferences.Json

/-- Blanks may stand in the gaps, and every number is a literal that the reader has a number for. -/
def Style.literal : Style where
  gap := Blanks
  number n text := NumberLiteral text ∧ TakesNumber n text

/-- By its very spelling a number literal is read up to where it stops. -/
lemma Style.literal_readable : Style.literal.Readable :=
  ⟨fun _ blanks => blanks, fun _ _ spelled => spelled.2⟩

/-- Blanks may stand in the gaps, and every number is an integer that the format holds. -/
def Style.integral : Style where
  gap := Blanks
  number n text := ∃ z : WireInt, n = .int z ∧ text = intDigits z.val

/-- The digits of an integer are a number literal that is read as it. -/
lemma takesNumber_int (z : WireInt) : TakesNumber (.int z) (intDigits z.val) :=
  ⟨intDigits_head z.val, fun _ stops => numberHead_intDigits z stops⟩

/-- The digits of an integer are read as it, up to where they stop. -/
lemma Style.integral_readable : Style.integral.Readable := by
  refine ⟨fun gap blanks => blanks, ?_⟩
  rintro n text ⟨z, rfl, rfl⟩
  exact takesNumber_int z

/-! ## Strings -/

instance (n : Nat) (c : Char) : Decidable (HexDigit n c) :=
  inferInstanceAs (Decidable (n < 16 ∧ _))

/-- What is taken for a hexadecimal digit is one. -/
lemma hexDigit_of_digit? {n : Nat} {c : Char} (h : Hex.digit? c = some n) : HexDigit n c := by
  have small : ∀ k < 128, ∀ n ∈ Hex.digit? (Char.ofNat k), HexDigit n (Char.ofNat k) := by decide
  have ascii : c.toNat < 128 := by
    have le {d : Char} (below : c ≤ d) : c.toNat ≤ d.toNat := UInt32.le_iff_toNat_le.1 below
    rw [Hex.digit?] at h
    split at h
    next digit =>
      simp only [Char.isDigit, Bool.and_eq_true, decide_eq_true_eq] at digit
      exact Nat.lt_of_le_of_lt (UInt32.le_iff_toNat_le.1 digit.2) (by decide)
    next =>
      split at h
      next letter => exact Nat.lt_of_le_of_lt (le letter.2) (by decide)
      next =>
        split at h
        next letter => exact Nat.lt_of_le_of_lt (le letter.2) (by decide)
        next => cases h
  have found := small c.toNat ascii n
  rw [Char.ofNat_toNat] at found
  exact found h

/-- Four hexadecimal digits behind `\u` spell the unit that is read from them. -/
lemma spellsUnit_of_hexFour {w x y z : Char} {n : Nat} (h : hexFour w x y z = some n) :
    SpellsUnit n ['\\', 'u', w, x, y, z] := by
  rw [hexFour] at h
  split at h
  next a b c d ha hb hc hd =>
    cases h
    exact .intro (hexDigit_of_digit? ha) (hexDigit_of_digit? hb) (hexDigit_of_digit? hc)
      (hexDigit_of_digit? hd)
  next => cases h

/-- A unit that can be spelled has at most 16 bits. -/
lemma SpellsUnit.lt {n : Nat} {text : List Char} (h : SpellsUnit n text) : n < 0x10000 := by
  obtain ⟨⟨ha, -⟩, ⟨hb, -⟩, ⟨hc, -⟩, ⟨hd, -⟩⟩ := h
  omega

/-- A character has the code that it was made of. -/
lemma toNat_ofNat {n : Nat} (valid : n.isValidChar) : (Char.ofNat n).toNat = n := by
  rw [Char.ofNat, dif_pos valid]
  rfl

/-- A unit that is no half of a surrogate pair is a character. -/
lemma utf16_ofNat {n : Nat} (small : n < 0x10000) (low : ¬isLowSurrogate n = true)
    (high : ¬isHighSurrogate n = true) : utf16 (Char.ofNat n) = [n] := by
  simp only [isLowSurrogate, isHighSurrogate, Bool.and_eq_true, decide_eq_true_eq] at low high
  have same : (Char.ofNat n).toNat = n := toNat_ofNat (by rw [Nat.isValidChar]; omega)
  rw [utf16, same, if_pos small]

/-- A character of two surrogates is encoded as them. -/
lemma utf16_joinSurrogates {n m : Nat} (high : isHighSurrogate n = true)
    (low : isLowSurrogate m = true) : utf16 (joinSurrogates n m) = [n, m] := by
  simp only [isLowSurrogate, isHighSurrogate, Bool.and_eq_true, decide_eq_true_eq] at low high
  have same : (joinSurrogates n m).toNat = 0x10000 + (n - 0xd800) * 1024 + (m - 0xdc00) :=
    toNat_ofNat (by rw [Nat.isValidChar]; omega)
  have first : 0xd800 + (0x10000 + (n - 0xd800) * 1024 + (m - 0xdc00) - 0x10000) / 1024 = n := by
    omega
  have second : 0xdc00 + (0x10000 + (n - 0xd800) * 1024 + (m - 0xdc00) - 0x10000) % 1024 = m := by
    omega
  rw [utf16, same, if_neg (by omega), first, second]

/-- A letter that is read behind a backslash is one of the short escapes. -/
lemma mem_of_shortEscape {e c : Char} (h : shortEscape e = some c) : (e, c) ∈ letterEscapes := by
  rw [shortEscape] at h
  split at h
  next same =>
    cases h
    rcases same with rfl | rfl | rfl <;> decide
  next =>
    iterate 5
      split at h
      next same =>
        cases same
        cases h
        decide
    cases h

/-- What follows a character was read behind it. -/
lemma push_eq_ok {c : Char} {x : Read (List Char)} {s rest : List Char}
    (h : push c x = .ok (s, rest)) : ∃ s', s = c :: s' ∧ x = .ok (s', rest) := by
  rcases x with fault | ⟨s', rest'⟩
  · cases h
  · cases h
    exact ⟨s', rfl, rfl⟩

/-- A character is spelled before the others. -/
lemma spells_push {c : Char} {text cs s rest : List Char} (char : SpellsChar c text)
    (pushed : push c (stringBody cs) = .ok (s, rest))
    (others : ∀ {s rest}, stringBody cs = .ok (s, rest) →
      ∃ texts, List.Forall₂ SpellsChar s texts ∧ cs = texts.flatten ++ '"' :: rest) :
    ∃ texts, List.Forall₂ SpellsChar s texts ∧ text ++ cs = texts.flatten ++ '"' :: rest := by
  obtain ⟨s', rfl, later⟩ := push_eq_ok pushed
  obtain ⟨texts, chars, rfl⟩ := others later
  exact ⟨text :: texts, .cons char chars, by simp⟩

/-- The characters of a string are spelled by what was read up to its closing quote. -/
lemma spells_of_stringBody {cs s rest : List Char} (h : stringBody cs = .ok (s, rest)) :
    ∃ texts, List.Forall₂ SpellsChar s texts ∧ cs = texts.flatten ++ '"' :: rest := by
  fun_induction stringBody cs generalizing s rest with
  | case2 =>
    cases h
    exact ⟨[], .nil, rfl⟩
  | case4 e ds c short _ ih => exact spells_push (.letter (mem_of_shortEscape short)) h ih
  | case12 w x y z n digits _ high f backslash g letter o p q r ds m digits' low _ _ ih =>
    obtain rfl : f = '\\' := not_not.1 backslash
    obtain rfl : g = 'u' := not_not.1 letter
    have char : SpellsChar (joinSurrogates n m)
        [['\\', 'u', w, x, y, z], ['\\', 'u', o, p, q, r]].flatten := by
      apply SpellsChar.units
      rw [utf16_joinSurrogates high low]
      exact .cons (spellsUnit_of_hexFour digits) (.cons (spellsUnit_of_hexFour digits') .nil)
    exact spells_push char h ih
  | case15 w x y z ds n digits low high _ _ ih =>
    have unit := spellsUnit_of_hexFour digits
    have char : SpellsChar (Char.ofNat n) [['\\', 'u', w, x, y, z]].flatten := by
      apply SpellsChar.units
      rw [utf16_ofNat unit.lt low high]
      exact .cons unit .nil
    exact spells_push char h ih
  | case19 c ds quote backslash printable ih =>
    exact spells_push (.plain quote backslash (Nat.not_lt.1 printable)) h ih
  | _ => cases h

/-- What is read as a string, up to its last quote, spells it. -/
lemma spellsString_of_stringRest {cs rest : List Char} {s : String}
    (h : stringRest cs = .ok (s, rest)) :
    ∃ text, SpellsString s text ∧ '"' :: cs = text ++ rest := by
  rw [stringRest] at h
  rcases read : stringBody cs with fault | ⟨chars, rest'⟩
  · rw [read] at h
    cases h
  · rw [read] at h
    cases h
    obtain ⟨texts, spelled, rfl⟩ := spells_of_stringBody read
    refine ⟨'"' :: texts.flatten ++ ['"'], ⟨texts, ?_, rfl⟩, by simp⟩
    rwa [String.toList_ofList]

/-! ## Numbers -/

/-- Numbers with a fraction, an exponent or digits that do not fit. -/
inductive Approximate : JsonNumber → Prop where
  | zero (positive : Bool) : Approximate (.float (withSign positive 0))
  | scaled {significand : Nat} {e : Int} {x : Float} (positive : Bool) :
    scaleByTen significand e = some x → Approximate (.float (withSign positive x))

section Approximate

variable {positive : Bool} {significand : Nat} {start : Int} {cs rest : List Char} {n : JsonNumber}

/-- A number that was scaled has a fraction, an exponent or too many digits. -/
lemma approximate_of_scaled (h : scaled positive significand start cs = .ok (n, rest)) :
    Approximate n := by
  rw [scaled] at h
  split at h
  next number => cases h; exact .scaled positive number
  next => cases h

/-- So has one that was read with an exponent. -/
lemma approximate_of_exponent (h : exponent positive significand start cs = .ok (n, rest)) :
    Approximate n := by
  rw [exponent.eq_def] at h
  dsimp only at h
  split at h
  next => cases h
  next =>
    split at h
    next => cases h
    next =>
      split at h
      next =>
        split at h
        next =>
          rcases ite_eq_iff.1 h with ⟨-, h⟩ | ⟨-, h⟩
          · cases h
          · cases h
            exact .zero positive
        next => exact approximate_of_scaled h
      next => exact approximate_of_scaled h

/-- So has one that was read behind its decimals. -/
lemma approximate_of_exponent? (h : exponent? positive significand start cs = .ok (n, rest)) :
    Approximate n := by
  revert h
  fun_cases exponent? positive significand start cs with
  | case1 => exact approximate_of_exponent
  | case2 | case3 => exact approximate_of_scaled

/-- So has one that was read with decimals. -/
lemma approximate_of_decimals (h : decimals positive significand start cs = .ok (n, rest)) :
    Approximate n := by
  revert h
  fun_cases decimals positive significand start cs with
  | case1 | case3 | case5 => exact approximate_of_exponent?
  | case2 | case4 => nofun

/-- A number that is whole ends with its digits. -/
lemma afterDigits_eq_ok (h : afterDigits positive significand cs = .ok (n, rest)) :
    Approximate n ∨ cs = rest ∧ n = whole positive significand := by
  have ended (none : (cs.takeWhile Char.isDigit).length = 0)
      (h : Except.ok (whole positive significand, cs.dropWhile Char.isDigit) =
        (.ok (n, rest) : Read JsonNumber)) : cs = rest ∧ n = whole positive significand := by
    have split := List.takeWhile_append_dropWhile (p := Char.isDigit) (l := cs)
    rw [List.length_eq_zero_iff.1 none, List.nil_append] at split
    rw [split] at h
    cases h
    exact ⟨rfl, rfl⟩
  revert h
  fun_cases afterDigits positive significand cs with
  | case1 => exact fun h => .inl (approximate_of_decimals h)
  | case2 => exact fun h => .inl (approximate_of_exponent h)
  | case3 | case5 => exact fun h => .inr (ended ‹_› h)
  | case4 | case6 => exact fun h => .inl (approximate_of_scaled h)

end Approximate

/-- The digits that were taken, and their value. -/
lemma fit_eq {limit n m : Nat} {cs rest : List Char} (h : fit limit n cs = (m, rest)) :
    ∃ ds, cs = ds ++ rest ∧ (∀ c ∈ ds, c.isDigit = true) ∧ m = Nat.ofDigitChars 10 ds n := by
  induction cs generalizing n with
  | nil =>
    cases h
    exact ⟨[], rfl, nofun, rfl⟩
  | cons c cs ih =>
    rw [fit] at h
    split at h
    next digit =>
      obtain ⟨ds, rfl, digits, value⟩ := ih h
      exact ⟨c :: ds, rfl, List.forall_mem_cons.2 ⟨digit.1, digits⟩, value⟩
    next =>
      cases h
      exact ⟨[], rfl, nofun, rfl⟩

/-- A digit is the one that its value is written with. -/
lemma digitChar_digitValue {c : Char} (digit : c.isDigit = true) :
    digitValue c < 10 ∧ Nat.digitChar (digitValue c) = c := by
  have all : ∀ n < 10, Nat.digitChar n = Char.ofNat (48 + n) := by decide
  simp only [Char.isDigit, Bool.and_eq_true, decide_eq_true_eq] at digit
  have low : 48 ≤ c.toNat := UInt32.le_iff_toNat_le.1 digit.1
  have high : c.toNat ≤ 57 := UInt32.le_iff_toNat_le.1 digit.2
  have value : 48 + digitValue c = c.toNat := Nat.add_sub_of_le low
  have small : digitValue c < 10 := by omega
  exact ⟨small, by rw [all _ small, value, Char.ofNat_toNat]⟩

/-- Digits after those of a number. -/
lemma natDigits_append {n : Nat} (pos : 0 < n) (ds : List Char)
    (digits : ∀ d ∈ ds, d.isDigit = true) :
    natDigits (Nat.ofDigitChars 10 ds n) = natDigits n ++ ds := by
  induction ds generalizing n with
  | nil => simp
  | cons d ds ih =>
    obtain ⟨digit, others⟩ := List.forall_mem_cons.1 digits
    obtain ⟨small, same⟩ := digitChar_digitValue digit
    have one : natDigits (10 * n + digitValue d) = natDigits n ++ [d] := by
      rw [natDigits, ← Nat.toDigits_append_toDigits (by decide) pos small,
        Nat.toDigits_of_lt_base small, same]
      rfl
    rw [Nat.ofDigitChars_cons, ← digitValue, ih (by omega) others, one, List.append_assoc]
    rfl

/-- A number that was read, with the text it was read from if it is whole. -/
lemma unsigned_eq_ok {positive : Bool} {cs rest : List Char} {n : JsonNumber}
    (h : unsigned positive cs = .ok (n, rest)) :
    Approximate n ∨ ∃ m, cs = natDigits m ++ rest ∧ n = whole positive m := by
  cases cs with
  | nil => cases h
  | cons c cs =>
    rw [unsigned.eq_def] at h
    dsimp only at h
    split at h
    next zero =>
      subst zero
      -- a zero stands alone, so that no digit follows it
      have after : afterDigits positive 0 cs = .ok (n, rest) := by
        split at h
        next =>
          split at h
          next => cases h
          next => exact h
        next => exact h
      refine (afterDigits_eq_ok after).imp_right ?_
      rintro ⟨rfl, rfl⟩
      exact ⟨0, rfl, rfl⟩
    next nonzero =>
      split at h
      next digit =>
        obtain ⟨small, same⟩ := digitChar_digitValue digit
        have pos : 0 < digitValue c := by
          refine Nat.pos_of_ne_zero fun zero => nonzero ?_
          rw [← same, zero]
          rfl
        rcases fitted : fit maxSignificand (digitValue c) cs with ⟨m, ds⟩
        rw [fitted] at h
        obtain ⟨taken, rfl, digits, rfl⟩ := fit_eq fitted
        refine (afterDigits_eq_ok h).imp_right ?_
        rintro ⟨rfl, rfl⟩
        refine ⟨_, ?_, rfl⟩
        rw [natDigits_append pos taken digits, natDigits, Nat.toDigits_of_lt_base small, same]
        rfl
      next => cases h

/-- A number is read either as a float or from the plain digits of an integer. -/
lemma numberHead_eq_ok {cs rest : List Char} {n : JsonNumber} (h : numberHead cs = .ok (n, rest)) :
    Approximate n ∨ ∃ positive m, cs = (if positive then [] else ['-']) ++ natDigits m ++ rest ∧
      n = whole positive m := by
  rw [numberHead.eq_def] at h
  split at h
  next =>
    refine (unsigned_eq_ok h).imp_right ?_
    rintro ⟨m, rfl, rfl⟩
    exact ⟨false, m, rfl, rfl⟩
  next =>
    refine (unsigned_eq_ok h).imp_right ?_
    rintro ⟨m, rfl, rfl⟩
    exact ⟨true, m, rfl, rfl⟩

/-- A number that fits into a width is kept as it is. -/
lemma val_of_ofInt? {lo hi z : Int} {w : Ranged lo hi} (h : Ranged.ofInt? z = some w) :
    w.val = z := by
  rw [Ranged.ofInt?] at h
  split at h
  next => cases h; rfl
  next => cases h

/-- An integer that was read has the digits' magnitude and the sign before them, and zero has none.
-/
lemma eq_of_whole {positive : Bool} {m : Nat} {z : WireInt} (h : whole positive m = .int z) :
    z.val = (if positive then (m : Int) else -m) ∧ (positive = true ∨ m ≠ 0) := by
  rw [whole] at h
  split at h
  next w found =>
    cases h
    rcases ite_eq_iff.1 found with ⟨-, none⟩ | ⟨signed, some⟩
    · cases none
    · refine ⟨val_of_ofInt? some, ?_⟩
      cases positive with
      | true => exact .inl rfl
      | false => exact .inr (by simpa using signed)
  next => cases h

/-- An integer was read from its only spelling. -/
lemma intDigits_of_numberHead {cs rest : List Char} {z : WireInt}
    (h : numberHead cs = .ok (.int z, rest)) : cs = intDigits z.val ++ rest := by
  rcases numberHead_eq_ok h with approximate | ⟨positive, m, rfl, same⟩
  · cases approximate
  · obtain ⟨value, nonzero⟩ := eq_of_whole same.symm
    cases positive with
    | true =>
      rw [value]
      rfl
    | false =>
      obtain ⟨k, rfl⟩ : ∃ k, m = k + 1 := Nat.exists_eq_succ_of_ne_zero (by simpa using nonzero)
      rw [value]
      rfl

/-! ## Values -/

/-- What is skipped before a value are blanks. -/
lemma skipSpace_eq {cs ds : List Char} (h : skipSpace cs = ds) :
    ∃ gap, Blanks gap ∧ cs = gap ++ ds := by
  refine ⟨cs.takeWhile isSpace, List.all_eq_true.1 List.all_takeWhile, ?_⟩
  rw [← h, skipSpace, List.takeWhile_append_dropWhile]

/-- A word is read letter by letter. -/
lemma literal_eq_ok {es cs rest : List Char} (h : literal es cs = .ok rest) : cs = es ++ rest := by
  induction es generalizing cs with
  | nil =>
    cases h
    rfl
  | cons e es ih =>
    cases cs with
    | nil => cases h
    | cons c cs =>
      rw [literal] at h
      split at h
      next same => rw [same, ih h, List.cons_append]
      next => cases h

/-- The phrase is spelled between what was left before it and what is left after it. -/
def SpellsUpTo (p : Phrase) (cs rest : List Char) : Prop :=
  ∃ text, Spells .literal p text ∧ cs = text ++ rest

/-- What is read as a scalar is spelled there. -/
lemma spells_of_scalar {j : Json} {cs rest : List Char}
    (h : scalar? cs = some (.ok (j, rest))) : SpellsUpTo (.value j) cs rest := by
  cases scalar?_eq_ok h with
  | null read =>
    rw [literal_eq_ok read]
    exact ⟨_, .null, rfl⟩
  | yes read =>
    rw [literal_eq_ok read]
    exact ⟨_, .yes, rfl⟩
  | no read =>
    rw [literal_eq_ok read]
    exact ⟨_, .no, rfl⟩
  | number read =>
    obtain ⟨text, literal, taken, same⟩ := literal_of_numberHead read
    exact ⟨text, .number ⟨literal, taken⟩, same⟩
  | string read =>
    obtain ⟨text, spelled, same⟩ := spellsString_of_stringRest read
    exact ⟨text, .string spelled, same⟩

/-- What stands before an item or a member: nothing, or the comma after the one before it. -/
inductive Lead : Bool → List Char → Prop where
  | first : Lead true []
  | comma {gap : List Char} : Blanks gap → Lead false (gap ++ [','])

/-- Two gaps in a row are one. -/
lemma Blanks.append {gap gap' : List Char} (h : Blanks gap) (h' : Blanks gap') :
    Blanks (gap ++ gap') :=
  fun c there => (List.mem_append.1 there).elim (h c) (h' c)

/-- Before a list either closes or goes on there is a gap, and before a further item a comma. -/
lemma nextItem_eq_ok {first more : Bool} {cs ds : List Char}
    (h : nextItem first cs = .ok (more, ds)) :
    (more = false ∧ ∃ gap es, Blanks gap ∧ ds = ']' :: es ∧ cs = gap ++ ds) ∨
      more = true ∧ ∃ lead gap, Lead first lead ∧ Blanks gap ∧ cs = lead ++ gap ++ ds := by
  rw [nextItem] at h
  split at h
  next => cases h
  next c es begins =>
    obtain ⟨gap, blank, rfl⟩ := skipSpace_eq begins
    split at h
    next bracket =>
      cases h
      exact .inl ⟨rfl, gap, es, blank, by rw [bracket], rfl⟩
    next =>
      split at h
      next comma =>
        obtain ⟨rfl, later⟩ := comma
        obtain rfl : first = false := by simpa using later
        split at h
        next => cases h
        next e fs next_item =>
          obtain ⟨gap', blank', rfl⟩ := skipSpace_eq next_item
          split at h
          next => cases h
          next =>
            cases h
            exact .inr ⟨rfl, gap ++ [','], gap', .comma blank, blank', by simp⟩
      next =>
        split at h
        next isFirst =>
          cases h
          subst isFirst
          exact .inr ⟨rfl, [], gap, .first, blank, rfl⟩
        next => cases h

/-- So it is with an object, where a member begins with a quote. -/
lemma nextMember_eq_ok {first more : Bool} {cs ds : List Char}
    (h : nextMember first cs = .ok (more, ds)) :
    (more = false ∧ ∃ gap es, Blanks gap ∧ ds = '\x7d' :: es ∧ cs = gap ++ ds) ∨
      more = true ∧ ∃ lead gap es, Lead first lead ∧ Blanks gap ∧ ds = '"' :: es ∧
        cs = lead ++ gap ++ ds := by
  rw [nextMember] at h
  split at h
  next => cases h
  next c es begins =>
    obtain ⟨gap, blank, rfl⟩ := skipSpace_eq begins
    split at h
    next brace =>
      cases h
      exact .inl ⟨rfl, gap, es, blank, by rw [brace], rfl⟩
    next =>
      split at h
      next comma =>
        -- a comma is part of what leads a later member in
        obtain ⟨rfl, later⟩ := comma
        obtain rfl : first = false := by simpa using later
        split at h
        next => cases h
        next e fs next_member =>
          obtain ⟨gap', blank', rfl⟩ := skipSpace_eq next_member
          split at h
          next quote =>
            cases h
            exact .inr ⟨rfl, gap ++ [','], gap', fs, .comma blank, blank', by rw [quote], by simp⟩
          next =>
            split at h <;> cases h
      next =>
        split at h
        next isFirst =>
          subst isFirst
          split at h
          next quote =>
            cases h
            exact .inr ⟨rfl, [], gap, es, .first, blank, by rw [quote], rfl⟩
          next => cases h
        next => cases h

/-- A reader of values accepts only what the grammar has, after any blanks. -/
def Sound (reader : List Char → Read Json) : Prop :=
  ∀ {cs rest : List Char} {j : Json}, reader cs = .ok (j, rest) →
    ∃ gap ds, Blanks gap ∧ cs = gap ++ ds ∧ SpellsUpTo (.value j) ds rest

/-- A loop has read either nothing but a gap or what the phrase stands for, up to a bracket. -/
def Looped (bracket : Char) (first : Bool) (empty : Prop) (p : Phrase) (cs rest : List Char) :
    Prop :=
  (∃ es, rest = bracket :: es) ∧ ((empty ∧ ∃ gap, Blanks gap ∧ cs = gap ++ rest) ∨
    ∃ lead text, Lead first lead ∧ Spells .literal p text ∧ cs = lead ++ text ++ rest)

/-- The items that were read are spelled up to the closing bracket. -/
lemma spells_of_items {reader : List Char → Read Json} (sound : Sound reader) {fuel : Nat}
    {first : Bool} {cs rest : List Char} {js : List Json}
    (h : items reader fuel first cs = .ok (js, rest)) :
    Looped ']' first (js = []) (.elements js) cs rest := by
  induction fuel generalizing first cs js with
  | zero => cases h
  | succ fuel ih =>
    obtain ⟨_, ds, next, ⟨rfl, rfl, rfl⟩ | ⟨rfl, j, es, is, read, others, rfl⟩⟩ :=
      items_succ_eq_ok h
    · obtain ⟨-, gap, es, blank, close, rfl⟩ | ⟨more, -⟩ := nextItem_eq_ok next
      · exact ⟨⟨es, close⟩, .inl ⟨rfl, gap, blank, rfl⟩⟩
      · cases more
    · obtain ⟨more, -⟩ | ⟨-, lead, gap, led, blank, rfl⟩ := nextItem_eq_ok next
      · cases more
      obtain ⟨inner, ds, blank', rfl, text, spelled, rfl⟩ := sound read
      obtain ⟨close, tail⟩ := ih others
      refine ⟨close, .inr ?_⟩
      -- the blanks before the next comma belong to the item in front of it
      rcases tail with ⟨rfl, after, blank'', rfl⟩ | ⟨_, texts, led', elements, rfl⟩
      · exact ⟨lead, _, led, .lastElement (.element (blank.append blank') spelled blank''), by simp⟩
      · cases led' with
        | comma blank'' =>
          exact ⟨lead, _, led,
            .moreElements (.element (blank.append blank') spelled blank'') elements, by simp⟩

/-- A colon may have a gap before it. -/
lemma colon_eq_ok {cs ds : List Char} (h : colon cs = .ok ds) :
    ∃ gap, Blanks gap ∧ cs = gap ++ ':' :: ds := by
  rw [colon] at h
  split at h
  next => cases h
  next c es begins =>
    split at h
    next mark =>
      cases h
      subst mark
      exact skipSpace_eq begins
    next => cases h

/-- A member that was read is spelled, but for the gap after it. -/
lemma spells_of_keepMember {reader : List Char → Read Json} (sound : Sound reader) {k : String}
    {cs ds rest : List Char} {done ms : List (String × Json)}
    (key : textKey ('"' :: cs) = .ok (k, ds)) (h : keepMember reader k done ds = .ok (ms, rest)) :
    ∃ j text, ms = done ++ [(k, j)] ∧ '"' :: cs = text ++ rest ∧
      ∀ before after, Blanks before → Blanks after →
        Spells .literal (.member k j) (before ++ text ++ after) := by
  obtain ⟨es, j, divided, read, rfl⟩ := keepMember_eq_ok h
  obtain ⟨name, spelledName, begins⟩ := spellsString_of_stringRest key
  obtain ⟨gap, blank, rfl⟩ := colon_eq_ok divided
  obtain ⟨inner, _, blank', rfl, text, spelled, rfl⟩ := sound read
  refine ⟨j, name ++ gap ++ ':' :: (inner ++ text), rfl, begins.trans (by simp), ?_⟩
  intro before after blank_before blank_after
  have member : Spells .literal (.member k j)
      (before ++ name ++ gap ++ ':' :: (inner ++ text ++ after)) :=
    .member blank_before spelledName blank (.element blank' spelled blank_after)
  simpa using member

/-- The members that were read are spelled up to the closing brace. -/
lemma spells_of_members {reader : List Char → Read Json} (sound : Sound reader) {fuel : Nat}
    {first : Bool} {cs rest : List Char} {done all : List (String × Json)}
    (h : members textKey (keepMember reader) fuel first done cs = .ok (all, rest)) :
    ∃ ms, all = done ++ ms ∧ Looped '\x7d' first (ms = []) (.members ms) cs rest := by
  induction fuel generalizing first cs done with
  | zero => cases h
  | succ fuel ih =>
    obtain ⟨_, ds, next, ⟨rfl, rfl, rfl⟩ | ⟨rfl, k, fs, done', gs, named, kept, later⟩⟩ :=
      members_succ_eq_ok h
    · obtain ⟨-, gap, es, blank, close, rfl⟩ | ⟨more, -⟩ := nextMember_eq_ok next
      · exact ⟨[], by simp, ⟨es, close⟩, .inl ⟨rfl, gap, blank, rfl⟩⟩
      · cases more
    · obtain ⟨more, -⟩ | ⟨-, lead, gap, es, led, blank, rfl, rfl⟩ := nextMember_eq_ok next
      · cases more
      obtain ⟨j, text, rfl, begins, member⟩ := spells_of_keepMember sound named kept
      obtain ⟨ms, rfl, close, tail⟩ := ih later
      refine ⟨(k, j) :: ms, by simp, close, .inr ?_⟩
      rcases tail with ⟨rfl, after, blank', rfl⟩ | ⟨_, texts, led', others, rfl⟩
      · exact ⟨lead, _, led, .lastMember (member gap after blank blank'), by rw [begins]; simp⟩
      · cases led' with
        | @comma after blank' =>
          exact ⟨lead, _, led, .moreMembers (member gap after blank blank') others,
            by rw [begins]; simp⟩

/-- A list that was closed has been read up to its bracket. -/
lemma closing_list_eq_ok {α : Type} {x : Read α} {a : α} {rest : List Char}
    (h : closing closeList x = .ok (a, rest))
    (close : ∀ ds, x = .ok (a, ds) → ∃ es, ds = ']' :: es) :
    x = .ok (a, ']' :: rest) := by
  obtain ⟨ds, rfl⟩ := closing_eq_ok h
  obtain ⟨es, rfl⟩ := close ds rfl
  have closed := closing_closeList Blanks.nil a es
  rw [List.nil_append] at closed
  rw [closed] at h
  cases h
  rfl

/-- An object that was closed has been read up to its brace. -/
lemma closing_object_eq_ok {α : Type} {x : Read α} {a : α} {rest : List Char}
    (h : closing closeObject x = .ok (a, rest))
    (close : ∀ ds, x = .ok (a, ds) → ∃ es, ds = '\x7d' :: es) : x = .ok (a, '\x7d' :: rest) := by
  obtain ⟨ds, rfl⟩ := closing_eq_ok h
  obtain ⟨es, rfl⟩ := close ds rfl
  rw [closing_closeObject] at h
  cases h
  rfl

/-- What is read as a list, by a sound reader of its items, is spelled there. -/
lemma spells_of_list {reader : List Char → Read Json} (sound : Sound reader) {cs rest : List Char}
    {js : List Json} (h : list reader cs = .ok (js, rest)) :
    SpellsUpTo (.value (array js)) ('[' :: cs) rest := by
  have loop := closing_list_eq_ok h fun ds loop => (spells_of_items sound loop).1
  rcases (spells_of_items sound loop).2 with
    ⟨rfl, gap, blank, rfl⟩ | ⟨_, text, led, spelled, rfl⟩
  · exact ⟨_, .emptyArray blank, by simp⟩
  · cases led
    exact ⟨_, .array spelled, by simp⟩

/-- What is read as an object, by a sound reader of its values, is spelled there. -/
lemma spells_of_objectOf {reader : List Char → Read Json} (sound : Sound reader)
    {cs rest : List Char} {ms : List (String × Json)}
    (h : objectOf textKey (keepMember reader) [] cs = .ok (ms, rest)) :
    SpellsUpTo (.value (object ms)) ('\x7b' :: cs) rest := by
  have spelled {ds : List Char} (loop : members textKey (keepMember reader) (cs.length + 1) true []
      cs = .ok (ms, ds)) : Looped '\x7d' true (ms = []) (.members ms) cs ds := by
    obtain ⟨_, rfl, spelled⟩ := spells_of_members sound loop
    exact spelled
  have loop := closing_object_eq_ok h fun ds loop => (spelled loop).1
  rcases (spelled loop).2 with ⟨rfl, gap, blank, rfl⟩ | ⟨_, text, led, inside, rfl⟩
  · exact ⟨_, .emptyObject blank, by simp⟩
  · cases led
    exact ⟨_, .object inside, by simp⟩

/-- Before a value there may be a gap. -/
lemma beforeValue_eq_ok {c : Char} {cs ds : List Char} (first : beforeValue cs = .ok (c, ds)) :
    ∃ gap, Blanks gap ∧ cs = gap ++ c :: ds := by
  rw [beforeValue] at first
  split at first
  next => cases first
  next begins =>
    cases first
    exact skipSpace_eq begins

/-- A reader of values is sound where the reader of what is inside them is. -/
lemma sound_value {inner : Option (List Char → Read Json)}
    (sound : ∀ reader, inner = some reader → Sound reader) : Sound (value inner) := by
  intro cs rest j h
  obtain ⟨c, ds, first, scalar | ⟨reader, given, list | object⟩⟩ := value_cases h
  all_goals obtain ⟨gap, blank, rfl⟩ := beforeValue_eq_ok first
  all_goals refine ⟨gap, c :: ds, blank, rfl, ?_⟩
  · exact spells_of_scalar scalar
  · obtain ⟨rfl, js, read, rfl⟩ := list
    exact spells_of_list (sound reader given) read
  · obtain ⟨rfl, ms, read, rfl⟩ := object
    exact spells_of_objectOf (sound reader given) read

/-- At every depth the reader of values is sound. -/
theorem sound_read (depth : Nat) : Sound (read depth) := by
  induction depth with
  | zero => exact sound_value fun reader none => by cases none
  | succ depth ih =>
    refine sound_value fun reader same => ?_
    cases same
    exact ih

/-- A whole text that is read as a tree spells the tree. -/
lemma spells_of_readWhole {depth : Nat} {text : List Char} {j : Json}
    (h : readWhole (read depth) text = .ok j) : Spells .literal (.element j) text := by
  obtain ⟨rest, read, ended⟩ := readWhole_eq_ok h
  obtain ⟨after, blank', rfl⟩ := skipSpace_eq ended
  obtain ⟨gap, ds, blank, same, text, spelled, rfl⟩ := sound_read depth read
  rw [same, List.append_nil, ← List.append_assoc]
  exact .element blank spelled blank'

/-- What is spelled in any style that can be read is spelled in literals. -/
lemma Spells.literal {style : Style} (readable : style.Readable) {j : Json} {text : List Char}
    (h : Spells style (.element j) text) : Spells .literal (.element j) text :=
  spells_of_readWhole ((readWhole_outcome (h.taken readable) j.nesting).1 (fits_iff.2 le_rfl))

/-- A text is read as a tree if and only if it spells the tree and the tree nests no deeper than the
limit. -/
theorem parse_eq_ok_iff {text : String} {j : Json} :
    parse text = .ok j ↔ Spells .literal (.element j) text.toList ∧ j.nesting ≤ maxDepth := by
  refine ⟨fun h => ⟨spells_of_readWhole h, fits_iff.1 (fits_of_parse h)⟩, ?_⟩
  rintro ⟨spelled, shallow⟩
  exact (readWhole_outcome (spelled.taken Style.literal_readable) maxDepth).1 (fits_iff.2 shallow)

example : parse " [1, \"\\u0041\"] " =
    .ok (.array [.number (.int ⟨1, by decide, by decide⟩), .string "A"]) := by
  cbv

/-! ## Trees without floats -/

/-- No tree of the phrase has a float. -/
def Phrase.FloatFree : Phrase → Prop
  | value j | element j | member _ j => j.FloatFree
  | elements js => ∀ j ∈ js, j.FloatFree
  | members ms => ∀ m ∈ ms, m.2.FloatFree

/-- Where no number is held as a float, every literal is an integer in its only spelling. -/
lemma Spells.integral {p : Phrase} {text : List Char} (h : Spells .literal p text)
    (free : p.FloatFree) : Spells .integral p text := by
  induction h with
  | null => exact .null
  | yes => exact .yes
  | no => exact .no
  | number spelled =>
    cases free with
    | int z =>
      have read := spelled.2.2 [] .nil
      refine .number ⟨z, rfl, ?_⟩
      simpa using intDigits_of_numberHead read
  | string spelled => exact .string spelled
  | emptyArray gap => exact .emptyArray gap
  | array _ ih =>
    cases free with
    | array free => exact .array (ih free)
  | emptyObject gap => exact .emptyObject gap
  | object _ ih =>
    cases free with
    | object free => exact .object (ih free)
  | element before _ after ih => exact .element before (ih free) after
  | lastElement _ ih => exact .lastElement (ih (free _ List.mem_cons_self))
  | moreElements _ _ ih ihs =>
    obtain ⟨first, others⟩ := List.forall_mem_cons.1 free
    exact .moreElements (ih first) (ihs others)
  | member before name after _ ih => exact .member before name after (ih free)
  | lastMember _ ih => exact .lastMember (ih (free _ List.mem_cons_self))
  | moreMembers _ _ ih ihs =>
    obtain ⟨first, others⟩ := List.forall_mem_cons.1 free
    exact .moreMembers (ih first) (ihs others)

/-- A text that is read as a tree without floats spells the tree. -/
theorem spells_of_parse {text : String} {j : Json} (free : j.FloatFree)
    (h : parse text = .ok j) : Spells .integral (.element j) text.toList :=
  (parse_eq_ok_iff.1 h).1.integral free

/-- A text spells one tree at most. -/
theorem Spells.unique {style : Style} (readable : style.Readable) {i j : Json} {text : List Char}
    (h : Spells style (.element i) text) (h' : Spells style (.element j) text) : i = j := by
  let depth := max i.nesting j.nesting
  have first := (readWhole_outcome (h.taken readable) depth).1 (fits_iff.2 (Nat.le_max_left ..))
  have second := (readWhole_outcome (h'.taken readable) depth).1 (fits_iff.2 (Nat.le_max_right ..))
  rw [first] at second
  exact Except.ok.inj second

end Preferences.Json
