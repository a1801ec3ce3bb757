import Mathlib.Tactic.Linarith
import Preferences.Json.Typed

/-!
# Scalars read back

A reader takes a text for a value if it gives the value whatever blanks stand before the text and
whatever follows that cannot continue a number. Strings, integers and truth values are taken for
themselves by the readers of their types.
-/

namespace Preferences.Json

/-- All characters are blanks. -/
def Blanks (cs : List Char) : Prop := ∀ c ∈ cs, isSpace c = true

/-- The characters do not go on with a number. -/
def Stops (cs : List Char) : Prop :=
  ∀ c ds, cs = c :: ds → c.isDigit = false ∧ c ≠ '.' ∧ c ≠ 'e' ∧ c ≠ 'E'

/-- The reader takes the text, after any blanks, for the value. -/
def Reads {α : Type} (reader : List Char → Read α) (text : List Char) (a : α) : Prop :=
  ∀ blanks rest, Blanks blanks → Stops rest → reader (blanks ++ text ++ rest) = .ok (a, rest)

/-- No characters are blanks too. -/
lemma Blanks.nil : Blanks [] := by
  intro c hc
  cases hc

/-- Nothing is left to go on with. -/
lemma Stops.nil : Stops [] := by
  intro c ds h
  cases h

/-- A character that belongs to no number stops numbers. -/
lemma Stops.cons {c : Char} (ds : List Char)
    (h : c.isDigit = false ∧ c ≠ '.' ∧ c ≠ 'e' ∧ c ≠ 'E') : Stops (c :: ds) := by
  intro d es e
  cases e
  exact h

/-- A blank stops numbers. -/
lemma Stops.of_isSpace {c : Char} (ds : List Char) (h : isSpace c = true) : Stops (c :: ds) := by
  apply Stops.cons
  simp only [isSpace, Bool.or_eq_true, beq_iff_eq] at h
  rcases h with ((rfl | rfl) | rfl) | rfl <;> decide

/-- Numbers stop before blanks and what stops them. -/
lemma Stops.append {blanks cs : List Char} (hb : Blanks blanks) (h : Stops cs) :
    Stops (blanks ++ cs) := by
  cases blanks with
  | nil => exact h
  | cons b bs => exact Stops.of_isSpace _ (hb b List.mem_cons_self)

/-- Blanks are skipped up to the first other character. -/
lemma skipSpace_append {blanks : List Char} (hb : Blanks blanks) {c : Char} (cs : List Char)
    (hc : isSpace c = false) : skipSpace (blanks ++ c :: cs) = c :: cs := by
  rw [skipSpace, List.dropWhile_append_of_pos hb, List.dropWhile_cons_of_neg (by simp [hc])]

/-- There is nothing to skip before another character. -/
lemma skipSpace_cons {c : Char} (cs : List Char) (hc : isSpace c = false) :
    skipSpace (c :: cs) = c :: cs :=
  skipSpace_append Blanks.nil cs hc

/-- Blanks before a value are skipped. -/
lemma beforeValue_append {blanks : List Char} (hb : Blanks blanks) {c : Char} (cs : List Char)
    (hc : isSpace c = false) : beforeValue (blanks ++ c :: cs) = .ok (c, cs) := by
  rw [beforeValue, skipSpace_append hb cs hc]

/-- Reading a whole text with a reader that takes it for a value. -/
lemma readWhole_of_reads {α : Type} {reader : List Char → Read α} {text : List Char} {a : α}
    (h : Reads reader text a) : readWhole reader text = .ok a := by
  have taken := h [] [] Blanks.nil Stops.nil
  simp only [List.nil_append, List.append_nil] at taken
  rw [readWhole, taken]
  rfl

/-! ## Strings -/

/-- The hexadecimal digits of a control character give its code. -/
lemma hexFour_control : ∀ n < 0x20,
    hexFour '0' '0' (Nat.digitChar (n / 16)) (Nat.digitChar (n % 16)) = some n := by
  decide

/-- A quote ends a string. -/
lemma stringBody_quote (rest : List Char) : stringBody ('"' :: rest) = .ok ([], rest) := by
  rw [stringBody.eq_def]
  dsimp only
  rw [if_pos rfl]

/-- A short escape is read as its character. -/
lemma stringBody_short {e c : Char} (h : shortEscape e = some c) (rest : List Char) :
    stringBody ('\\' :: e :: rest) = push c (stringBody rest) := by
  rw [stringBody.eq_def]
  dsimp only
  rw [if_neg (by decide), if_pos rfl]
  simp only [h]

/-- The escape of a control character is read as it. -/
lemma stringBody_control {c : Char} (h : c.toNat < 0x20) (rest : List Char) :
    stringBody ('\\' :: 'u' :: '0' :: '0' :: Nat.digitChar (c.toNat / 16) ::
      Nat.digitChar (c.toNat % 16) :: rest) = push c (stringBody rest) := by
  have low : isLowSurrogate c.toNat = false := by
    simp only [isLowSurrogate, Bool.and_eq_false_iff, decide_eq_false_iff_not]
    omega
  have high : isHighSurrogate c.toNat = false := by
    simp only [isHighSurrogate, Bool.and_eq_false_iff, decide_eq_false_iff_not]
    omega
  have long : shortEscape 'u' = none := by decide
  rw [stringBody.eq_def]
  dsimp only
  rw [if_neg (by decide), if_pos rfl]
  simp [long, hexFour_control _ h, low, high]

/-- A plain character is read as itself. -/
lemma stringBody_plain {c : Char} (quote : c ≠ '"') (backslash : c ≠ '\\')
    (printable : ¬c.toNat < 0x20) (rest : List Char) :
    stringBody (c :: rest) = push c (stringBody rest) := by
  rw [stringBody.eq_def]
  dsimp only
  rw [if_neg quote, if_neg backslash, if_neg printable]

/-- An escaped character is read as itself. -/
lemma stringBody_escapeChar (c : Char) (rest : List Char) :
    stringBody (escapeChar c ++ rest) = push c (stringBody rest) := by
  unfold escapeChar
  -- seven characters have an escape of one letter
  iterate 7
    split
    next h => subst h; exact stringBody_short (by decide) rest
  split
  next h => exact stringBody_control h rest
  next quote backslash _ _ _ _ _ printable => exact stringBody_plain quote backslash printable rest

/-- The characters of a printed string are read back up to its closing quote. -/
lemma stringBody_flatMap (s rest : List Char) :
    stringBody (s.flatMap escapeChar ++ '"' :: rest) = .ok (s, rest) := by
  induction s with
  | nil => exact stringBody_quote rest
  | cons c s ih =>
    rw [List.flatMap_cons, List.append_assoc, stringBody_escapeChar, ih]
    rfl

/-- A printed string is read back after its opening quote. -/
lemma stringRest_flatMap (s : String) (rest : List Char) :
    stringRest (s.toList.flatMap escapeChar ++ '"' :: rest) = .ok (s, rest) := by
  rw [stringRest, stringBody_flatMap]
  simp [Except.map]

/-- A key is read as the string it was written for. -/
lemma textKey_stringChars (s : String) (rest : List Char) :
    textKey (stringChars s ++ rest) = .ok (s, rest) := by
  simp only [stringChars, textKey, List.cons_append, List.tail_cons, List.append_assoc,
    List.nil_append]
  exact stringRest_flatMap s rest

/-- A printed string, taken for what it stands for. -/
lemma reads_textAs {α : Type} {expected : String} {interpret : String → Except Cause α} {s : String}
    {a : α} (h : interpret s = .ok a) : Reads (textAs expected interpret) (stringChars s) a := by
  intro blanks rest hb _
  have text : blanks ++ stringChars s ++ rest =
      blanks ++ '"' :: (s.toList.flatMap escapeChar ++ '"' :: rest) := by
    simp [stringChars]
  rw [text, textAs, beforeValue_append hb _ (by decide)]
  simp [bind, Except.bind, stringRest_flatMap, h, pure, Except.pure]

/-- A text is read as the string it was written for. -/
lemma reads_text (s : String) : Reads text (stringChars s) s := reads_textAs rfl

/-! ## Integers -/

/-- The digits of a number are digits. -/
lemma isDigit_of_mem_natDigits {n : Nat} {c : Char} (h : c ∈ natDigits n) : c.isDigit = true :=
  Nat.isDigit_of_mem_toDigits (by decide) (by decide) h

/-- The digits of a positive number begin with no zero. -/
lemma natDigits_head {n : Nat} (pos : 0 < n) :
    ∃ c cs, natDigits n = c :: cs ∧ c ≠ '0' := by
  induction n using Nat.strongRecOn with
  | ind n ih =>
    by_cases small : n < 10
    · refine ⟨n.digitChar, [], Nat.toDigits_of_lt_base small, ?_⟩
      rw [Ne, Nat.digitChar_eq_zero]
      omega
    · obtain ⟨c, cs, e, nonzero⟩ := ih (n / 10) (by omega) (by omega)
      refine ⟨c, cs ++ [(n % 10).digitChar], ?_, nonzero⟩
      have split := Nat.toDigits_of_base_le (b := 10) (by decide) (Nat.le_of_not_lt small)
      rw [natDigits, split, ← natDigits, e, List.cons_append]

/-- The characters do not go on with digits. -/
def Foreign (cs : List Char) : Prop := ∀ c ds, cs = c :: ds → c.isDigit = false

/-- What stops a number begins with no digit. -/
lemma Stops.foreign {cs : List Char} (stops : Stops cs) : Foreign cs :=
  fun c ds same => (stops c ds same).1

/-- Digits only make a number greater. -/
lemma le_ofDigitChars (ds : List Char) (m : Nat) : m ≤ Nat.ofDigitChars 10 ds m := by
  rw [Nat.ofDigitChars_eq_ofDigitChars_zero]
  have := Nat.one_le_pow ds.length 10 (by decide)
  nlinarith

/-- Digits that fit are taken, up to the last of them. -/
lemma fit_append {limit : Nat} (ds : List Char) {rest : List Char}
    (digits : ∀ c ∈ ds, c.isDigit = true)
    (foreign : Foreign rest) (m : Nat) (small : Nat.ofDigitChars 10 ds m ≤ limit) :
    fit limit m (ds ++ rest) = (Nat.ofDigitChars 10 ds m, rest) := by
  induction ds generalizing m with
  | nil =>
    cases rest with
    | nil => rfl
    | cons c cs =>
      have other := foreign c cs rfl
      simp [fit, other]
  | cons d ds ih =>
    -- what fits with all digits fits up to here
    have grows := le_ofDigitChars ds (10 * m + digitValue d)
    have digit := digits d List.mem_cons_self
    rw [Nat.ofDigitChars_cons] at small ⊢
    rw [List.cons_append, fit, if_pos ⟨digit, Nat.le_trans grows small⟩]
    exact ih (fun c hc => digits c (List.mem_cons_of_mem _ hc)) _ small

/-- Digits that do not begin with a zero are taken together. -/
lemma unsigned_digits {c : Char} {cs rest : List Char} (nonzero : c ≠ '0')
    (digits : ∀ d ∈ c :: cs, d.isDigit = true) (foreign : Foreign rest)
    (small : Nat.ofDigitChars 10 (c :: cs) 0 ≤ maxSignificand) (positive : Bool) :
    unsigned positive (c :: cs ++ rest) =
      afterDigits positive (Nat.ofDigitChars 10 (c :: cs) 0) rest := by
  have value : Nat.ofDigitChars 10 cs (digitValue c) = Nat.ofDigitChars 10 (c :: cs) 0 := by
    rw [Nat.ofDigitChars_cons]
    simp [digitValue]
  have taken : fit maxSignificand (digitValue c) (cs ++ rest) = _ :=
    fit_append cs (fun d hd => digits d (List.mem_cons_of_mem _ hd)) foreign (digitValue c)
      (by rw [value]; exact small)
  rw [List.cons_append, unsigned.eq_def]
  dsimp only
  rw [if_neg nonzero, if_pos (digits c List.mem_cons_self), taken, value]

/-- A whole number ends where nothing goes on with it. -/
lemma afterDigits_of_stops {rest : List Char} (stops : Stops rest) (positive : Bool) (n : Nat) :
    afterDigits positive n rest = .ok (whole positive n, rest) := by
  cases rest with
  | nil => rfl
  | cons c cs =>
    obtain ⟨foreign, point, lower, upper⟩ := stops c cs rfl
    simp [afterDigits, foreign, point, lower, upper]

/-- The digits of a number are read as it. -/
lemma unsigned_natDigits {n : Nat} (small : n ≤ maxSignificand) {rest : List Char}
    (stops : Stops rest) (positive : Bool) :
    unsigned positive (natDigits n ++ rest) = .ok (whole positive n, rest) := by
  rcases Nat.eq_zero_or_pos n with rfl | pos
  · have zero : natDigits 0 ++ rest = '0' :: rest := rfl
    rw [zero, unsigned.eq_def]
    dsimp only
    rw [if_pos rfl]
    cases rest with
    | nil => exact afterDigits_of_stops stops positive 0
    | cons c cs =>
      have foreign := (stops c cs rfl).1
      simp only [foreign, Bool.false_eq_true, if_false]
      exact afterDigits_of_stops stops positive 0
  · obtain ⟨c, cs, e, nonzero⟩ := natDigits_head pos
    have digits : ∀ d ∈ c :: cs, d.isDigit = true := fun d hd =>
      isDigit_of_mem_natDigits (e ▸ hd)
    have value : Nat.ofDigitChars 10 (c :: cs) 0 = n := by
      rw [← e]
      exact Nat.ofDigitChars_ten_toDigits
    rw [e, unsigned_digits nonzero digits stops.foreign (by rw [value]; exact small), value]
    exact afterDigits_of_stops stops positive n

/-- An integer of a range is itself in range. -/
@[simp]
lemma ofInt?_val {lo hi : Int} (z : Ranged lo hi) : Ranged.ofInt? z.val = some z := by
  rw [Ranged.ofInt?, dif_pos ⟨z.lo_le, z.le_hi⟩]

/-- A whole number that is an integer of the format, and no negative zero, is that integer. -/
lemma whole_eq_int {positive : Bool} {n : Nat} {z : WireInt}
    (value : z.val = if positive then (n : Int) else -n) (sign : positive = true ∨ n ≠ 0) :
    whole positive n = .int z := by
  have negative : (!positive && n == 0) = false := by
    rcases sign with rfl | nonzero
    · rfl
    · simp [nonzero]
  rw [whole, negative, ← value]
  simp

/-- A number that begins with a digit is positive. -/
lemma numberHead_of_digit {c : Char} (digit : c.isDigit = true) (cs : List Char) :
    numberHead (c :: cs) = unsigned true (c :: cs) := by
  rw [numberHead]
  rintro ds ⟨⟩
  cases digit

/-- The text of an integer is read as it. -/
lemma numberHead_intDigits (z : WireInt) {rest : List Char} (stops : Stops rest) :
    numberHead (intDigits z.val ++ rest) = .ok (.int z, rest) := by
  have lo := z.lo_le
  have hi := z.le_hi
  cases e : z.val with
  | ofNat n =>
    rw [e, Int.ofNat_eq_natCast] at hi
    have small : n ≤ maxSignificand := by
      simp only [maxSignificand]
      omega
    obtain ⟨c, cs, digits⟩ : ∃ c cs, natDigits n = c :: cs :=
      List.exists_cons_of_ne_nil Nat.toDigits_ne_nil
    have head : numberHead (natDigits n ++ rest) = unsigned true (natDigits n ++ rest) := by
      rw [digits, List.cons_append]
      exact numberHead_of_digit (isDigit_of_mem_natDigits (digits ▸ List.mem_cons_self)) _
    rw [intDigits, head, unsigned_natDigits small stops, whole_eq_int e (.inl rfl)]
  | negSucc n =>
    rw [e] at lo
    have small : n + 1 ≤ maxSignificand := by
      simp only [maxSignificand]
      omega
    have head : numberHead ('-' :: natDigits (n + 1) ++ rest) =
        unsigned false (natDigits (n + 1) ++ rest) := rfl
    rw [intDigits, head, unsigned_natDigits small stops, whole_eq_int e (.inr (by omega))]

/-- The digits of an integer begin with a hyphen or a digit. -/
lemma intDigits_head (z : Int) : ∃ c cs, intDigits z = c :: cs ∧ (c = '-' ∨ c.isDigit = true) := by
  cases z with
  | ofNat n =>
    obtain ⟨c, cs, digits⟩ : ∃ c cs, natDigits n = c :: cs :=
      List.exists_cons_of_ne_nil Nat.toDigits_ne_nil
    exact ⟨c, cs, digits, .inr (isDigit_of_mem_natDigits (digits ▸ List.mem_cons_self))⟩
  | negSucc n => exact ⟨'-', natDigits (n + 1), rfl, .inl rfl⟩

/-- What a number begins with begins nothing else. -/
lemma ne_of_head {c d : Char} (head : c = '-' ∨ c.isDigit = true)
    (other : ¬(d = '-' ∨ d.isDigit = true)) : c ≠ d := by
  rintro rfl
  exact other head

/-- What begins with a hyphen or a digit is read as a number. -/
lemma scalar?_of_head {c : Char} {ds : List Char} (head : c = '-' ∨ c.isDigit = true) :
    scalar? (c :: ds) = some ((numberHead (c :: ds)).map fun p => (number p.1, p.2)) := by
  rw [scalar?, if_neg (ne_of_head head (by decide)), if_neg (ne_of_head head (by decide)),
    if_neg (ne_of_head head (by decide)), if_pos head]

/-- What a number begins with is no blank. -/
lemma isSpace_of_number {c : Char} (h : c = '-' ∨ c.isDigit = true) : isSpace c = false := by
  rcases h with rfl | digit
  · decide
  · cases space : isSpace c with
    | false => rfl
    | true =>
      have foreign := (Stops.of_isSpace [] space c [] rfl).1
      rw [foreign] at digit
      cases digit

/-- An integer of a range that JSON holds is read back from its text. -/
lemma reads_word {w : Width} (wide : -0x8000000000000000 ≤ w.lo ∧ w.hi ≤ 0xffffffffffffffff)
    (z : Word w) : Reads (word w) (intDigits z.val) z := by
  intro blanks rest hb stops
  obtain ⟨c, cs, digits, number⟩ := intDigits_head z.val
  have lo := Int.le_trans wide.1 z.lo_le
  have hi := Int.le_trans z.le_hi wide.2
  have taken : numberHead (c :: (cs ++ rest)) = .ok (.int ⟨z.val, lo, hi⟩, rest) := by
    rw [← List.cons_append, ← digits]
    exact numberHead_intDigits ⟨z.val, lo, hi⟩ stops
  rw [digits, List.append_assoc, List.cons_append, word,
    beforeValue_append hb _ (isSpace_of_number number)]
  simp only [bind, Except.bind, if_pos number, taken, wordOf, ofInt?_val]
  rfl

/-- The digits of a number of any size are taken together. -/
lemma plainDigits_natDigits (n : Nat) {rest : List Char} (foreign : Foreign rest) :
    plainDigits (natDigits n ++ rest) = .ok (natDigits n, rest) := by
  rcases Nat.eq_zero_or_pos n with rfl | pos
  · have zero : natDigits 0 = ['0'] := rfl
    rw [zero, List.singleton_append, plainDigits.eq_def]
    dsimp only
    rw [if_pos rfl]
    cases rest with
    | nil => rfl
    | cons c cs => simp only [foreign c cs rfl, Bool.false_eq_true, if_false]
  · obtain ⟨c, cs, e, nonzero⟩ := natDigits_head pos
    have digits : ∀ d ∈ c :: cs, d.isDigit = true := fun d there =>
      isDigit_of_mem_natDigits (e ▸ there)
    obtain ⟨digit, others⟩ := List.forall_mem_cons.1 digits
    have taken : (cs ++ rest).takeWhile Char.isDigit = cs ∧
        (cs ++ rest).dropWhile Char.isDigit = rest := by
      rw [List.takeWhile_append_of_pos others, List.dropWhile_append_of_pos others]
      cases rest with
      | nil => exact ⟨List.append_nil cs, rfl⟩
      | cons d ds =>
        have other := foreign d ds rfl
        rw [List.takeWhile_cons_of_neg (by simp [other]), List.append_nil,
          List.dropWhile_cons_of_neg (by simp [other])]
        exact ⟨rfl, rfl⟩
    rw [e, List.cons_append, plainDigits.eq_def]
    dsimp only
    rw [if_neg nonzero, if_pos digit, taken.1, taken.2]

/-- An integer of a range of any size is read back from its text. -/
lemma reads_bigWord {w : Width} (z : Word w) : Reads (bigWord w) (intDigits z.val) z := by
  intro blanks rest hb stops
  have value (n : Nat) : Nat.ofDigitChars 10 (natDigits n) 0 = n := Nat.ofDigitChars_ten_toDigits
  have itself := ofInt?_val z
  cases e : z.val with
  | ofNat n =>
    obtain ⟨c, cs, digits⟩ : ∃ c cs, natDigits n = c :: cs :=
      List.exists_cons_of_ne_nil Nat.toDigits_ne_nil
    have digit : c.isDigit = true := isDigit_of_mem_natDigits (digits ▸ List.mem_cons_self)
    have unsigned : c ≠ '-' := by
      rintro rfl
      cases digit
    have taken := plainDigits_natDigits n stops.foreign
    rw [digits, List.cons_append] at taken
    rw [e, Int.ofNat_eq_natCast] at itself
    rw [intDigits, digits, List.append_assoc, List.cons_append, bigWord,
      beforeValue_append hb _ (isSpace_of_number (.inr digit))]
    simp only [bind, Except.bind, if_neg unsigned, taken, ← digits, value, Bool.false_eq_true,
      if_false, itself]
    rfl
  | negSucc n =>
    have negative : w.lo < 0 := by
      have lo := z.lo_le
      rw [e] at lo
      omega
    have taken := plainDigits_natDigits (n + 1) stops.foreign
    rw [e, Int.negSucc_eq] at itself
    rw [intDigits, List.append_assoc, List.cons_append, bigWord,
      beforeValue_append hb _ (by decide)]
    simp only [bind, Except.bind, if_true, if_pos negative, taken, value]
    rw [Int.natCast_add_one]
    simp only [itself]
    rfl

/-! ## Keys that are integers -/

/-- What a number begins with needs no escape. -/
lemma escapeChar_of_number {c : Char} (h : c = '-' ∨ c.isDigit = true) : escapeChar c = [c] := by
  rcases h with rfl | digit
  · decide
  · have ne {d : Char} := ne_of_head (d := d) (.inr digit)
    have graphic : ¬ c.toNat < 0x20 := by
      simp only [Char.isDigit, Bool.and_eq_true, decide_eq_true_eq] at digit
      have low := UInt32.le_iff_toNat_le.1 digit.1
      exact Nat.not_lt.2 (Nat.le_trans (by decide) low)
    rw [escapeChar, if_neg (ne (by decide)), if_neg (ne (by decide)), if_neg (ne (by decide)),
      if_neg (ne (by decide)), if_neg (ne (by decide)), if_neg (ne (by decide)),
      if_neg (ne (by decide)), if_neg graphic]

/-- The text of an integer has nothing to escape. -/
lemma flatMap_escapeChar_intDigits (z : Int) :
    (intDigits z).flatMap escapeChar = intDigits z := by
  have plain (cs : List Char) (number : ∀ c ∈ cs, c = '-' ∨ c.isDigit = true) :
      cs.flatMap escapeChar = cs := by
    induction cs with
    | nil => rfl
    | cons c cs ih =>
      rw [List.flatMap_cons, escapeChar_of_number (number c List.mem_cons_self),
        ih fun d later => number d (List.mem_cons_of_mem _ later)]
      rfl
  apply plain
  cases z with
  | ofNat n => exact fun c there => .inr (isDigit_of_mem_natDigits there)
  | negSucc n =>
    intro c there
    rcases List.mem_cons.1 there with rfl | later
    · exact .inl rfl
    · exact .inr (isDigit_of_mem_natDigits later)

/-- The quoted text of an integer is read as a key. -/
lemma wordKey_intDigits (z : Word .int64) (rest : List Char) :
    wordKey .int64 (stringChars (String.ofList (intDigits z.val)) ++ rest) = .ok (z, rest) := by
  obtain ⟨c, cs, digits, number⟩ := intDigits_head z.val
  have plain : (intDigits z.val).flatMap escapeChar = intDigits z.val :=
    flatMap_escapeChar_intDigits z.val
  have text : stringChars (String.ofList (intDigits z.val)) ++ rest =
      '"' :: c :: (cs ++ '"' :: rest) := by
    rw [stringChars, String.toList_ofList, plain, digits]
    simp
  have stops : Stops ('"' :: rest) := Stops.cons _ (by decide)
  have taken := reads_word (w := .int64) (by decide) z [] _ Blanks.nil stops
  rw [digits, List.nil_append, List.cons_append] at taken
  have known : (!(c == '-' || c.isDigit)) = false := by
    rcases number with rfl | digit
    · rfl
    · simp [digit]
  rw [text, wordKey]
  simp only [List.tail_cons, known, bind, Except.bind, taken]
  rfl

/-! ## Truth values -/

/-- A flag is read as it was written. -/
lemma reads_flag (b : Bool) (l : Layout) (level : Nat) :
    Reads flag ((bool b).render l level) b := by
  intro blanks rest hb _
  cases b with
  | false | true =>
    rw [render, List.append_assoc, List.cons_append, flag, beforeValue_append hb _ (by decide)]
    simp [bind, Except.bind, literal, pure, Except.pure]

end Preferences.Json
