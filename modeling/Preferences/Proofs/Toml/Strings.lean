import Mathlib.Tactic.Lemma
import Preferences.Toml.Writer

/-!
# Strings read as they were written

The writer has four forms for a text and chooses by what is in it; the reader tells by the opening
quotes which form it has before it. Each form is read back to the text it was written for: one lemma
for what a single character becomes, then an induction for the body, then the quotes around it. On
several lines quotes may stand for themselves, up to two in a row, and those that end a text touch
the closing ones. Main statement: `string?_stringChars`.
-/

namespace Preferences.Toml

variable {q c : Char} {cs rest : List Char}

/-! ## What a character becomes -/

/-- The characters that a character other than a quote is written as. -/
def written (long : Bool) (c : Char) : List Char :=
  match letterFor? c with
  | some e => ['\\', e]
  | none =>
    if c = '\n' then (if long then [c] else ['\\', 'n'])
    else if isControl c then codeChars c
    else [c]

/-- A character that is no quote is written by itself, and the run of quotes starts anew. -/
lemma basicChars_cons (long : Bool) (limit seen : Nat) (other : c ≠ '"') :
    basicChars long limit seen (c :: cs) = written long c ++ basicChars long limit 0 cs := by
  rw [basicChars, if_neg other]
  rfl

/-- The digits in the code of a character. -/
def codeDigits (n : Nat) : List Char :=
  let ds := (Nat.toDigits 16 n).map Char.toUpper
  List.replicate (4 - ds.length) '0' ++ ds

/-- Four hexadecimal digits name every code below 128. -/
lemma hexChar?_codeDigits : ∀ n < 128,
    (codeDigits n).length = 4 ∧ hexChar? 4 (codeDigits n) = some (Char.ofNat n) := by
  decide +kernel

/-- The reader takes the code that is written for a small character, and the five characters of it.
-/
lemma escape?_code (small : c.toNat < 128) (rest : List Char) :
    escape? ('u' :: codeDigits c.toNat ++ rest) = some (c, 5) := by
  obtain ⟨four, read⟩ := hexChar?_codeDigits c.toNat small
  have cut : (codeDigits c.toNat ++ rest).take 4 = (codeDigits c.toNat).take 4 := by
    rw [← four, List.take_left, List.take_length]
  have same : hexChar? 4 (codeDigits c.toNat ++ rest) = some c := by
    rw [Char.ofNat_toNat] at read
    rw [← read, hexChar?, hexChar?, cut]
  have letter : shortEscape? 'u' = none := by decide
  simp only [escape?, List.cons_append, letter, same, Option.map_some]
  rfl

/-- All characters that need a code have a small one. -/
lemma toNat_lt_of_isControl (control : isControl c) : c.toNat < 128 := by
  simp only [isControl, Bool.and_eq_true, Bool.or_eq_true, decide_eq_true_eq, beq_iff_eq] at control
  omega

/-- A letter that is written behind a backslash is read as the character it stands for. -/
lemma shortEscape?_of_letterFor? {e : Char} (letter : letterFor? c = some e) :
    shortEscape? e = some c := by
  rw [letterFor?] at letter
  repeat' split at letter
  all_goals
    cases letter
    try subst c
    try rfl

/-- What is neither a control character nor a line feed stands for itself within a line. -/
lemma isText_of_not_isControl (line : c ≠ '\n') (plain : c ≠ '\t' → isControl c = false) :
    isText c = true := by
  by_cases tab : c = '\t'
  · subst tab
    rfl
  · have control := plain tab
    simp only [isControl, bne_iff_ne, ne_eq, tab, line, not_false_eq_true, Bool.or_eq_false_iff,
      decide_eq_false_iff_not, beq_eq_false_iff_ne, Bool.and_eq_false_imp, Bool.and_eq_true,
      bne_iff_ne, and_self, forall_const] at control
    simp only [isText, Bool.or_eq_true, Bool.and_eq_true, decide_eq_true_eq]
    right
    omega

/-- How a character is written: with an escape, or as itself. -/
inductive Written (long : Bool) (c : Char) : List Char → Prop where
  | escaped (tail : List Char)
      (read : ∀ rest, escape? (tail ++ rest) = some (c, tail.length)) :
      Written long c ('\\' :: tail)
  | itself (backslash : c ≠ '\\') (carriage : c ≠ '\r')
      (text : isText c = true ∨ long = true ∧ c = '\n') : Written long c [c]

/-- What is written for a character is one of the three forms. -/
lemma written_spec (long : Bool) (c : Char) : Written long c (written long c) := by
  rw [written]
  cases letter : letterFor? c with
  | some e =>
    refine .escaped [e] fun rest => ?_
    simp only [List.cons_append, List.nil_append, escape?, shortEscape?_of_letterFor? letter,
      List.length_singleton]
  | none =>
    have backslash : c ≠ '\\' := by
      rintro rfl
      cases letter
    have carriage : c ≠ '\r' := by
      rintro rfl
      cases letter
    dsimp only
    split
    next line =>
      subst line
      cases long with
      | true => exact .itself backslash carriage (.inr ⟨rfl, rfl⟩)
      | false => exact .escaped ['n'] fun rest => rfl
    next line =>
      split
      next control =>
        have small := toNat_lt_of_isControl control
        have four := (hexChar?_codeDigits c.toNat small).1
        refine .escaped ('u' :: codeDigits c.toNat) fun rest => ?_
        rw [escape?_code small, List.length_cons, four]
      next control =>
        exact .itself backslash carriage
          (.inl (isText_of_not_isControl line fun _ => Bool.eq_false_iff.2 control))

/-- What is written starts with a backslash or with the character that it stands for. -/
lemma head_basicChars (long : Bool) (limit seen : Nat) (c : Char) (cs : List Char) :
    ∃ d ds, basicChars long limit seen (c :: cs) = d :: ds ∧
      (d = '\\' ∨ d = c ∧ c ≠ '\r' ∧ (c = '"' → seen < limit)) := by
  by_cases quote : c = '"'
  · rw [basicChars, if_pos quote]
    split
    next few =>
      subst quote
      exact ⟨_, _, rfl, .inr ⟨rfl, by decide, fun _ => few⟩⟩
    next => exact ⟨_, _, rfl, .inl rfl⟩
  · have spec := written_spec long c
    rw [basicChars_cons long limit seen quote]
    generalize written long c = piece at spec ⊢
    cases spec with
    | escaped tail => exact ⟨_, _, rfl, .inl rfl⟩
    | itself _ carriage => exact ⟨_, _, rfl, .inr ⟨rfl, carriage, fun same => absurd same quote⟩⟩

/-- It starts with no quote, unless a quote stands for itself. -/
lemma head_basicChars_ne {long : Bool} {limit seen : Nat} (c : Char) (cs : List Char)
    (other : c ≠ '"' ∨ limit ≤ seen) :
    ∃ d ds, basicChars long limit seen (c :: cs) = d :: ds ∧ d ≠ '"' := by
  obtain ⟨d, ds, first, rfl | ⟨rfl, -, few⟩⟩ := head_basicChars long limit seen c cs
  · exact ⟨_, ds, first, by decide⟩
  · exact ⟨_, ds, first, fun quote => other.elim (· quote) (Nat.not_le.2 (few quote))⟩

/-! ## Bodies on one line -/

/-- Characters that an escape has taken are passed over in a basic string. -/
lemma basicBody_skip (front : List Char) :
    basicBody front.length (front ++ cs) = basicBody 0 cs := by
  induction front with
  | nil => rfl
  | cons d front ih => exact ih

/-- In a basic string what is written for a character gives it back. -/
lemma basicBody_written {piece : List Char} (spec : Written false c piece) (quote : c ≠ '"') :
    basicBody 0 (piece ++ cs) = push c (basicBody 0 cs) := by
  cases spec with
  | escaped tail read =>
    have step : basicBody 0 ('\\' :: (tail ++ cs)) =
        push c (basicBody tail.length (tail ++ cs)) := by
      rw [basicBody, if_neg (by decide), if_pos rfl, read cs]
    rw [List.cons_append, step, basicBody_skip]
  | itself backslash _ text =>
    have plain : isText c = true := text.resolve_right fun h => by cases h.1
    rw [List.singleton_append, basicBody, if_neg quote, if_neg backslash, if_pos plain]

/-- A basic string gives back the characters it was written for, whatever comes behind its quote. -/
theorem basicBody_basicChars (seen : Nat) (cs rest : List Char) :
    basicBody 0 (basicChars false 0 seen cs ++ '"' :: rest) = some (cs, rest) := by
  induction cs generalizing seen with
  | nil => rfl
  | cons c cs ih =>
    by_cases quote : c = '"'
    · subst quote
      have step : basicBody 0 ('\\' :: '"' :: (basicChars false 0 0 cs ++ '"' :: rest)) =
          push '"' (basicBody 0 (basicChars false 0 0 cs ++ '"' :: rest)) := rfl
      rw [basicChars, if_pos rfl, if_neg (Nat.not_lt_zero seen), List.cons_append, List.cons_append,
        step, ih]
      rfl
    · rw [basicChars_cons _ _ _ quote, List.append_assoc,
        basicBody_written (written_spec false c) quote, ih]
      rfl

/-- A literal string gives back characters without apostrophes and controls as they are. -/
theorem literalBody_append (quotes : '\'' ∉ cs) (text : ∀ c ∈ cs, isText c = true)
    (rest : List Char) : literalBody (cs ++ '\'' :: rest) = some (cs, rest) := by
  induction cs with
  | nil => rfl
  | cons c cs ih =>
    rw [List.mem_cons, not_or] at quotes
    rw [List.cons_append, literalBody, if_neg (Ne.symm quotes.1),
      if_pos (text c List.mem_cons_self),
      ih quotes.2 fun d mem => text d (List.mem_cons_of_mem c mem)]
    rfl

/-! ## Closing quotes of several lines -/

/-- The rest of a document does not go on with the quotes that have just been closed. -/
def Clear (q : Char) (rest : List Char) : Prop := rest.head? ≠ some q

/-- Where no quote stands, nothing is closed. -/
lemma closeQuotes?_other {d : Char} (other : d ≠ q) : closeQuotes? q (d :: cs) = none := by
  cases cs with
  | nil => rfl
  | cons e es => exact if_neg fun both => other both.1

/-- One quote alone closes nothing in a string over several lines. -/
lemma closeQuotes?_one_other {d : Char} (other : d ≠ q) : closeQuotes? q (q :: d :: cs) = none :=
  if_neg fun both => other both.2

/-- The first of three quotes closes a text, and none belongs to it. -/
lemma closeQuotes?_two (clear : Clear q rest) :
    closeQuotes? q (q :: q :: rest) = some ([], rest) := by
  refine (if_pos ⟨rfl, rfl⟩).trans ?_
  rcases rest with _ | ⟨c, _ | ⟨d, ds⟩⟩
  · rfl
  · have other : c ≠ q := fun same => clear (congrArg some same)
    exact if_neg other
  · have other : c ≠ q := fun same => clear (congrArg some same)
    dsimp only
    rw [if_neg fun both => other both.1, if_neg other]

/-- A quote before the three belongs to the text. -/
lemma closeQuotes?_three (clear : Clear q rest) :
    closeQuotes? q (q :: q :: q :: rest) = some ([q], rest) := by
  refine (if_pos ⟨rfl, rfl⟩).trans ?_
  rcases rest with _ | ⟨d, ds⟩
  · exact if_pos rfl
  · have other : d ≠ q := fun same => clear (congrArg some same)
    dsimp only
    rw [if_neg fun both => other both.2, if_pos rfl]

/-- Of four quotes in a row the first belongs to the text, and the last three close it. -/
lemma closeQuotes?_four :
    closeQuotes? q (q :: q :: q :: q :: rest) = some ([q, q], rest) := by
  refine (if_pos ⟨rfl, rfl⟩).trans ?_
  exact if_pos ⟨rfl, rfl⟩

/-! ## Bodies on several lines -/

/-- Characters that an escape has taken are passed over in a string over several lines. -/
lemma longBody_skip (front : List Char) : longBody front.length (front ++ cs) = longBody 0 cs := by
  induction front with
  | nil => rfl
  | cons d front ih => exact ih

/-- In a string over several lines what is written for a character gives it back. -/
lemma longBody_written {piece : List Char} (spec : Written true c piece) (quote : c ≠ '"') :
    longBody 0 (piece ++ cs) = push c (longBody 0 cs) := by
  cases spec with
  | escaped tail read =>
    have step : longBody 0 ('\\' :: (tail ++ cs)) = push c (longBody tail.length (tail ++ cs)) := by
      rw [longBody, if_neg (by decide), if_pos rfl, read cs]
    rw [List.cons_append, step, longBody_skip]
  | itself backslash carriage text =>
    have plain : isLineText c cs = true := by
      rw [isLineText, if_neg carriage, Bool.or_eq_true]
      exact text.elim .inr fun line => .inl (beq_iff_eq.2 line.2)
    rw [List.singleton_append, longBody, if_neg quote, if_neg backslash, if_pos plain]

/-- A quote that closes nothing belongs to the text. -/
lemma longBody_quote_open (h : closeQuotes? '"' cs = none) :
    longBody 0 ('"' :: cs) = push '"' (longBody 0 cs) := by
  rw [longBody, if_pos rfl, h]

/-- A quote that closes the string ends it. -/
lemma longBody_quote_closed {closed : List Char × List Char}
    (h : closeQuotes? '"' cs = some closed) : longBody 0 ('"' :: cs) = some closed := by
  rw [longBody, if_pos rfl, h]

/-- Between three quotes a text is read back. The quotes that it ends with meet the closing ones and
are counted with them. -/
theorem longBody_basicChars (clear : Clear '"' rest) (seen : Nat) (cs : List Char) :
    longBody 0 (basicChars true 2 seen cs ++ '"' :: '"' :: '"' :: rest) = some (cs, rest) := by
  induction cs generalizing seen with
  | nil => exact longBody_quote_closed (closeQuotes?_two clear)
  | cons c cs ih =>
    by_cases quote : c = '"'
    · subst quote
      rw [basicChars, if_pos rfl]
      split
      next few =>
        rw [List.cons_append]
        have more (h : closeQuotes? '"'
            (basicChars true 2 (seen + 1) cs ++ '"' :: '"' :: '"' :: rest) = none) :
            longBody 0 ('"' :: (basicChars true 2 (seen + 1) cs ++ '"' :: '"' :: '"' :: rest)) =
              some ('"' :: cs, rest) := by
          rw [longBody_quote_open h, ih]
          rfl
        -- a quote of the text may be its last one, or the last but one
        rcases cs with _ | ⟨d, ds⟩
        · exact longBody_quote_closed (closeQuotes?_three clear)
        · by_cases second : d = '"' ∧ seen = 0
          · obtain ⟨rfl, rfl⟩ := second
            rcases ds with _ | ⟨e, es⟩
            · exact longBody_quote_closed closeQuotes?_four
            · obtain ⟨x, xs, third, other⟩ := head_basicChars_ne e es (.inr (Nat.le_refl 2))
              refine more ?_
              rw [basicChars, if_pos rfl, if_pos (by decide), third]
              exact closeQuotes?_one_other other
          · have apart : d ≠ '"' ∨ 2 ≤ seen + 1 := by
              by_cases same : d = '"'
              · have started : seen ≠ 0 := fun none => second ⟨same, none⟩
                exact .inr (by omega)
              · exact .inl same
            obtain ⟨x, xs, next, other⟩ := head_basicChars_ne d ds apart
            refine more ?_
            rw [next]
            exact closeQuotes?_other other
      next =>
        have step : longBody 0 ('\\' :: '"' ::
            (basicChars true 2 0 cs ++ '"' :: '"' :: '"' :: rest)) =
            push '"' (longBody 0 (basicChars true 2 0 cs ++ '"' :: '"' :: '"' :: rest)) := rfl
        rw [List.cons_append, List.cons_append, step, ih]
        rfl
    · rw [basicChars_cons _ _ _ quote, List.append_assoc,
        longBody_written (written_spec true c) quote, ih]
      rfl

/-! ## Runs of quotes -/

/-- The longest run is no shorter than what was counted before. -/
lemma le_longestRun (current best : Nat) (cs : List Char) :
    max current best ≤ longestRun q current best cs := by
  induction cs generalizing current best with
  | nil => exact Nat.le_refl _
  | cons c cs ih =>
    rw [longestRun]
    split
    · exact Nat.le_trans (by omega) (ih (current + 1) best)
    · exact Nat.le_trans (by omega) (ih 0 (max current best))

/-- The longest run grows with what was counted before. -/
lemma longestRun_mono {current current' best best' : Nat} (h : current ≤ current')
    (h' : max current best ≤ max current' best') (cs : List Char) :
    longestRun q current best cs ≤ longestRun q current' best' cs := by
  induction cs generalizing current current' best best' with
  | nil => exact h'
  | cons c cs ih =>
    rw [longestRun, longestRun]
    split
    · exact ih (by omega) (by omega)
    · exact ih (Nat.le_refl 0) (by omega)

/-- A character more makes the longest run no shorter. -/
lemma longestRun_tail (c : Char) (cs : List Char) :
    longestRun q 0 0 cs ≤ longestRun q 0 0 (c :: cs) := by
  rw [longestRun]
  split
  · exact longestRun_mono (Nat.zero_le _) (Nat.zero_le _) cs
  · exact Nat.le_refl _

/-- Three quotes in a row are a run of three. -/
lemma three_le_longestRun (cs : List Char) : 3 ≤ longestRun q 0 0 (q :: q :: q :: cs) := by
  rw [longestRun, if_pos rfl, longestRun, if_pos rfl, longestRun, if_pos rfl]
  exact Nat.le_trans (Nat.le_max_left 3 0) (le_longestRun 3 0 cs)

/-- In a literal string over several lines an apostrophe that closes nothing belongs to the text. -/
lemma longLiteralBody_open (h : closeQuotes? '\'' cs = none) :
    longLiteralBody ('\'' :: cs) = push '\'' (longLiteralBody cs) := by
  rw [longLiteralBody, if_pos rfl, h]

/-- In a literal string over several lines an apostrophe that closes the string ends it. -/
lemma longLiteralBody_closed {closed : List Char × List Char}
    (h : closeQuotes? '\'' cs = some closed) : longLiteralBody ('\'' :: cs) = some closed := by
  rw [longLiteralBody, if_pos rfl, h]

/-- A literal string over several lines gives back characters with no more than two apostrophes in a
row as they are. -/
theorem longLiteralBody_append (clear : Clear '\'' rest) (few : longestRun '\'' 0 0 cs ≤ 2)
    (text : ∀ c ∈ cs, c ≠ '\r' ∧ (c = '\n' ∨ isText c = true)) :
    longLiteralBody (cs ++ '\'' :: '\'' :: '\'' :: rest) = some (cs, rest) := by
  induction cs with
  | nil => exact longLiteralBody_closed (closeQuotes?_two clear)
  | cons c cs ih =>
    have read := ih (Nat.le_trans (longestRun_tail c cs) few) fun d mem =>
      text d (List.mem_cons_of_mem c mem)
    by_cases quote : c = '\''
    · subst quote
      have more (h : closeQuotes? '\'' (cs ++ '\'' :: '\'' :: '\'' :: rest) = none) :
          longLiteralBody ('\'' :: (cs ++ '\'' :: '\'' :: '\'' :: rest)) =
            some ('\'' :: cs, rest) := by
        rw [longLiteralBody_open h, read]
        rfl
      -- no run is longer than two quotes, so that a third character is another one
      rcases cs with _ | ⟨d, ds⟩
      · exact longLiteralBody_closed (closeQuotes?_three clear)
      · by_cases second : d = '\''
        · subst second
          rcases ds with _ | ⟨e, es⟩
          · exact longLiteralBody_closed closeQuotes?_four
          · have third : e ≠ '\'' := by
              rintro rfl
              have run := three_le_longestRun (q := '\'') es
              omega
            exact more (closeQuotes?_one_other third)
        · exact more (closeQuotes?_other second)
    · obtain ⟨carriage, plain⟩ := text c List.mem_cons_self
      have plain : isLineText c (cs ++ '\'' :: '\'' :: '\'' :: rest) = true := by
        rw [isLineText, if_neg carriage, Bool.or_eq_true, beq_iff_eq]
        exact plain
      rw [List.cons_append, longLiteralBody, if_neg quote, if_pos plain, read]
      rfl

/-! ## Strings -/

/-- There is no line end to skip where the text begins with another character. -/
lemma skipFirstLineEnd_of_head {d : Char} (line : d ≠ '\n') (carriage : d ≠ '\r') :
    skipFirstLineEnd (d :: cs) = d :: cs := by
  rw [skipFirstLineEnd, lineEnd?]
  · rfl
  · rintro ds h
    exact line (List.cons.inj h).1
  · rintro ds h
    exact carriage (List.cons.inj h).1

/-- The line end that starts a text on several lines. -/
def lineStart (cs : List Char) : List Char := if cs.contains '\n' then ['\n'] else []

/-- The reader takes away the line end that the writer put first. It put none before a text on one
line, and then the text itself starts with none. -/
lemma skipFirstLineEnd_lineStart {body : List Char}
    (starts : '\n' ∉ cs → ∃ d ds, body = d :: ds ∧ d ≠ '\n' ∧ d ≠ '\r') :
    skipFirstLineEnd (lineStart cs ++ body) = body := by
  rw [lineStart]
  split
  next => rfl
  next single =>
    obtain ⟨d, ds, rfl, line, carriage⟩ := starts (by simpa using single)
    exact skipFirstLineEnd_of_head line carriage

/-- Three quotes open a string over several lines. -/
lemma string?_quotes (cs : List Char) :
    string? ('"' :: '"' :: '"' :: cs) =
      (longBody 0 (skipFirstLineEnd cs)).map fun p => (String.ofList p.1, p.2) := rfl

/-- Three apostrophes open a literal string over several lines. -/
lemma string?_apostrophes (cs : List Char) :
    string? ('\'' :: '\'' :: '\'' :: cs) =
      (longLiteralBody (skipFirstLineEnd cs)).map fun p => (String.ofList p.1, p.2) := rfl

/-- Where a quote is followed by another character, or by one more quote only, the string is on one
line. -/
lemma string?_line {d : Char} (h : d ≠ q ∨ Clear q cs) :
    string? (q :: d :: cs) = string?.line? (q :: d :: cs) := by
  rw [string?]
  · rintro ds e
    cases e
    exact h.elim (· rfl) (· rfl)
  · rintro ds e
    cases e
    exact h.elim (· rfl) (· rfl)

/-! ## Which form fits -/

/-- Characters that need no codes are line ends and plain text. -/
lemma text_of_needsCodes (none : needsCodes cs = false) :
    ∀ c ∈ cs, c ≠ '\r' ∧ (c = '\n' ∨ isText c = true) := by
  intro c mem
  have plain := List.any_eq_false.1 none c mem
  rw [Bool.or_eq_true, not_or, beq_iff_eq] at plain
  obtain ⟨-, control⟩ := plain
  refine ⟨fun carriage => control (carriage ▸ rfl), ?_⟩
  by_cases line : c = '\n'
  · exact .inl line
  · exact .inr (isText_of_not_isControl line fun _ => Bool.eq_false_iff.2 control)

/-- A literal string is chosen only for text on one line that has no apostrophes and needs no codes.
-/
lemma fits_literal (chosen : style cs = .literal) :
    needsCodes cs = false ∧ '\n' ∉ cs ∧ '\'' ∉ cs := by
  rw [style] at chosen
  split at chosen
  next =>
    split at chosen
    · cases chosen
    · cases chosen
  next none =>
    split at chosen
    next => cases chosen
    next =>
      split at chosen
      next fits =>
        simp only [Bool.and_eq_true, Bool.not_eq_true', List.contains_eq_mem,
          decide_eq_false_iff_not] at fits
        exact ⟨Bool.eq_false_iff.2 none, fits⟩
      next =>
        repeat' split at chosen
        all_goals cases chosen

/-- A literal string over several lines is chosen only where no run of apostrophes could close it.
-/
lemma fits_longLiteral (chosen : style cs = .longLiteral) :
    needsCodes cs = false ∧ longestRun '\'' 0 0 cs ≤ 2 := by
  rw [style] at chosen
  split at chosen
  next =>
    split at chosen
    · cases chosen
    · cases chosen
  next none =>
    refine ⟨Bool.eq_false_iff.2 none, ?_⟩
    repeat' split at chosen
    all_goals first | assumption | cases chosen

/-! ## The quotes around a text -/

/-- A line end keeps quotes in front of it from running on. -/
lemma clear_line (apart : q ≠ '\n') (rest : List Char) : Clear q ('\n' :: rest) :=
  fun same => apart (Option.some.inj same).symm

/-- A basic string before a line end is read as its characters, the empty one included. -/
lemma string?_basic (cs rest : List Char) :
    string? ('"' :: basicChars false 0 0 cs ++ '"' :: '\n' :: rest) =
      some (String.ofList cs, '\n' :: rest) := by
  have read : string?.line? ('"' :: (basicChars false 0 0 cs ++ '"' :: '\n' :: rest)) =
      some (String.ofList cs, '\n' :: rest) := by
    rw [string?.line?, basicBody_basicChars]
    rfl
  rw [List.cons_append]
  rcases cs with _ | ⟨c, cs⟩
  · exact (string?_line (.inr (clear_line (by decide) rest))).trans read
  · obtain ⟨d, ds, first, other⟩ := head_basicChars_ne c cs (.inr (Nat.le_refl 0))
    rw [first, List.cons_append] at read ⊢
    exact (string?_line (.inl other)).trans read

/-- A literal string before a line end is read as its characters, the empty one included. -/
lemma string?_literal (quotes : '\'' ∉ cs) (text : ∀ c ∈ cs, isText c = true)
    (rest : List Char) :
    string? ('\'' :: cs ++ '\'' :: '\n' :: rest) = some (String.ofList cs, '\n' :: rest) := by
  have read : string?.line? ('\'' :: (cs ++ '\'' :: '\n' :: rest)) =
      some (String.ofList cs, '\n' :: rest) := by
    rw [string?.line?, literalBody_append quotes text]
    rfl
  rw [List.cons_append]
  rcases cs with _ | ⟨c, cs⟩
  · exact (string?_line (.inr (clear_line (by decide) rest))).trans read
  · have other : c ≠ '\'' := fun same => quotes (same ▸ List.mem_cons_self)
    exact (string?_line (.inl other)).trans read

/-- A string over several lines, with the line end behind its first quotes, is read as its
characters. -/
lemma string?_longBasic (cs rest : List Char) :
    string? ('"' :: '"' :: '"' :: lineStart cs ++ basicChars true 2 0 cs ++
      '"' :: '"' :: '"' :: '\n' :: rest) = some (String.ofList cs, '\n' :: rest) := by
  have start : skipFirstLineEnd (lineStart cs ++
      (basicChars true 2 0 cs ++ '"' :: '"' :: '"' :: '\n' :: rest)) =
        basicChars true 2 0 cs ++ '"' :: '"' :: '"' :: '\n' :: rest := by
    refine skipFirstLineEnd_lineStart fun single => ?_
    rcases cs with _ | ⟨c, cs⟩
    · exact ⟨'"', _, rfl, by decide, by decide⟩
    · rw [List.mem_cons, not_or] at single
      obtain ⟨d, ds, first, rfl | ⟨rfl, carriage, -⟩⟩ := head_basicChars true 2 0 c cs
      · exact ⟨'\\', _, by rw [first]; rfl, by decide, by decide⟩
      · exact ⟨d, _, by rw [first]; rfl, Ne.symm single.1, carriage⟩
  simp only [List.cons_append, List.append_assoc]
  rw [string?_quotes, start, longBody_basicChars (clear_line (by decide) rest)]
  rfl

/-- A literal string over several lines, with the line end behind its first apostrophes, is read as
its characters. -/
lemma string?_longLiteral (few : longestRun '\'' 0 0 cs ≤ 2)
    (text : ∀ c ∈ cs, c ≠ '\r' ∧ (c = '\n' ∨ isText c = true)) (rest : List Char) :
    string? ('\'' :: '\'' :: '\'' :: lineStart cs ++ cs ++
      '\'' :: '\'' :: '\'' :: '\n' :: rest) = some (String.ofList cs, '\n' :: rest) := by
  have start : skipFirstLineEnd (lineStart cs ++ (cs ++ '\'' :: '\'' :: '\'' :: '\n' :: rest)) =
      cs ++ '\'' :: '\'' :: '\'' :: '\n' :: rest := by
    refine skipFirstLineEnd_lineStart fun single => ?_
    rcases cs with _ | ⟨c, cs⟩
    · exact ⟨'\'', _, rfl, by decide, by decide⟩
    · rw [List.mem_cons, not_or] at single
      exact ⟨c, _, rfl, Ne.symm single.1, (text c List.mem_cons_self).1⟩
  simp only [List.cons_append, List.append_assoc]
  rw [string?_apostrophes, start, longLiteralBody_append (clear_line (by decide) rest) few text]
  rfl

/-- A string is read back, whatever is in it. -/
theorem string?_stringChars (s : String) (rest : List Char) :
    string? (stringChars s ++ '\n' :: rest) = some (s, '\n' :: rest) := by
  have whole : some (s, '\n' :: rest) = some (String.ofList s.toList, '\n' :: rest) := by
    rw [String.ofList_toList]
  rw [stringChars, whole]
  cases chosen : style s.toList with
  | basic =>
    have read := string?_basic s.toList rest
    simpa only [List.cons_append, List.append_assoc, List.nil_append] using read
  | literal =>
    obtain ⟨plain, single, quotes⟩ := fits_literal chosen
    have text : ∀ c ∈ s.toList, isText c = true := fun c mem =>
      (text_of_needsCodes plain c mem).2.resolve_left fun line => single (line ▸ mem)
    have read := string?_literal quotes text rest
    simpa only [List.cons_append, List.append_assoc, List.nil_append] using read
  | longBasic =>
    have read := string?_longBasic s.toList rest
    simpa only [lineStart, List.cons_append, List.append_assoc, List.nil_append] using read
  | longLiteral =>
    obtain ⟨plain, few⟩ := fits_longLiteral chosen
    have read := string?_longLiteral few (text_of_needsCodes plain) rest
    simpa only [lineStart, List.cons_append, List.append_assoc, List.nil_append] using read

end Preferences.Toml
