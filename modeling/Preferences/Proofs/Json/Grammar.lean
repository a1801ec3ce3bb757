import Preferences.Proofs.Json.Tree

/-!
# The grammar of JSON texts

Which texts spell which trees, rule by rule and with no word about readers, and how the reader of
any value does on such texts: it takes a text for the tree that the text spells if it may open as
many brackets as the tree nests, and otherwise refuses it for the bracket that is one too many. Main
statement: `Spells.taken`.
-/

namespace Preferences.Json

/-! ## Strings -/

/-- The hexadecimal digit for a number, in small or in capital letters. -/
def HexDigit (n : Nat) (c : Char) : Prop :=
  n < 16 ∧ (c = Nat.digitChar n ∨ c = (Nat.digitChar n).toUpper)

/-- The escape for a unit of UTF-16. -/
inductive SpellsUnit : Nat → List Char → Prop where
  | intro {a b c d : Nat} {w x y z : Char} : HexDigit a w → HexDigit b x → HexDigit c y →
    HexDigit d z → SpellsUnit (4096 * a + 256 * b + 16 * c + d) ['\\', 'u', w, x, y, z]

/-- The units of UTF-16 for a character: itself, or the two halves of a surrogate pair. -/
def utf16 (c : Char) : List Nat :=
  if c.toNat < 0x10000 then [c.toNat]
  else [0xd800 + (c.toNat - 0x10000) / 1024, 0xdc00 + (c.toNat - 0x10000) % 1024]

/-- The letters that stand for characters after a backslash. -/
def letterEscapes : List (Char × Char) :=
  [('"', '"'), ('\\', '\\'), ('/', '/'), ('b', '\x08'), ('f', '\x0c'), ('n', '\n'), ('r', '\r'),
    ('t', '\t')]

/-- The ways to spell a character inside a string. -/
inductive SpellsChar : Char → List Char → Prop where
  | plain {c : Char} : c ≠ '"' → c ≠ '\\' → 0x20 ≤ c.toNat → SpellsChar c [c]
  | letter {e c : Char} : (e, c) ∈ letterEscapes → SpellsChar c ['\\', e]
  | units {c : Char} {texts : List (List Char)} : List.Forall₂ SpellsUnit (utf16 c) texts →
    SpellsChar c texts.flatten

/-- A string between its quotes. -/
def SpellsString (s : String) (text : List Char) : Prop :=
  ∃ texts, List.Forall₂ SpellsChar s.toList texts ∧ text = '"' :: texts.flatten ++ ['"']

/-! ## Values -/

/-- What may stand in the gaps of a text, and how numbers are spelled. -/
structure Style where
  gap : List Char → Prop
  number : JsonNumber → List Char → Prop

/-- The parts of a text. -/
inductive Phrase where
  | value (j : Json)
  /-- A value between gaps. -/
  | element (j : Json)
  /-- Elements of a list, divided by commas. -/
  | elements (js : List Json)
  | member (k : String) (j : Json)
  | members (ms : List (String × Json))

/-- The text spells the phrase. -/
inductive Spells (style : Style) : Phrase → List Char → Prop where
  | null : Spells style (.value null) ['n', 'u', 'l', 'l']
  | yes : Spells style (.value (bool true)) ['t', 'r', 'u', 'e']
  | no : Spells style (.value (bool false)) ['f', 'a', 'l', 's', 'e']
  | number {n : JsonNumber} {text : List Char} : style.number n text →
    Spells style (.value (number n)) text
  | string {s : String} {text : List Char} : SpellsString s text →
    Spells style (.value (string s)) text
  | emptyArray {gap : List Char} : style.gap gap →
    Spells style (.value (array [])) ('[' :: gap ++ [']'])
  | array {js : List Json} {text : List Char} : Spells style (.elements js) text →
    Spells style (.value (array js)) ('[' :: text ++ [']'])
  | emptyObject {gap : List Char} : style.gap gap →
    Spells style (.value (object [])) ('\x7b' :: gap ++ ['\x7d'])
  | object {ms : List (String × Json)} {text : List Char} : Spells style (.members ms) text →
    Spells style (.value (object ms)) ('\x7b' :: text ++ ['\x7d'])
  | element {j : Json} {before text after : List Char} : style.gap before →
    Spells style (.value j) text → style.gap after →
    Spells style (.element j) (before ++ text ++ after)
  | lastElement {j : Json} {text : List Char} : Spells style (.element j) text →
    Spells style (.elements [j]) text
  | moreElements {j : Json} {js : List Json} {text texts : List Char} :
    Spells style (.element j) text → Spells style (.elements js) texts →
    Spells style (.elements (j :: js)) (text ++ ',' :: texts)
  | member {k : String} {j : Json} {before key after text : List Char} : style.gap before →
    SpellsString k key → style.gap after → Spells style (.element j) text →
    Spells style (.member k j) (before ++ key ++ after ++ ':' :: text)
  | lastMember {k : String} {j : Json} {text : List Char} : Spells style (.member k j) text →
    Spells style (.members [(k, j)]) text
  | moreMembers {k : String} {j : Json} {ms : List (String × Json)} {text texts : List Char} :
    Spells style (.member k j) text → Spells style (.members ms) texts →
    Spells style (.members ((k, j) :: ms)) (text ++ ',' :: texts)

/-- The reader of numbers takes the text for the number. -/
def TakesNumber (n : JsonNumber) (text : List Char) : Prop :=
  (∃ c cs, text = c :: cs ∧ (c = '-' ∨ c.isDigit = true)) ∧
    ∀ rest, Stops rest → numberHead (text ++ rest) = .ok (n, rest)

/-- Blanks stand in the gaps, and numbers are as the reader takes them. -/
def Style.Readable (style : Style) : Prop :=
  (∀ gap, style.gap gap → Blanks gap) ∧ ∀ n text, style.number n text → TakesNumber n text

/-! ## Strings are read -/

/-- A hexadecimal digit is read as its value, in either case. -/
lemma digit?_of_hexDigit {n : Nat} {c : Char} (h : HexDigit n c) : Hex.digit? c = some n := by
  have small : ∀ n < 16, Hex.digit? (Nat.digitChar n) = some n ∧
      Hex.digit? (Nat.digitChar n).toUpper = some n := by decide
  rcases h with ⟨below, rfl | rfl⟩
  · exact (small n below).1
  · exact (small n below).2

/-- A unit is spelled by four digits that are read as it. -/
lemma hexFour_of_spellsUnit {n : Nat} {text : List Char} (h : SpellsUnit n text) :
    ∃ w x y z, text = ['\\', 'u', w, x, y, z] ∧ hexFour w x y z = some n := by
  obtain ⟨ha, hb, hc, hd⟩ := h
  refine ⟨_, _, _, _, rfl, ?_⟩
  rw [hexFour, digit?_of_hexDigit ha, digit?_of_hexDigit hb, digit?_of_hexDigit hc,
    digit?_of_hexDigit hd]

/-- A short escape is read as its character. -/
lemma shortEscape_of_mem {e c : Char} (h : (e, c) ∈ letterEscapes) : shortEscape e = some c := by
  have all : ∀ p ∈ letterEscapes, shortEscape p.1 = some p.2 := by decide
  exact all (e, c) h

/-- A unit that is no surrogate is read as its character. -/
lemma stringBody_unit {w x y z : Char} {n : Nat} (digits : hexFour w x y z = some n)
    (low : isLowSurrogate n = false) (high : isHighSurrogate n = false) (rest : List Char) :
    stringBody ('\\' :: 'u' :: w :: x :: y :: z :: rest) =
      push (Char.ofNat n) (stringBody rest) := by
  have long : shortEscape 'u' = none := by decide
  rw [stringBody.eq_def]
  dsimp only
  rw [if_neg (by decide), if_pos rfl]
  simp [long, digits, low, high]

/-- Two surrogates, the high one first, are read as one character. -/
lemma stringBody_pair {w x y z o p q r : Char} {n m : Nat} (digits : hexFour w x y z = some n)
    (digits' : hexFour o p q r = some m) (high : isHighSurrogate n = true)
    (low : isLowSurrogate m = true) (rest : List Char) :
    stringBody ('\\' :: 'u' :: w :: x :: y :: z :: '\\' :: 'u' :: o :: p :: q :: r :: rest) =
      push (joinSurrogates n m) (stringBody rest) := by
  have long : shortEscape 'u' = none := by decide
  have first : isLowSurrogate n = false := by
    simp only [isHighSurrogate, isLowSurrogate, Bool.and_eq_true, Bool.and_eq_false_iff,
      decide_eq_true_eq, decide_eq_false_iff_not] at high ⊢
    omega
  rw [stringBody.eq_def]
  dsimp only
  rw [if_neg (by decide), if_pos rfl]
  simp [long, digits, digits', first, high, low]

/-- No character is half of a surrogate pair. -/
lemma not_surrogate (c : Char) :
    isLowSurrogate c.toNat = false ∧ isHighSurrogate c.toNat = false := by
  have valid : c.toNat < 0xd800 ∨ 0xdfff < c.toNat ∧ c.toNat < 0x110000 := c.valid
  simp only [isLowSurrogate, isHighSurrogate, Bool.and_eq_false_iff, decide_eq_false_iff_not]
  omega

/-- Every spelling of a character is read as it. -/
lemma stringBody_spellsChar {c : Char} {text : List Char} (h : SpellsChar c text)
    (rest : List Char) : stringBody (text ++ rest) = push c (stringBody rest) := by
  cases h with
  | plain quote backslash printable =>
    exact stringBody_plain quote backslash (Nat.not_lt.2 printable) rest
  | letter listed => exact stringBody_short (shortEscape_of_mem listed) rest
  | @units _ texts units =>
    have bound : c.toNat < 0x110000 := by
      have valid : c.toNat < 0xd800 ∨ 0xdfff < c.toNat ∧ c.toNat < 0x110000 := c.valid
      omega
    rw [utf16] at units
    -- one code unit, or a pair of them
    split at units
    next =>
      obtain ⟨_, _, unit, none, rfl⟩ := List.forall₂_cons_left_iff.1 units
      cases none
      obtain ⟨w, x, y, z, rfl, digits⟩ := hexFour_of_spellsUnit unit
      have read := stringBody_unit digits (not_surrogate c).1 (not_surrogate c).2 rest
      rw [Char.ofNat_toNat] at read
      exact read
    next wide =>
      obtain ⟨_, _, first, others, rfl⟩ := List.forall₂_cons_left_iff.1 units
      obtain ⟨_, _, second, none, rfl⟩ := List.forall₂_cons_left_iff.1 others
      cases none
      obtain ⟨w, x, y, z, rfl, digits⟩ := hexFour_of_spellsUnit first
      obtain ⟨o, p, q, r, rfl, digits'⟩ := hexFour_of_spellsUnit second
      have joined : joinSurrogates (0xd800 + (c.toNat - 0x10000) / 1024)
          (0xdc00 + (c.toNat - 0x10000) % 1024) = c := by
        have sum : 0x10000 + (0xd800 + (c.toNat - 0x10000) / 1024 - 0xd800) * 1024 +
            (0xdc00 + (c.toNat - 0x10000) % 1024 - 0xdc00) = c.toNat := by omega
        rw [joinSurrogates, sum, Char.ofNat_toNat]
      have read := stringBody_pair digits digits'
        (by simp only [isHighSurrogate, Bool.and_eq_true, decide_eq_true_eq]; omega)
        (by simp only [isLowSurrogate, Bool.and_eq_true, decide_eq_true_eq]; omega) rest
      rw [joined] at read
      exact read

/-- Every spelling of a string is read as it. -/
lemma stringRest_spellsString {s : String} {text : List Char} (h : SpellsString s text)
    (rest : List Char) :
    ∃ body, text ++ rest = '"' :: body ∧ stringRest body = .ok (s, rest) := by
  obtain ⟨texts, chars, rfl⟩ := h
  refine ⟨texts.flatten ++ '"' :: rest, by simp, ?_⟩
  have read : stringBody (texts.flatten ++ '"' :: rest) = .ok (s.toList, rest) := by
    generalize s.toList = cs at chars
    induction chars with
    | nil => exact stringBody_quote rest
    | cons char _ ih =>
      rw [List.flatten_cons, List.append_assoc, stringBody_spellsChar char, ih]
      rfl
  rw [stringRest, read]
  simp [Except.map]

/-! ## Values are read -/

/-- A reader gives a value and the rest where all that it reads nests no deeper than allowed, and
otherwise stops for a bracket that is one too many. -/
def Outcome {α : Type} (fits : Prop) (a : α) (rest : List Char) (x : Read α) : Prop :=
  (fits → x = .ok (a, rest)) ∧ (¬fits → ∃ left, x = .error (.placed .recursionLimit left))

/-- What comes of reading depends on what fits, not on how that is said. -/
lemma Outcome.imp {α : Type} {fits fits' : Prop} {a : α} {rest : List Char} {x : Read α}
    (h : Outcome fits a rest x) (same : fits ↔ fits') : Outcome fits' a rest x :=
  ⟨fun f => h.1 (same.2 f), fun f => h.2 fun g => f (same.1 g)⟩

/-- What comes of one reader after another. -/
lemma Outcome.bind {α β : Type} {fits fits' : Prop} {a : α} {b : β} {rest rest' : List Char}
    {x : Read α} {f : α × List Char → Read β} (h : Outcome fits a rest x)
    (next : fits → Outcome fits' b rest' (f (a, rest))) :
    Outcome (fits ∧ fits') b rest' (Except.bind x f) := by
  refine ⟨fun ⟨first, second⟩ => ?_, fun deep => ?_⟩
  · rw [h.1 first]
    exact (next first).1 second
  · by_cases first : fits
    · rw [h.1 first]
      exact (next first).2 fun second => deep ⟨first, second⟩
    · obtain ⟨left, stopped⟩ := h.2 first
      rw [stopped]
      exact ⟨left, rfl⟩

/-- What is made of a value that was read. -/
lemma Outcome.map {α β : Type} {fits : Prop} {a : α} {rest : List Char} {x : Read α} {f : α → β}
    (h : Outcome fits a rest x) :
    Outcome fits (f a) rest (Except.bind x fun p => .ok (f p.1, p.2)) := by
  have whole : Outcome True (f a) rest (.ok (f a, rest)) :=
    ⟨fun _ => rfl, fun no => absurd trivial no⟩
  have mapped : Outcome (fits ∧ True) (f a) rest (Except.bind x fun p => .ok (f p.1, p.2)) :=
    h.bind fun _ => whole
  exact mapped.imp (and_iff_left trivial)

/-- What comes of reading stays, with the bracket behind it closed. -/
lemma Outcome.closing {α : Type} {fits : Prop} {a : α} {rest rest' : List Char} {x : Read α}
    {close : List Char → Option JsonFault × List Char} (h : Outcome fits a rest x)
    (closed : close rest = (none, rest')) : Outcome fits a rest' (closing close x) := by
  refine ⟨fun f => ?_, fun f => ?_⟩
  · rw [h.1 f, Json.closing, closed]
  · obtain ⟨left, stopped⟩ := h.2 f
    rw [stopped]
    exact ⟨left, rfl⟩

/-- How the text of a value is read with `depth` brackets that may be opened. -/
def TakesValue (j : Json) (text : List Char) : Prop :=
  Begins true text ∧ ∀ depth blanks rest, Blanks blanks → Stops rest →
    Outcome (j.Fits depth) j rest (read depth (blanks ++ text ++ rest))

/-- How the text of a phrase is read. A gap may be left after what has been read. -/
def Phrase.Taken : Phrase → List Char → Prop
  | value j, text => TakesValue j text
  | element j, text => ∃ before core after, text = before ++ core ++ after ∧ Blanks before ∧
    Blanks after ∧ TakesValue j core
  | elements js, text => js.length ≤ text.length ∧ ∀ depth fuel first blanks rest,
    js.length < fuel → Blanks blanks →
    Outcome (∀ j ∈ js, j.Fits depth) js (']' :: rest) (items (read depth) fuel first
      (blanks ++ (if first then text else ',' :: text) ++ ']' :: rest))
  | member k j, text => ∃ before key after, Blanks before ∧ Blanks after ∧
    text = before ++ '"' :: key ∧ ∀ depth ms rest, Stops rest →
    ∃ cs, textKey ('"' :: key ++ rest) = .ok (k, cs) ∧ Outcome (j.Fits depth) (ms ++ [(k, j)])
      (after ++ rest) (keepMember (read depth) k ms cs)
  | members ms, text => ms.length ≤ text.length ∧ ∀ depth fuel first blanks done rest,
    ms.length < fuel → Blanks blanks →
    Outcome (∀ m ∈ ms, m.2.Fits depth) (done ++ ms) ('\x7d' :: rest)
      (Json.members textKey (keepMember (read depth)) fuel first done
        (blanks ++ (if first then text else ',' :: text) ++ '\x7d' :: rest))

/-- A value that nests nowhere fits at every depth. -/
lemma outcome_of_flat {j : Json} {rest : List Char} {x : Read Json} {depth : Nat}
    (flat : j.Fits depth) (h : x = .ok (j, rest)) : Outcome (j.Fits depth) j rest x :=
  ⟨fun _ => h, fun deep => absurd flat deep⟩

/-- The reader of any value, on the text of a scalar. -/
lemma takesValue_of_scalar {j : Json} {text : List Char} {c : Char} {cs : List Char}
    (flat : ∀ depth, j.Fits depth) (begins : text = c :: cs) (graphic : isSpace c = false)
    (open_list : c ≠ '[') (open_object : c ≠ '\x7b') (close : c ≠ ']')
    (h : ∀ rest, Stops rest → scalar? (text ++ rest) = some (.ok (j, rest))) :
    TakesValue j text := by
  refine ⟨⟨c, cs, begins, graphic, close, nofun⟩, fun depth blanks rest hb stops => ?_⟩
  refine outcome_of_flat (flat depth) ?_
  cases depth <;>
    exact reads_value_of_scalar begins graphic open_list open_object h blanks rest hb stops

/-- A number is read as a value. -/
lemma takesValue_number {n : JsonNumber} {text : List Char} (h : TakesNumber n text) :
    TakesValue (number n) text := by
  obtain ⟨⟨c, cs, begins, head⟩, taken⟩ := h
  refine takesValue_of_scalar (fun depth => by cases depth <;> trivial) begins
    (isSpace_of_number head) (ne_of_head head (by decide)) (ne_of_head head (by decide))
    (ne_of_head head (by decide)) fun rest stops => ?_
  have read := taken rest stops
  rw [begins, List.cons_append] at read ⊢
  rw [scalar?_of_head head, read]
  rfl

/-- A string is read as a value. -/
lemma takesValue_string {s : String} {text : List Char} (h : SpellsString s text) :
    TakesValue (string s) text := by
  obtain ⟨texts, chars, begins⟩ := id h
  refine takesValue_of_scalar (c := '"') (fun depth => by cases depth <;> trivial) begins
    (by decide) (by decide) (by decide) (by decide) fun rest _ => ?_
  obtain ⟨body, quote, read⟩ := stringRest_spellsString h rest
  rw [quote]
  show some ((stringRest body).map _) = _
  rw [read]
  rfl

/-! ## Lists are read -/

/-- A bracket ends a list, behind a gap. -/
lemma nextItem_close {blanks : List Char} (hb : Blanks blanks) (first : Bool) (rest : List Char) :
    nextItem first (blanks ++ ']' :: rest) = .ok (false, ']' :: rest) := by
  rw [nextItem, skipSpace_append hb _ (by decide)]
  rfl

/-- In a list a value comes first, or behind a comma. -/
lemma nextItem_value {blanks before core : List Char} (hb : Blanks blanks) (gap : Blanks before)
    (begins : Begins true core) (first : Bool) (tail : List Char) :
    nextItem first (blanks ++ (if first then [] else [',']) ++ (before ++ core ++ tail)) =
      .ok (true, core ++ tail) := by
  obtain ⟨c, cs, rfl, graphic, bracket, -⟩ := begins
  have text : before ++ (c :: cs) ++ tail = before ++ c :: (cs ++ tail) := by simp
  rw [text, List.append_assoc]
  cases first with
  | true =>
    have all : Blanks (blanks ++ before) := fun d there =>
      (List.mem_append.1 there).elim (hb d) (gap d)
    rw [if_pos rfl, List.nil_append, ← List.append_assoc, nextItem, skipSpace_append all _ graphic]
    simp [bracket]
  | false =>
    rw [if_neg (by decide), List.singleton_append, nextItem, skipSpace_append hb _ (by decide)]
    simp [skipSpace_append gap _ graphic, bracket]

/-- The loop over the items, from one that stands between gaps on. -/
lemma outcome_items {blanks before core tail rest : List Char} {j : Json} {js : List Json}
    {depth fuel : Nat} {others : Prop} (value : TakesValue j core) (hb : Blanks blanks)
    (gap : Blanks before) (stops : Stops tail)
    (next : Outcome others js rest (items (read depth) fuel false tail)) (first : Bool) :
    Outcome (j.Fits depth ∧ others) (j :: js) rest (items (read depth) (fuel + 1) first
      (blanks ++ (if first then [] else [',']) ++ (before ++ core ++ tail))) := by
  rw [items, nextItem_value hb gap value.1]
  show Outcome _ _ _ (Except.bind (read depth (core ++ tail)) fun p =>
    Except.bind (items (read depth) fuel false p.2) fun q => .ok (p.1 :: q.1, q.2))
  exact (value.2 depth [] tail .nil stops).bind fun _ => next.map

/-- A last element is taken where it is taken by itself. -/
lemma taken_lastElement {j : Json} {text : List Char} (h : Phrase.Taken (.element j) text) :
    Phrase.Taken (.elements [j]) text := by
  obtain ⟨before, core, after, rfl, gap, gap', value⟩ := h
  obtain ⟨c, cs, begins, -⟩ := value.1
  refine ⟨by simp [begins]; omega, fun depth fuel first blanks rest enough hb => ?_⟩
  obtain ⟨fuel, rfl⟩ : ∃ n, fuel = n + 2 := ⟨fuel - 2, by simp at enough; omega⟩
  have closed : Outcome True [] (']' :: rest)
      (items (read depth) (fuel + 1) false (after ++ ']' :: rest)) := by
    rw [items, nextItem_close gap']
    exact ⟨fun _ => rfl, fun no => absurd trivial no⟩
  have whole := outcome_items value hb gap (.append gap' (.cons _ (by decide))) closed first
  cases first <;> simpa using whole

/-- An element and the others behind a comma are taken where each is. -/
lemma taken_moreElements {j : Json} {js : List Json} {text texts : List Char}
    (h : Phrase.Taken (.element j) text) (hs : Phrase.Taken (.elements js) texts) :
    Phrase.Taken (.elements (j :: js)) (text ++ ',' :: texts) := by
  obtain ⟨before, core, after, rfl, gap, gap', value⟩ := h
  obtain ⟨short, others⟩ := hs
  refine ⟨by simp; omega, fun depth fuel first blanks rest enough hb => ?_⟩
  obtain ⟨fuel, rfl⟩ : ∃ n, fuel = n + 1 := ⟨fuel - 1, by simp at enough; omega⟩
  have next := others depth fuel false after rest (by simpa using enough) gap'
  have stops : Stops (after ++ ',' :: texts ++ ']' :: rest) := by
    rw [List.append_assoc]
    exact .append gap' (.cons _ (by decide))
  have whole := outcome_items value hb gap stops next first
  cases first <;> simpa using whole

/-- A list, from the loop over its items. -/
lemma takesValue_array {js : List Json} {text : List Char}
    (h : ∀ depth rest, Outcome (∀ j ∈ js, j.Fits depth) js (']' :: rest)
      (items (read depth) ((text ++ ']' :: rest).length + 1) true (text ++ ']' :: rest))) :
    TakesValue (array js) ('[' :: text ++ [']']) := by
  refine ⟨⟨'[', _, rfl, by decide, by decide, nofun⟩, fun depth blanks rest hb _ => ?_⟩
  have shape : blanks ++ ('[' :: text ++ [']']) ++ rest =
      blanks ++ '[' :: (text ++ ']' :: rest) := by
    simp
  rw [shape]
  cases depth with
  | zero =>
    refine ⟨False.elim, fun _ => ?_⟩
    rw [read, value, beforeValue_append hb _ (by decide)]
    exact ⟨_, rfl⟩
  | succ depth =>
    have closed : closeList (']' :: rest) = (none, rest) := rfl
    have listed := (h depth rest).closing closed
    rw [read, value, beforeValue_append hb _ (by decide)]
    exact listed.map (f := array)

/-! ## Objects are read -/

/-- A brace ends an object, behind a gap. -/
lemma nextMember_close {blanks : List Char} (hb : Blanks blanks) (first : Bool)
    (rest : List Char) :
    nextMember first (blanks ++ '\x7d' :: rest) = .ok (false, '\x7d' :: rest) := by
  rw [nextMember, skipSpace_append hb _ (by decide)]
  rfl

/-- In an object a key comes first, or behind a comma. -/
lemma nextMember_key {blanks before : List Char} (hb : Blanks blanks) (gap : Blanks before)
    (first : Bool) (tail : List Char) :
    nextMember first (blanks ++ (if first then [] else [',']) ++ (before ++ '"' :: tail)) =
      .ok (true, '"' :: tail) := by
  rw [List.append_assoc]
  cases first with
  | true =>
    have all : Blanks (blanks ++ before) := fun d there =>
      (List.mem_append.1 there).elim (hb d) (gap d)
    rw [if_pos rfl, List.nil_append, ← List.append_assoc, nextMember,
      skipSpace_append all _ (by decide)]
    simp
  | false =>
    rw [if_neg (by decide), List.singleton_append, nextMember, skipSpace_append hb _ (by decide)]
    simp [skipSpace_append gap _ (by decide : isSpace '"' = false)]

/-- A member is taken where its value is. -/
lemma taken_member {k : String} {j : Json} {before key after text : List Char}
    (gap : Blanks before) (name : SpellsString k key) (gap' : Blanks after)
    (h : Phrase.Taken (.element j) text) :
    Phrase.Taken (.member k j) (before ++ key ++ after ++ ':' :: text) := by
  obtain ⟨inner, core, outer, rfl, blank, blank', value⟩ := h
  obtain ⟨texts, -, quoted⟩ := id name
  refine ⟨before, texts.flatten ++ ['"'] ++ after ++ ':' :: (inner ++ core ++ outer), outer, gap,
    blank', by simp [quoted], fun depth ms rest stops => ?_⟩
  refine ⟨after ++ ':' :: (inner ++ core ++ outer) ++ rest, ?_, ?_⟩
  · obtain ⟨body, quote, read⟩ :=
      stringRest_spellsString name (after ++ ':' :: (inner ++ core ++ outer) ++ rest)
    rw [quoted, List.cons_append, List.cons_append] at quote
    rw [textKey, List.cons_append, List.tail_cons, ← read, ← List.cons.inj quote |>.2]
    simp
  · have divided : colon (after ++ ':' :: (inner ++ core ++ outer) ++ rest) =
        .ok (inner ++ core ++ (outer ++ rest)) := by
      rw [List.append_assoc, List.cons_append, colon, skipSpace_append gap' _ (by decide)]
      simp
    rw [keepMember, divided]
    exact (value.2 depth inner (outer ++ rest) blank (.append blank' stops)).map
      (f := fun i => ms ++ [(k, i)])

/-- The loop over the members, from one on. -/
lemma outcome_members {k : String} {j : Json} {blanks before key after tail rest : List Char}
    {done ms : List (String × Json)} {depth fuel : Nat} {others : Prop} (hb : Blanks blanks)
    (gap : Blanks before)
    (member : ∃ cs, textKey ('"' :: key ++ tail) = .ok (k, cs) ∧ Outcome (j.Fits depth)
      (done ++ [(k, j)]) (after ++ tail) (keepMember (read depth) k done cs))
    (next : Outcome others (done ++ (k, j) :: ms) rest (members textKey (keepMember (read depth))
      fuel false (done ++ [(k, j)]) (after ++ tail))) (first : Bool) :
    Outcome (j.Fits depth ∧ others) (done ++ (k, j) :: ms) rest
      (members textKey (keepMember (read depth)) (fuel + 1) first done
        (blanks ++ (if first then [] else [',']) ++ (before ++ '"' :: (key ++ tail)))) := by
  obtain ⟨cs, named, kept⟩ := member
  rw [List.cons_append] at named
  rw [members, nextMember_key hb gap]
  show Outcome _ _ _ (Except.bind (textKey ('"' :: (key ++ tail))) fun p =>
    Except.bind (keepMember (read depth) p.1 done p.2) fun q =>
      members textKey (keepMember (read depth)) fuel false q.1 q.2)
  rw [named]
  exact kept.bind fun _ => next

/-- A last member is taken where it is taken by itself. -/
lemma taken_lastMember {k : String} {j : Json} {text : List Char}
    (h : Phrase.Taken (.member k j) text) : Phrase.Taken (.members [(k, j)]) text := by
  obtain ⟨before, key, after, gap, gap', rfl, member⟩ := h
  refine ⟨by simp; omega, fun depth fuel first blanks done rest enough hb => ?_⟩
  obtain ⟨fuel, rfl⟩ : ∃ n, fuel = n + 2 := ⟨fuel - 2, by simp at enough; omega⟩
  have closed : Outcome True (done ++ [(k, j)]) ('\x7d' :: rest) (members textKey
      (keepMember (read depth)) (fuel + 1) false (done ++ [(k, j)]) (after ++ '\x7d' :: rest)) := by
    rw [members, nextMember_close gap']
    exact ⟨fun _ => rfl, fun no => absurd trivial no⟩
  have whole := outcome_members hb gap (member depth done _ (.cons rest (by decide))) closed first
  cases first <;> simpa using whole

/-- A member and the others behind a comma are taken where each is. -/
lemma taken_moreMembers {k : String} {j : Json} {ms : List (String × Json)}
    {text texts : List Char} (h : Phrase.Taken (.member k j) text)
    (hs : Phrase.Taken (.members ms) texts) :
    Phrase.Taken (.members ((k, j) :: ms)) (text ++ ',' :: texts) := by
  obtain ⟨before, key, after, gap, gap', rfl, member⟩ := h
  obtain ⟨short, others⟩ := hs
  refine ⟨by simp; omega, fun depth fuel first blanks done rest enough hb => ?_⟩
  obtain ⟨fuel, rfl⟩ : ∃ n, fuel = n + 1 := ⟨fuel - 1, by simp at enough; omega⟩
  have next := others depth fuel false after (done ++ [(k, j)]) rest (by simpa using enough) gap'
  have whole := outcome_members hb gap
    (member depth done (',' :: texts ++ '\x7d' :: rest) (.cons _ (by decide)))
    (by simpa using next) first
  cases first <;> simpa using whole

/-- An object, from the loop over its members. -/
lemma takesValue_object {ms : List (String × Json)} {text : List Char}
    (h : ∀ depth rest, Outcome (∀ m ∈ ms, m.2.Fits depth) ms ('\x7d' :: rest)
      (members textKey (keepMember (read depth)) ((text ++ '\x7d' :: rest).length + 1) true []
        (text ++ '\x7d' :: rest))) :
    TakesValue (object ms) ('\x7b' :: text ++ ['\x7d']) := by
  refine ⟨⟨'\x7b', _, rfl, by decide, by decide, nofun⟩, fun depth blanks rest hb _ => ?_⟩
  have shape : blanks ++ ('\x7b' :: text ++ ['\x7d']) ++ rest =
      blanks ++ '\x7b' :: (text ++ '\x7d' :: rest) := by
    simp
  rw [shape]
  cases depth with
  | zero =>
    refine ⟨False.elim, fun _ => ?_⟩
    rw [read, value, beforeValue_append hb _ (by decide)]
    exact ⟨_, rfl⟩
  | succ depth =>
    have closed : closeObject ('\x7d' :: rest) = (none, rest) := rfl
    have listed := (h depth rest).closing closed
    rw [read, value, beforeValue_append hb _ (by decide)]
    exact listed.map (f := object)

/-- A text is read as what it spells, up to the limit of brackets. -/
theorem Spells.taken {style : Style} (readable : style.Readable) {p : Phrase} {text : List Char}
    (h : Spells style p text) : p.Taken text := by
  induction h with
  | null | yes | no =>
    exact takesValue_of_scalar (fun depth => by cases depth <;> trivial) rfl (by decide)
      (by decide) (by decide) (by decide) fun _ _ => rfl
  | number spelled => exact takesValue_number (readable.2 _ _ spelled)
  | string spelled => exact takesValue_string spelled
  | emptyArray gap =>
    refine takesValue_array fun depth rest =>
      ⟨fun _ => ?_, fun no => absurd (List.forall_mem_nil _) no⟩
    rw [items, nextItem_close (readable.1 _ gap)]
    rfl
  | array _ ih =>
    refine takesValue_array fun depth rest => ?_
    exact ih.2 depth _ true [] rest (by have := ih.1; simp; omega) .nil
  | emptyObject gap =>
    refine takesValue_object fun depth rest =>
      ⟨fun _ => ?_, fun no => absurd (List.forall_mem_nil _) no⟩
    rw [members, nextMember_close (readable.1 _ gap)]
    rfl
  | object _ ih =>
    refine takesValue_object fun depth rest => ?_
    exact ih.2 depth _ true [] [] rest (by have := ih.1; simp; omega) .nil
  | element before _ after ih =>
    exact ⟨_, _, _, rfl, readable.1 _ before, readable.1 _ after, ih⟩
  | lastElement _ ih => exact taken_lastElement ih
  | moreElements _ _ ih ihs => exact taken_moreElements ih ihs
  | member before name after _ ih =>
    exact taken_member (readable.1 _ before) name (readable.1 _ after) ih
  | lastMember _ ih => exact taken_lastMember ih
  | moreMembers _ _ ih ihs => exact taken_moreMembers ih ihs

/-- A text of one value is read as a whole where the value fits. -/
lemma readWhole_outcome {j : Json} {text : List Char} (h : Phrase.Taken (.element j) text)
    (depth : Nat) : (j.Fits depth → readWhole (read depth) text = .ok j) ∧
      (¬j.Fits depth → ∃ left, readWhole (read depth) text =
        .error (.placed .recursionLimit left)) := by
  obtain ⟨before, core, after, rfl, gap, gap', value⟩ := h
  have stops : Stops after := by
    have ended := Stops.append gap' Stops.nil
    rwa [List.append_nil] at ended
  have read := value.2 depth before after gap stops
  refine ⟨fun fits => ?_, fun deep => ?_⟩
  · have all : skipSpace after = [] := by
      rw [skipSpace, ← List.append_nil after, List.dropWhile_append_of_pos gap', List.dropWhile_nil]
    rw [readWhole, read.1 fits]
    simp only [bind, Except.bind, all]
    rfl
  · obtain ⟨left, stopped⟩ := read.2 deep
    rw [readWhole, stopped]
    exact ⟨left, rfl⟩

end Preferences.Json
