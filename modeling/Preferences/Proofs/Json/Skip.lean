import Preferences.Json.Skip
import Preferences.Proofs.Json.Accepted

/-!
# Values are passed over

Which texts are JSON values at all, whether or not a reader has a tree for them: a string may hold
half of a surrogate pair, a number may be out of every range, and brackets may nest at will. Where
no value is wanted every such text is passed over, and no more than it; so what is passed over is
told by where it begins. Main statements: `Valid.skipped` and `StringTail.stringRest_eq_ok_iff`.
-/

namespace Preferences.Json

open JsonFault

/-! ## The grammar -/

/-- What may stand behind the opening quote of a string, up to and with the closing one. -/
inductive StringTail : List Char → Prop where
  | close : StringTail ['"']
  | plain {c : Char} {cs : List Char} : c ≠ '"' → c ≠ '\\' → 0x20 ≤ c.toNat → StringTail cs →
    StringTail (c :: cs)
  | letter {e c : Char} {cs : List Char} : (e, c) ∈ letterEscapes → StringTail cs →
    StringTail ('\\' :: e :: cs)
  | unit {n : Nat} {text cs : List Char} : SpellsUnit n text → StringTail cs →
    StringTail (text ++ cs)

/-- A member of an object as it is written: its key in quotes, and its value. -/
structure MemberText where
  key : List Char
  value : List Char

/-- The parts of a text. What is left of a list or an object, from its beginning or from behind an
item or a member on, goes up to and with the closing bracket. -/
inductive Part where
  | value
  | items (first : Bool)
  | members (first : Bool) (ms : List MemberText)

/-- The text is such a part. -/
inductive Valid : Part → List Char → Prop where
  | null : Valid .value ['n', 'u', 'l', 'l']
  | yes : Valid .value ['t', 'r', 'u', 'e']
  | no : Valid .value ['f', 'a', 'l', 's', 'e']
  | number {text : List Char} : NumberLiteral text → Valid .value text
  | string {tail : List Char} : StringTail tail → Valid .value ('"' :: tail)
  | array {text : List Char} : Valid (.items true) text → Valid .value ('[' :: text)
  | object {ms : List MemberText} {text : List Char} : Valid (.members true ms) text →
    Valid .value ('\x7b' :: text)
  | closeArray {first : Bool} {gap : List Char} : Blanks gap → Valid (.items first) (gap ++ [']'])
  | item {first : Bool} {lead gap text others : List Char} : Lead first lead → Blanks gap →
    Valid .value text → Valid (.items false) others →
    Valid (.items first) (lead ++ gap ++ (text ++ others))
  | closeObject {first : Bool} {gap : List Char} : Blanks gap →
    Valid (.members first []) (gap ++ ['\x7d'])
  | member {first : Bool} {lead gap tail after inner text others : List Char}
    {ms : List MemberText} : Lead first lead → Blanks gap → StringTail tail → Blanks after →
    Blanks inner → Valid .value text → Valid (.members false ms) others →
    Valid (.members first (⟨'"' :: tail, text⟩ :: ms))
      (lead ++ gap ++ '"' :: (tail ++ (after ++ ':' :: (inner ++ (text ++ others)))))

/-! ## Strings -/

/-- Units are part of what is left of a string. -/
lemma StringTail.of_units {ns : List Nat} {texts : List (List Char)} {tail : List Char}
    (units : List.Forall₂ SpellsUnit ns texts) (h : StringTail tail) :
    StringTail (texts.flatten ++ tail) := by
  induction units with
  | nil => exact h
  | cons unit _ ih =>
    rw [List.flatten_cons, List.append_assoc]
    exact .unit unit ih

/-- A character, however it is spelled, is part of what is left of a string. -/
lemma StringTail.of_char {c : Char} {text tail : List Char} (char : SpellsChar c text)
    (h : StringTail tail) : StringTail (text ++ tail) := by
  cases char with
  | plain quote backslash printable => exact .plain quote backslash printable h
  | letter listed => exact .letter listed h
  | units spelled => exact .of_units spelled h

/-- The text of a string is one of the grammar. -/
lemma SpellsString.tail {s : String} {text : List Char} (h : SpellsString s text) :
    ∃ tail, StringTail tail ∧ text = '"' :: tail := by
  obtain ⟨texts, chars, rfl⟩ := h
  refine ⟨texts.flatten ++ ['"'], ?_, rfl⟩
  generalize s.toList = cs at chars
  induction chars with
  | nil => exact .close
  | cons char _ ih =>
    rw [List.flatten_cons, List.append_assoc]
    exact .of_char char ih

namespace StringTail

variable {tail : List Char}

/-- A string is passed over up to its closing quote. -/
lemma skipped (h : StringTail tail) (rest : List Char) : skipString (tail ++ rest) = .ok rest := by
  induction h with
  | close =>
    rw [List.singleton_append, skipString.eq_def]
    exact if_pos rfl
  | plain quote backslash printable _ ih =>
    rw [List.cons_append, skipString.eq_def]
    dsimp only
    rw [if_neg quote, if_neg backslash, if_neg (Nat.not_lt.2 printable), ih]
  | letter listed _ ih =>
    rw [List.cons_append, List.cons_append, skipString.eq_def]
    dsimp only
    rw [if_neg (by decide), if_pos rfl, shortEscape_of_mem listed, Option.isSome_some, if_pos rfl,
      ih]
  | unit spelled _ ih =>
    have long : (shortEscape 'u').isSome = false := by decide
    obtain ⟨w, x, y, z, rfl, digits⟩ := hexFour_of_spellsUnit spelled
    rw [List.append_assoc]
    show skipString ('\\' :: 'u' :: w :: x :: y :: z :: (_ ++ rest)) = _
    rw [skipString.eq_def]
    dsimp only
    rw [if_neg (by decide), if_pos rfl]
    simp only [long, Bool.false_eq_true, if_false, if_true, digits, Option.isSome_some, ih]

/-- Where a string begins tells where it ends. -/
lemma unique {tail' rest rest' : List Char} (h : StringTail tail) (h' : StringTail tail')
    (same : tail ++ rest = tail' ++ rest') : tail = tail' ∧ rest = rest' := by
  have passed := h.skipped rest
  rw [same, h'.skipped] at passed
  obtain rfl : rest' = rest := Except.ok.inj passed
  exact ⟨List.append_cancel_right same, rfl⟩

/-- A string of the grammar is read as what it spells, if it spells anything. -/
theorem stringRest_eq_ok_iff (h : StringTail tail) {s : String} {rest rest' : List Char} :
    stringRest (tail ++ rest) = .ok (s, rest') ↔ SpellsString s ('"' :: tail) ∧ rest' = rest := by
  constructor
  · intro read
    obtain ⟨text, spelled, same⟩ := spellsString_of_stringRest read
    obtain ⟨tail', valid, rfl⟩ := spelled.tail
    obtain ⟨rfl, rfl⟩ := h.unique valid (List.cons.inj same).2
    exact ⟨spelled, rfl⟩
  · rintro ⟨spelled, rfl⟩
    obtain ⟨body, quote, read⟩ := stringRest_spellsString spelled rest'
    obtain rfl : tail ++ rest' = body := (List.cons.inj quote).2
    exact read

end StringTail

/-! ## Numbers -/

section Numbers

variable {whole fraction ex ds rest : List Char}

/-- The digits of an exponent are skipped, with their sign. -/
lemma skipExponent_signed {sign : List Char} (signed : sign = [] ∨ sign = ['+'] ∨ sign = ['-'])
    (digits : SomeDigits ds) (foreign : Foreign rest) :
    skipExponent (sign ++ (ds ++ rest)) = .ok rest := by
  obtain ⟨c, cs, rfl⟩ := List.exists_cons_of_ne_nil digits.1
  obtain ⟨digit, others⟩ := List.forall_mem_cons.1 digits.2
  have passed : (if c.isDigit then .ok ((cs ++ rest).dropWhile Char.isDigit)
      else .error (ahead .invalidNumber (c :: (cs ++ rest)))) = Except.ok rest := by
    rw [if_pos digit, (takeWhile_digits others foreign).2]
  rcases signed with rfl | rfl | rfl
  · rw [List.nil_append, List.cons_append, skipExponent.eq_def]
    split
    next same => cases same; cases digit
    next same => cases same; cases digit
    next => exact passed
  · exact passed
  · exact passed

/-- An exponent is skipped, if there is one. -/
lemma skipExponent?_spelled (h : SpellsExponent ex) (stops : Stops rest) :
    skipExponent? (ex ++ rest) = .ok rest := by
  cases h with
  | none =>
    cases rest with
    | nil => rfl
    | cons c cs =>
      obtain ⟨-, -, lower, upper⟩ := stops c cs rfl
      exact if_neg (not_or.2 ⟨lower, upper⟩)
  | @some mark sign ds marks signed digits =>
    rw [List.cons_append, List.append_assoc, skipExponent?, if_pos marks]
    exact skipExponent_signed signed digits stops.foreign

/-- A fraction is skipped, and an exponent behind it. -/
lemma skipFraction_spelled (h : SpellsFraction fraction) (exponential : SpellsExponent ex)
    (stops : Stops rest) : skipFraction (fraction ++ (ex ++ rest)) = .ok rest := by
  cases h with
  | none =>
    have pointless : ∀ cs, ex ++ rest ≠ '.' :: cs := by
      intro cs same
      cases exponential with
      | none => exact (stops '.' cs same).2.1 rfl
      | some marks =>
        cases same
        rcases marks with mark | mark <;> cases mark
    rw [List.nil_append, skipFraction.eq_def]
    split
    next same => exact absurd same (pointless _)
    next => exact skipExponent?_spelled exponential stops
  | some digits =>
    obtain ⟨c, cs, rfl⟩ := List.exists_cons_of_ne_nil digits.1
    obtain ⟨digit, others⟩ := List.forall_mem_cons.1 digits.2
    have foreign := foreign_append exponential.foreign stops.foreign
    rw [List.cons_append, List.cons_append, skipFraction, if_pos digit,
      (takeWhile_digits others foreign).2]
    exact skipExponent?_spelled exponential stops

/-- A number is skipped from its digits on. -/
lemma skipNumber_spelled (h : SpellsWhole whole) (fractional : SpellsFraction fraction)
    (exponential : SpellsExponent ex) (stops : Stops rest) :
    skipNumber (whole ++ (fraction ++ (ex ++ rest))) = .ok rest := by
  obtain ⟨⟨some, digits⟩, zero⟩ := h
  have foreign : Foreign (fraction ++ (ex ++ rest)) :=
    foreign_append fractional.foreign (foreign_append exponential.foreign stops.foreign)
  have passed := skipFraction_spelled fractional exponential stops
  obtain ⟨c, cs, rfl⟩ := List.exists_cons_of_ne_nil some
  by_cases leading : c = '0'
  · subst leading
    obtain rfl : cs = [] := (List.cons.inj (zero rfl)).2
    rw [List.singleton_append, skipNumber.eq_def]
    dsimp only
    rw [if_pos rfl]
    split
    next same => rw [foreign _ _ same]; exact passed
    next same => rw [same] at passed; exact passed
  · obtain ⟨digit, others⟩ := List.forall_mem_cons.1 digits
    rw [List.cons_append, skipNumber.eq_def]
    dsimp only
    rw [if_neg leading, if_pos digit, (takeWhile_digits others foreign).2, passed]

end Numbers

/-! ## Values -/

/-- A number begins with a hyphen or a digit. -/
lemma NumberLiteral.begins {text : List Char} (h : NumberLiteral text) :
    ∃ c cs, text = c :: cs ∧ (c = '-' ∨ c.isDigit = true) := by
  obtain ⟨rfl | rfl, ⟨⟨some, digits⟩, -⟩, -, -⟩ := h
  · obtain ⟨c, cs, rfl⟩ := List.exists_cons_of_ne_nil some
    exact ⟨c, _, rfl, .inr (digits c List.mem_cons_self)⟩
  · exact ⟨'-', _, rfl, .inl rfl⟩

/-- The digits of an integer are a literal. -/
lemma numberLiteral_intDigits (z : WireInt) : NumberLiteral (intDigits z.val) := by
  obtain ⟨text, literal, -, same⟩ := literal_of_numberHead (numberHead_intDigits z .nil)
  rwa [List.append_cancel_right same]

/-- A string that spells something is valid. -/
lemma SpellsString.valid {s : String} {text : List Char} (h : SpellsString s text) :
    Valid .value text := by
  obtain ⟨tail, quoted, rfl⟩ := h.tail
  exact .string quoted

/-- A valid value begins with no blank, comma or bracket that would end a list. -/
lemma Valid.begins {text : List Char} (h : Valid .value text) : Begins true text := by
  cases h with
  | null | yes | no | string | array | object =>
    exact ⟨_, _, rfl, by decide, by decide, nofun⟩
  | number literal =>
    obtain ⟨c, cs, rfl, head⟩ := literal.begins
    exact ⟨c, cs, rfl, isSpace_of_number head, ne_of_head head (by decide), nofun⟩

/-- Blanks before a valid value are skipped. -/
lemma Valid.skipSpace_before {blanks text : List Char} (h : Valid .value text)
    (hb : Blanks blanks) (rest : List Char) :
    skipSpace (blanks ++ (text ++ rest)) = text ++ rest := by
  obtain ⟨c, cs, rfl, graphic, -⟩ := h.begins
  rw [List.cons_append, Json.skipSpace_append hb _ graphic]

/-- A number ends before what stands behind an item. -/
lemma Valid.stops_items {text : List Char} (h : Valid (.items false) text) (rest : List Char) :
    Stops (text ++ rest) := by
  cases h with
  | closeArray gap =>
    rw [List.append_assoc]
    exact .append gap (.cons _ (by decide))
  | item lead =>
    cases lead with
    | comma gap =>
      simp only [List.append_assoc]
      exact .append gap (.cons _ (by decide))

/-- A number ends before what stands behind a member. -/
lemma Valid.stops_members {ms : List MemberText} {text : List Char}
    (h : Valid (.members false ms) text) (rest : List Char) : Stops (text ++ rest) := by
  cases h with
  | closeObject gap =>
    rw [List.append_assoc]
    exact .append gap (.cons _ (by decide))
  | member lead =>
    cases lead with
    | comma gap =>
      simp only [List.append_assoc]
      exact .append gap (.cons _ (by decide))

/-! ## Values are passed over -/

/-- How a part of a text is passed over, with fuel for every bracket in it. -/
def Part.Skipped : Part → List Char → Prop
  | value, text => ∀ fuel blanks rest, text.length < fuel → Blanks blanks →
      (NumberLiteral text → Stops rest) → skipValue fuel (blanks ++ (text ++ rest)) = .ok rest
  | items first, text => ∀ depth fuel rest, text.length < depth → text.length < fuel →
      skipItems (skipValue depth) fuel first (text ++ rest) = .ok rest
  | members first _, text => ∀ depth fuel rest, text.length < depth → text.length < fuel →
      skipMembers (skipValue depth) fuel first (text ++ rest) = .ok rest

/-- A number is skipped as a value. -/
lemma skipped_number {text : List Char} (h : NumberLiteral text) : Part.value.Skipped text := by
  intro fuel blanks rest enough hb stops
  obtain ⟨fuel, rfl⟩ : ∃ n, fuel = n + 1 := ⟨fuel - 1, by omega⟩
  have ended := stops h
  obtain ⟨signed, digits, fractional, exponential⟩ := h
  have passed := skipNumber_spelled digits fractional exponential ended
  rcases signed with rfl | rfl
  · obtain ⟨c, cs, rfl⟩ := List.exists_cons_of_ne_nil digits.1.1
    have digit : c.isDigit = true := digits.1.2 c List.mem_cons_self
    have ne {d : Char} := ne_of_head (d := d) (.inr digit)
    have unsigned : c ≠ '-' := by
      rintro rfl
      cases digit
    simp only [List.nil_append, List.append_assoc, List.cons_append] at passed ⊢
    rw [skipValue, beforeValue_append hb _ (isSpace_of_number (.inr digit))]
    simp only [bind, Except.bind]
    rw [if_neg (ne (by decide)), if_neg (ne (by decide)), if_neg (ne (by decide)), if_neg unsigned,
      if_pos digit, passed]
  · simp only [List.append_assoc, List.cons_append, List.nil_append] at passed ⊢
    rw [skipValue, beforeValue_append hb _ (by decide)]
    exact passed

/-- An item is skipped, and the others behind it. -/
lemma skipped_item {first : Bool} {lead gap text others : List Char} (led : Lead first lead)
    (blank : Blanks gap) (valid : Valid .value text) (behind : Valid (.items false) others)
    (h : Part.value.Skipped text) (hs : (Part.items false).Skipped others) :
    (Part.items first).Skipped (lead ++ gap ++ (text ++ others)) := by
  intro depth fuel rest deep enough
  obtain ⟨fuel, rfl⟩ : ∃ n, fuel = n + 1 := ⟨fuel - 1, by omega⟩
  obtain ⟨c, cs, begins, graphic, bracket, -⟩ := valid.begins
  have short : text.length < depth ∧ others.length < depth ∧ others.length < fuel := by
    simp only [List.length_append, begins, List.length_cons] at deep enough ⊢
    omega
  have stops := behind.stops_items rest
  have tail := hs depth fuel rest short.2.1 short.2.2
  cases led with
  | first =>
    have item := h depth [] (others ++ rest) short.1 .nil fun _ => stops
    simp only [begins, List.nil_append, List.append_assoc, List.cons_append] at item ⊢
    rw [skipItems, skipSpace_append blank _ graphic]
    dsimp only
    rw [if_neg bracket, if_pos rfl, item]
    exact tail
  | comma blank' =>
    have item := h depth gap (others ++ rest) short.1 blank fun _ => stops
    simp only [List.append_assoc, List.cons_append, List.nil_append] at item ⊢
    rw [skipItems, skipSpace_append blank' _ (by decide)]
    dsimp only
    rw [if_neg (by decide), if_neg (by decide), if_pos rfl, item]
    exact tail

/-- A member is skipped, and the others behind it. -/
lemma skipped_member {first : Bool} {lead gap key after inner text others : List Char}
    {ms : List MemberText} (led : Lead first lead) (blank : Blanks gap) (quoted : StringTail key)
    (blank_after : Blanks after) (blank_inner : Blanks inner)
    (behind : Valid (.members false ms) others) (h : Part.value.Skipped text)
    (hs : (Part.members false ms).Skipped others) :
    (Part.members first (⟨'"' :: key, text⟩ :: ms)).Skipped
      (lead ++ gap ++ '"' :: (key ++ (after ++ ':' :: (inner ++ (text ++ others))))) := by
  intro depth fuel rest deep enough
  obtain ⟨fuel, rfl⟩ : ∃ n, fuel = n + 1 := ⟨fuel - 1, by omega⟩
  have short : text.length < depth ∧ others.length < depth ∧ others.length < fuel := by
    simp only [List.length_append, List.length_cons] at deep enough
    omega
  have tail := hs depth fuel rest short.2.1 short.2.2
  have item := h depth inner (others ++ rest) short.1 blank_inner fun _ => behind.stops_members rest
  -- the key is passed over, then the colon, then the value
  have passed (before : List Char) (blank : Blanks before) : skipMember (skipValue depth)
      (before ++ '"' :: (key ++ (after ++ ':' :: (inner ++ (text ++ (others ++ rest)))))) =
        .ok (others ++ rest) := by
    rw [skipMember, skipSpace_append blank _ (by decide)]
    dsimp only
    rw [if_pos rfl, quoted.skipped]
    show (colon (after ++ ':' :: (inner ++ (text ++ (others ++ rest))))).bind _ = _
    rw [colon, skipSpace_append blank_after _ (by decide)]
    exact item
  cases led with
  | first =>
    simp only [List.nil_append, List.append_assoc, List.cons_append]
    rw [skipMembers, skipSpace_append blank _ (by decide)]
    dsimp only
    rw [if_neg (by decide), if_pos rfl, ← List.nil_append ('"' :: _), passed [] .nil]
    exact tail
  | comma blank' =>
    simp only [List.append_assoc, List.cons_append, List.nil_append]
    rw [skipMembers, skipSpace_append blank' _ (by decide)]
    dsimp only
    rw [if_neg (by decide), if_neg (by decide), if_pos rfl, passed gap blank]
    exact tail

/-- Every part of a text is passed over, whatever stands behind it. -/
theorem Valid.skipped {p : Part} {text : List Char} (h : Valid p text) : p.Skipped text := by
  induction h with
  | null | yes | no =>
    intro fuel blanks rest enough hb _
    obtain ⟨fuel, rfl⟩ : ∃ n, fuel = n + 1 := ⟨fuel - 1, by omega⟩
    rw [List.cons_append, skipValue, beforeValue_append hb _ (by decide)]
    rfl
  | number literal => exact skipped_number literal
  | string quoted =>
    intro fuel blanks rest enough hb _
    obtain ⟨fuel, rfl⟩ : ∃ n, fuel = n + 1 := ⟨fuel - 1, by omega⟩
    rw [List.cons_append, skipValue, beforeValue_append hb _ (by decide)]
    exact quoted.skipped rest
  | array _ ih | object _ ih =>
    intro fuel blanks rest enough hb _
    obtain ⟨fuel, rfl⟩ : ∃ n, fuel = n + 1 := ⟨fuel - 1, by omega⟩
    rw [List.cons_append, skipValue, beforeValue_append hb _ (by decide)]
    -- the parts have one bracket less of fuel, and are shorter by as much
    exact ih fuel _ rest (Nat.lt_of_succ_lt_succ enough) (by rw [List.length_append]; omega)
  | closeArray blank =>
    intro depth fuel rest _ enough
    obtain ⟨fuel, rfl⟩ : ∃ n, fuel = n + 1 := ⟨fuel - 1, by omega⟩
    rw [List.append_assoc, List.singleton_append, skipItems, skipSpace_append blank _ (by decide)]
    rfl
  | item led blank valid behind ih ihs => exact skipped_item led blank valid behind ih ihs
  | closeObject blank =>
    intro depth fuel rest _ enough
    obtain ⟨fuel, rfl⟩ : ∃ n, fuel = n + 1 := ⟨fuel - 1, by omega⟩
    rw [List.append_assoc, List.singleton_append, skipMembers, skipSpace_append blank _ (by decide)]
    rfl
  | member led blank quoted after inner _ behind ih ihs =>
    exact skipped_member led blank quoted after inner behind ih ihs

/-- A value that nobody asked for is passed over. -/
lemma skip_append {blanks text : List Char} (hb : Blanks blanks) (h : Valid .value text)
    {rest : List Char} (stops : Stops rest) : skip (blanks ++ (text ++ rest)) = .ok rest :=
  h.skipped _ blanks rest (by simp only [List.length_append]; omega) hb fun _ => stops

/-! ## Members -/

/-- A gap before a colon is skipped. -/
lemma colon_append {after : List Char} (blank : Blanks after) (cs : List Char) :
    colon (after ++ ':' :: cs) = .ok cs := by
  rw [colon, skipSpace_append blank _ (by decide)]
  rfl

/-- A lead to a further member, or none to the first one, is passed up to the quote of its key. -/
lemma nextMember_lead {first : Bool} {lead gap : List Char} (led : Lead first lead)
    (blank : Blanks gap) (cs : List Char) :
    nextMember first (lead ++ gap ++ '"' :: cs) = .ok (true, '"' :: cs) := by
  cases led with
  | first =>
    have next := nextMember_key .nil blank true cs
    simpa using next
  | comma blank' =>
    have next := nextMember_key blank' blank false cs
    simpa using next

/-- How the first of the members stands in what is left of an object: its key behind a quote, the
gaps before and behind its colon, and what is left behind it. -/
structure Heads (first : Bool) (m : MemberText) (ms : List MemberText)
    (text tail after inner others : List Char) : Prop where
  key : m.key = '"' :: tail
  quoted : StringTail tail
  before_colon : Blanks after
  behind_colon : Blanks inner
  value : Valid .value m.value
  behind : Valid (.members false ms) others
  short : others.length < text.length
  next : ∀ rest, nextMember first (text ++ rest) =
    .ok (true, '"' :: (tail ++ (after ++ ':' :: (inner ++ (m.value ++ (others ++ rest))))))

/-- A valid text with a member begins with that one. -/
lemma heads_of_valid {first : Bool} {m : MemberText} {ms : List MemberText} {text : List Char}
    (valid : Valid (.members first (m :: ms)) text) :
    ∃ tail after inner others, Heads first m ms text tail after inner others := by
  cases valid with
  | @member _ lead gap tail after inner value others _ led blank quoted blank' blank'' valid
      behind =>
    refine ⟨tail, after, inner, others, rfl, quoted, blank', blank'', valid, behind, ?_, ?_⟩
    · simp only [List.length_append, List.length_cons]
      omega
    · intro rest
      have next := nextMember_lead led blank
        (tail ++ (after ++ ':' :: (inner ++ (value ++ (others ++ rest)))))
      simpa only [List.append_assoc, List.cons_append] using next

end Preferences.Json
