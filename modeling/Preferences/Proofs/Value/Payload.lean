import Preferences.Proofs.Json.Skip
import Preferences.Value.Reader

/-!
# Payloads

A payload is read in one of two ways: where its kind is known, by the reader of the kind; where it
comes before its kind, by the reader of any JSON value, which keeps it as a tree until the kind has
been read. Both find the scalar that the text begins with, so they take the same payloads for the
same kinds, from any text and at any depth. Main statements: `payloadOf_eq_ok_iff_read` and
`payloadOf_append_eq_ok_iff`.
-/

namespace Preferences

namespace Json

variable {cs rest : List Char}

/-- A reader that decides by the character in front finds a scalar if it does so behind blanks. -/
lemma beforeValue_bind_eq_ok_iff {α : Type} {reader : Char × List Char → Read α}
    {p : α × List Char} {q : Json × List Char}
    (finds : ∀ c ds, reader (c, ds) = .ok p ↔ scalar? (c :: ds) = some (.ok q)) :
    (beforeValue cs >>= reader) = .ok p ↔ scalar? (skipSpace cs) = some (.ok q) := by
  rw [beforeValue]
  cases skipSpace cs with
  | nil => exact iff_of_false (by intro h; cases h) (by intro h; cases h)
  | cons c ds => exact finds c ds

/-- A number that is read as a word of a width in range is that integer. -/
lemma wordOf_eq_ok_iff {w : Width} {z : Word w} {n : JsonNumber}
    (wide : -0x8000000000000000 ≤ w.lo ∧ w.hi ≤ 0xffffffffffffffff) :
    wordOf w n = .ok z ↔ n = .int (Value.wire z wide) := by
  constructor
  · intro h
    cases n with
    | int i =>
      rw [wordOf] at h
      split at h
      next v found =>
        cases h
        congr 1
        exact Ranged.ext (val_of_ofInt? found).symm
      next => cases h
    | float => cases h
  · rintro rfl
    rw [wordOf, Value.wire, ofInt?_val]

/-! ## Typed readers find a scalar -/

/-- A word is read from the number that is it. -/
lemma word_eq_ok_iff {w : Width} {z : Word w}
    (wide : -0x8000000000000000 ≤ w.lo ∧ w.hi ≤ 0xffffffffffffffff) :
    word w cs = .ok (z, rest) ↔
      scalar? (skipSpace cs) = some (.ok (number (.int (Value.wire z wide)), rest)) := by
  rw [word]
  refine beforeValue_bind_eq_ok_iff fun c ds => ?_
  dsimp only
  by_cases head : c = '-' ∨ c.isDigit = true
  · rw [if_pos head, scalar?_of_head head]
    rcases numberHead (c :: ds) with fault | ⟨n, rest'⟩
    · constructor <;> intro h <;> cases h
    · have fits := wordOf_eq_ok_iff (z := z) (n := n) wide
      rcases held : wordOf w n with cause | z' <;> rw [held] at fits <;>
        simp [Except.map, held, bind, Except.bind, pure, Except.pure, ← fits]
  · rw [if_neg head]
    refine iff_of_false (by intro h; cases h) fun h => head ?_
    cases scalar?_eq_ok h with
    | number read =>
      obtain ⟨text, literal, -, same⟩ := literal_of_numberHead read
      obtain ⟨d, es, rfl, number⟩ := literal.begins
      cases same
      exact number

/-- A flag is read from its name. -/
lemma flag_eq_ok_iff {b : Bool} :
    flag cs = .ok (b, rest) ↔ scalar? (skipSpace cs) = some (.ok (bool b, rest)) := by
  rw [flag]
  refine beforeValue_bind_eq_ok_iff fun c ds => ?_
  dsimp only
  by_cases yes : c = 't'
  · subst yes
    rw [if_pos rfl, scalar?, if_neg (by decide), if_pos rfl]
    rcases literal ['r', 'u', 'e'] ds <;> simp [Except.map, bind, Except.bind, pure, Except.pure]
  by_cases no : c = 'f'
  · subst no
    rw [if_neg yes, if_pos rfl, scalar?, if_neg (by decide), if_neg yes, if_pos rfl]
    rcases literal ['a', 'l', 's', 'e'] ds <;>
      simp [Except.map, bind, Except.bind, pure, Except.pure]
  · rw [if_neg yes, if_neg no]
    refine iff_of_false (by intro h; cases h) fun h => ?_
    cases scalar?_eq_ok h with
    | yes => exact yes rfl
    | no => exact no rfl

/-- A text is read from its string. -/
lemma text_eq_ok_iff {s : String} :
    text cs = .ok (s, rest) ↔ scalar? (skipSpace cs) = some (.ok (string s, rest)) := by
  rw [text, textAs]
  refine beforeValue_bind_eq_ok_iff fun c ds => ?_
  dsimp only
  by_cases quote : c = '"'
  · subst quote
    rw [if_pos rfl, scalar?, if_neg (by decide), if_neg (by decide), if_neg (by decide),
      if_neg (by decide), if_pos rfl]
    rcases stringRest ds <;>
      simp [Except.map, bind, Except.bind, pure, Except.pure, Prod.ext_iff]
  · rw [if_neg quote]
    refine iff_of_false (by intro h; cases h) fun h => ?_
    cases scalar?_eq_ok h with
    | string => exact quote rfl

/-- The reader of any value finds the scalar that a text begins with, at any depth. -/
lemma read_eq_ok_iff_scalar {depth : Nat} {j : Json} (unlisted : ∀ js, j ≠ array js)
    (unmapped : ∀ ms, j ≠ object ms) :
    read depth cs = .ok (j, rest) ↔ scalar? (skipSpace cs) = some (.ok (j, rest)) := by
  -- with lists and objects ruled out, what may be nested plays no part
  have any (inner : Option (List Char → Read Json)) :
      value inner cs = .ok (j, rest) ↔ scalar? (skipSpace cs) = some (.ok (j, rest)) := by
    rw [value]
    refine beforeValue_bind_eq_ok_iff fun c ds => ?_
    dsimp only
    by_cases bracket : c = '['
    · subst bracket
      refine iff_of_false (fun h => ?_) (by intro h; cases h)
      cases inner with
      | none => cases h
      | some reader =>
        dsimp only at h
        rw [if_pos rfl] at h
        rcases read : list reader ds with fault | ⟨js, es⟩ <;> rw [read] at h <;> cases h
        exact unlisted js rfl
    by_cases brace : c = '\x7b'
    · subst brace
      refine iff_of_false (fun h => ?_) (by intro h; cases h)
      cases inner with
      | none => cases h
      | some reader =>
        dsimp only at h
        rw [if_neg bracket, if_pos rfl] at h
        rcases read : objectOf textKey (keepMember reader) [] ds with fault | ⟨ms, es⟩ <;>
          rw [read] at h <;> cases h
        exact unmapped ms rfl
    rw [if_neg bracket, if_neg brace]
    rcases scalar? (c :: ds) with - | result
    · constructor <;> intro h <;> cases h
    · exact Option.some_inj.symm
  cases depth <;> exact any _

end Json

namespace Value

open Json

variable {k : Primitive} {v : Value} {cs rest : List Char}

/-! ## The two ways agree -/

/-- No payload is a list or an object. -/
lemma payload_ne (v : Value) : (∀ js, v.payload ≠ .array js) ∧ ∀ ms, v.payload ≠ .object ms := by
  cases v <;> exact ⟨nofun, nofun⟩

/-- Of what was kept as JSON, a value is made if it is the payload of a value of the kind. -/
lemma ofJson_eq_ok_iff {j : Json} : ofJson k j = .ok v ↔ k = v.kind ∧ j = v.payload := by
  constructor
  · intro h
    cases k with
    | long =>
      cases j with
      | number n =>
        rcases held : wordOf .int64 n with cause | z <;> rw [ofJson, held] at h <;> cases h
        exact ⟨rfl, congrArg _ ((wordOf_eq_ok_iff _).1 held)⟩
      | _ => cases h
    | int =>
      cases j with
      | number n =>
        rcases held : wordOf .int32 n with cause | z <;> rw [ofJson, held] at h <;> cases h
        exact ⟨rfl, congrArg _ ((wordOf_eq_ok_iff _).1 held)⟩
      | _ => cases h
    | bool => cases j <;> cases h; exact ⟨rfl, rfl⟩
    | string => cases j <;> cases h; exact ⟨rfl, rfl⟩
  · rintro ⟨rfl, rfl⟩
    cases v with
    | long n => rw [kind, payload, ofJson, (wordOf_eq_ok_iff _).2 rfl]; rfl
    | int n => rw [kind, payload, ofJson, (wordOf_eq_ok_iff _).2 rfl]; rfl
    | bool | string => rfl

/-- A value is read where what it is made of is. -/
lemma map_value_eq_ok_iff {α : Type} {x : Read α} {f : α → Value} :
    x.map (fun p => (f p.1, p.2)) = .ok (v, rest) ↔ ∃ a, x = .ok (a, rest) ∧ f a = v := by
  rcases x with fault | ⟨a, rest'⟩ <;> simp [Except.map, and_comm]

/-- A payload is read from the scalar that it is written as. -/
lemma payloadOf_eq_ok_iff_scalar :
    payloadOf k cs = .ok (v, rest) ↔
      k = v.kind ∧ scalar? (skipSpace cs) = some (.ok (v.payload, rest)) := by
  cases k <;> simp only [payloadOf, map_value_eq_ok_iff, flag_eq_ok_iff, text_eq_ok_iff,
    word_eq_ok_iff (w := .int64) (by decide), word_eq_ok_iff (w := .int32) (by decide)]
  all_goals
    constructor
    · rintro ⟨a, read, rfl⟩
      exact ⟨rfl, read⟩
    · rintro ⟨same, read⟩
      cases v <;> cases same
      exact ⟨_, read, rfl⟩

/-- The reader of a kind takes what the reader of any JSON value takes for the payload of a value of
the kind. -/
theorem payloadOf_eq_ok_iff_read (depth : Nat) :
    payloadOf k cs = .ok (v, rest) ↔
      ∃ j, Json.read depth cs = .ok (j, rest) ∧ ofJson k j = .ok v := by
  simp only [ofJson_eq_ok_iff]
  rw [payloadOf_eq_ok_iff_scalar, ← read_eq_ok_iff_scalar v.payload_ne.1 v.payload_ne.2]
  constructor
  · rintro ⟨kind, read⟩
    exact ⟨v.payload, read, kind, rfl⟩
  · rintro ⟨_, read, kind, rfl⟩
    exact ⟨kind, read⟩

/-! ## Which payloads are taken -/

/-- A scalar is found in a text of JSON that spells it, and all of the text is read for it. -/
lemma scalar?_append_eq_ok_iff {text rest' : List Char} (valid : Valid .value text)
    (stops : Stops rest) :
    scalar? (text ++ rest) = some (.ok (v.payload, rest')) ↔
      Spells .integral (.value v.payload) text ∧ rest' = rest := by
  constructor
  · intro h
    -- the first character of a value tells its kind, so that the other kinds are out
    cases valid with
    | null => cases v <;> cases h
    | yes | no =>
      cases v <;> cases h
      exact ⟨by constructor, rfl⟩
    | array | object => cases h
    | @string tail quoted =>
      have found : (stringRest (tail ++ rest)).map (fun p => (Json.string p.1, p.2)) =
          .ok (v.payload, rest') := Option.some.inj h
      obtain ⟨⟨s, _⟩, read, same, rfl⟩ := map_eq_ok found
      obtain ⟨spelled, ended⟩ := quoted.stringRest_eq_ok_iff.1 read
      rw [same]
      exact ⟨.string spelled, ended⟩
    | number literal =>
      obtain ⟨c, cs, begins, head⟩ := literal.begins
      have found : (numberHead (text ++ rest)).map (fun p => (Json.number p.1, p.2)) =
          .ok (v.payload, rest') := by
        rw [begins, List.cons_append, scalar?_of_head head] at h
        rw [begins]
        exact Option.some.inj h
      obtain ⟨⟨n, _⟩, read, same, rfl⟩ := map_eq_ok found
      rcases literal.settles with ⟨m, taken⟩ | refused
      · cases read.symm.trans (taken rest stops)
        refine ⟨?_, rfl⟩
        cases v <;> cases same <;>
          exact .number ⟨_, rfl, List.append_cancel_right (intDigits_of_numberHead read)⟩
      · obtain ⟨left, out⟩ := refused rest stops
        cases read.symm.trans out
  · rintro ⟨spelled, rfl⟩
    have flat : v.payload.Fits 0 := by cases v <;> trivial
    have read := ((spelled.taken Style.integral_readable).2 0 [] rest' .nil stops).1 flat
    rw [List.nil_append, read_eq_ok_iff_scalar v.payload_ne.1 v.payload_ne.2] at read
    rwa [← List.nil_append (text ++ rest'), valid.skipSpace_before .nil] at read

/-- A payload is read from a valid text exactly if the text spells it. -/
theorem payloadOf_append_eq_ok_iff {blanks text rest' : List Char} (hb : Blanks blanks)
    (valid : Valid .value text) (stops : Stops rest) :
    payloadOf k (blanks ++ (text ++ rest)) = .ok (v, rest') ↔
      k = v.kind ∧ Spells .integral (.value v.payload) text ∧ rest' = rest := by
  rw [payloadOf_eq_ok_iff_scalar, valid.skipSpace_before hb, scalar?_append_eq_ok_iff valid stops]

end Value

end Preferences
