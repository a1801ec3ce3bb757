import Preferences.Proofs.Toml.Strings
import Preferences.Toml.Reader

/-!
# Documents of one line for each key

A document that gives each of some keys a text, on a line of its own, is read as just these keys
with these texts: one lemma for what the reader does with a line, then an induction on the lines.
The keys need no quotes and no two of them are the same. Main statement: `parse_lines`.
-/

namespace Preferences.Toml

variable {k : String} {c : Char} {cs rest : List Char} {es : Entries}

/-- Can the key be written without quotes? -/
def Bare (k : String) : Prop := k.toList ≠ [] ∧ k.toList.all isKeyChar = true

instance : DecidablePred Bare := fun k =>
  inferInstanceAs (Decidable (k.toList ≠ [] ∧ k.toList.all isKeyChar = true))

/-- A character of a bare key is none of those that a bare key does not have. -/
lemma ne_of_isKeyChar {d : Char} (key : isKeyChar c = true) (other : isKeyChar d = false) :
    c ≠ d := by
  rintro rfl
  cases key.symm.trans other

/-- A bare key has key characters only. -/
lemma Bare.chars (bare : Bare k) : ∀ c ∈ k.toList, isKeyChar c = true := List.all_eq_true.1 bare.2

/-- A bare key begins with one of its characters. -/
lemma Bare.head (bare : Bare k) : ∃ c cs, k.toList = c :: cs ∧ isKeyChar c = true := by
  obtain ⟨c, cs, e⟩ := List.exists_cons_of_ne_nil bare.1
  exact ⟨c, cs, e, bare.chars c (e ▸ List.mem_cons_self)⟩

/-! ## One line -/

/-- A bare key is read up to the blank behind it. -/
lemma keyPart?_bare (bare : Bare k) (rest : List Char) :
    keyPart? (k.toList ++ ' ' :: rest) = some (k, ' ' :: rest) := by
  have blank : isKeyChar ' ' = false := by decide
  have word : (k.toList ++ ' ' :: rest).takeWhile isKeyChar = k.toList := by
    rw [List.takeWhile_append_of_pos bare.chars, List.takeWhile_cons, blank]
    simp only [Bool.false_eq_true, if_false, List.append_nil]
  have behind : (k.toList ++ ' ' :: rest).dropWhile isKeyChar = ' ' :: rest := by
    rw [List.dropWhile_append_of_pos bare.chars, List.dropWhile_cons, blank]
    simp only [Bool.false_eq_true, if_false]
  obtain ⟨c, cs, e, key⟩ := bare.head
  have unquoted : ¬(c = '"' ∨ c = '\'') := not_or.2
    ⟨ne_of_isKeyChar key (by decide), ne_of_isKeyChar key (by decide)⟩
  rw [e, List.cons_append] at word behind ⊢
  simp only [keyPart?, if_neg unquoted, word, behind, List.isEmpty_cons, Bool.false_eq_true,
    if_false]
  rw [← e, String.ofList_toList]

/-- A bare key is read as a whole key, without tables above it, up to the equals sign. -/
lemma wholeKey?_bare (bare : Bare k) (rest : List Char) :
    wholeKey? (k.toList ++ ' ' :: '=' :: rest) = some (([], k), '=' :: rest) := by
  rw [wholeKey?, key?, keyPart?_bare bare]
  rfl

/-- A string begins with a quote or an apostrophe, so only the blank in front of it is skipped. -/
lemma skipBlanks_stringChars (s : String) (rest : List Char) :
    ∃ d ds, stringChars s ++ rest = d :: ds ∧ (d = '"' ∨ d = '\'') ∧
      skipBlanks (' ' :: d :: ds) = d :: ds := by
  rw [stringChars]
  cases style s.toList with
  | basic => exact ⟨'"', _, rfl, .inl rfl, rfl⟩
  | literal => exact ⟨'\'', _, rfl, .inr rfl, rfl⟩
  | longBasic => exact ⟨'"', _, rfl, .inl rfl, rfl⟩
  | longLiteral => exact ⟨'\'', _, rfl, .inr rfl, rfl⟩

/-- The value of a line is read as the string it was written for. -/
lemma value?_stringChars (depth : Nat) (s : String) (rest : List Char) :
    value? depth (skipBlanks (' ' :: (stringChars s ++ '\n' :: rest))) =
      some (string s, '\n' :: rest) := by
  have read := string?_stringChars s rest
  obtain ⟨d, ds, e, quote, skipped⟩ := skipBlanks_stringChars s ('\n' :: rest)
  rw [e] at read ⊢
  rw [skipped, value?.eq_def]
  dsimp only
  rw [if_pos quote, read]
  rfl

/-- A line is its key, an equals sign between blanks, the string and a line end. -/
lemma toList_lineFor (k s : String) :
    (lineFor k s).toList = k.toList ++ ' ' :: '=' :: ' ' :: (stringChars s ++ ['\n']) := by
  simp only [lineFor, String.toList_append, String.toList_ofList, List.append_assoc]
  rfl

/-- A line adds its key to those at the root. -/
lemma line?_lineFor (bare : Bare k) (new : lookup k es = none) (s : String) (rest : List Char) :
    line? ⟨es, []⟩ ((lineFor k s).toList ++ rest) =
      some (⟨es ++ [(k, string s)], []⟩, '\n' :: rest) := by
  have key := wholeKey?_bare bare (' ' :: (stringChars s ++ '\n' :: rest))
  have added : atHeader (addDotted [] k (string s)) [] es = some (es ++ [(k, string s)]) := by
    rw [atHeader, addDotted, add, new]
  simp only [toList_lineFor, List.append_assoc, List.cons_append, List.nil_append]
  rw [line?, key]
  simp only [Option.bind_eq_bind, Option.bind_some, mark?, if_true, value?_stringChars, added]
  rfl

/-- The reader goes on behind the line, one line closer to its bound. -/
lemma lines?_lineFor (fuel : Nat) (bare : Bare k) (new : lookup k es = none) (s : String)
    (rest : List Char) :
    lines? (fuel + 1) ⟨es, []⟩ ((lineFor k s).toList ++ rest) =
      lines? fuel ⟨es ++ [(k, string s)], []⟩ rest := by
  have read := line?_lineFor bare new s rest
  obtain ⟨c, cs, e, key⟩ := bare.head
  have first : ∃ ds, (lineFor k s).toList ++ rest = c :: ds := by
    rw [toList_lineFor, e]
    exact ⟨_, rfl⟩
  obtain ⟨ds, first⟩ := first
  -- a key begins with nothing that could be passed over
  have void : skipVoid false (c :: ds) = some (c :: ds) := by
    have blank : isBlank c = false := by
      rw [isBlank, Bool.or_eq_false_iff, beq_eq_false_iff_ne, beq_eq_false_iff_ne]
      exact ⟨ne_of_isKeyChar key (by decide), ne_of_isKeyChar key (by decide)⟩
    rw [skipVoid.eq_def]
    dsimp only
    rw [if_neg (ne_of_isKeyChar key (by decide)), if_neg (ne_of_isKeyChar key (by decide)),
      if_neg Bool.false_ne_true, blank, if_neg Bool.false_ne_true,
      if_neg (ne_of_isKeyChar key (by decide))]
  have header : ¬c = '[' := ne_of_isKeyChar key (by decide)
  rw [first] at read ⊢
  rw [lines?, void]
  simp only [Option.bind_eq_bind, Option.bind_some, if_neg header, read]
  rfl

/-! ## All lines -/

/-- A key that no entry has is not found. -/
lemma lookup_eq_none (absent : k ∉ es.map (·.1)) : lookup k es = none := by
  rw [lookup, Option.map_eq_none_iff, List.find?_eq_none]
  rintro e mem same
  exact absent (List.mem_map.2 ⟨e, mem, beq_iff_eq.1 same⟩)

/-- The text of a document of lines. -/
def linesFor (kvs : List (String × String)) : List Char :=
  kvs.flatMap fun e => (lineFor e.1 e.2).toList

/-- Lines for keys that all differ are read as their entries, behind those that were there. -/
lemma lines?_linesFor {kvs : List (String × String)} {fuel : Nat} (enough : kvs.length < fuel)
    (bare : ∀ e ∈ kvs, Bare e.1)
    (distinct : (es.map (·.1) ++ kvs.map (·.1)).Nodup) :
    lines? fuel ⟨es, []⟩ (linesFor kvs) = some (es ++ kvs.map fun e => (e.1, string e.2)) := by
  induction kvs generalizing es fuel with
  | nil =>
    obtain ⟨fuel, rfl⟩ := Nat.exists_eq_add_one.2 enough
    rw [List.map_nil, List.append_nil]
    rfl
  | cons e kvs ih =>
    obtain ⟨fuel, rfl⟩ := Nat.exists_eq_add_one.2 (Nat.lt_of_le_of_lt (Nat.zero_le _) enough)
    have new : lookup e.1 es = none := lookup_eq_none fun mem =>
      (List.nodup_append.1 distinct).2.2 _ mem _ List.mem_cons_self rfl
    have shifted : ((es ++ [(e.1, string e.2)]).map (·.1) ++ kvs.map (·.1)).Nodup := by
      simpa only [List.map_append, List.map_cons, List.map_nil, List.append_assoc,
        List.cons_append, List.nil_append] using distinct
    have read := ih (Nat.lt_of_succ_lt_succ enough)
      (fun d mem => bare d (List.mem_cons_of_mem e mem)) shifted
    rw [linesFor, List.flatMap_cons, lines?_lineFor fuel (bare e List.mem_cons_self) new,
      ← linesFor, read, List.append_assoc]
    rfl

/-- There are no more entries than characters, so the fuel is enough. -/
lemma length_le_linesFor (kvs : List (String × String)) : kvs.length ≤ (linesFor kvs).length := by
  induction kvs with
  | nil => exact Nat.le_refl 0
  | cons e kvs ih =>
    have one : 0 < (lineFor e.1 e.2).toList.length := by
      rw [toList_lineFor, List.length_append, List.length_cons]
      omega
    rw [linesFor, List.flatMap_cons, ← linesFor, List.length_append, List.length_cons]
    omega

/-- The lines begin with no byte order mark. -/
lemma skipMark_linesFor {kvs : List (String × String)} (bare : ∀ e ∈ kvs, Bare e.1) :
    skipMark (linesFor kvs) = linesFor kvs := by
  rcases kvs with _ | ⟨e, kvs⟩
  · rfl
  · obtain ⟨c, cs, head, key⟩ := (bare e List.mem_cons_self).head
    rw [linesFor, List.flatMap_cons, toList_lineFor, head]
    exact if_neg (ne_of_isKeyChar key (by decide))

/-- A document of lines with different keys is read as these keys with their texts. -/
theorem parse_lines {kvs : List (String × String)} (bare : ∀ e ∈ kvs, Bare e.1)
    (distinct : (kvs.map (·.1)).Nodup) :
    parse (String.ofList (linesFor kvs)) = some (kvs.map fun e => (e.1, string e.2)) := by
  have enough := Nat.lt_succ_of_le (length_le_linesFor kvs)
  rw [parse, String.toList_ofList, skipMark_linesFor bare]
  exact lines?_linesFor enough bare distinct

end Preferences.Toml
