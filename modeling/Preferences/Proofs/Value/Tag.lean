import Preferences.Proofs.Json.Skip
import Preferences.Proofs.Text.Base64
import Preferences.Value.Reader

/-!
# Tags

The kind of a stored value is one of four variants without contents. Such a variant is written as
its name, or as an object with its name for the only key and null for the value; the reader of kinds
takes both forms, in any spelling, and nothing else. Main statement: `kindTag_append_eq_ok_iff`.
-/

namespace Preferences.Value

open Json

variable {k : Primitive} {blanks text cs rest rest' : List Char} {depth : Nat}

/-- The text names the kind: by the label alone, or by an object that has the label for its only key
and null for its value. -/
inductive Names (k : Primitive) : List Char → Prop where
  | alone {text : List Char} : SpellsString k.label text → Names k text
  | keyed {gap key after inner outer : List Char} : Blanks gap → SpellsString k.label key →
    Blanks after → Blanks inner → Blanks outer →
    Names k ('\x7b' :: (gap ++ (key ++ (after ++ ':' ::
      (inner ++ (['n', 'u', 'l', 'l'] ++ (outer ++ ['\x7d'])))))))

/-- The labels are the names that the reader of kinds knows. -/
lemma named_iff {name : String} :
    name ∈ Primitive.all.map Primitive.label ∧ (Primitive.ofLabel? name).getD .string = k ↔
      name = k.label := by
  constructor
  · rintro ⟨listed, rfl⟩
    obtain ⟨k, -, rfl⟩ := List.mem_map.1 listed
    cases k <;> decide
  · rintro rfl
    cases k <;> decide

/-- The name of a variant is read from a string with a known name. -/
lemma variantName_eq_ok_iff {known : List String} {s : String} :
    variantName known ('"' :: cs) = .ok (s, rest) ↔ stringRest cs = .ok (s, rest) ∧ s ∈ known := by
  have quote : beforeValue ('"' :: cs) = .ok ('"', cs) := rfl
  rw [variantName, textAs, quote]
  simp only [bind, Except.bind, if_true]
  rcases stringRest cs with fault | ⟨t, ended⟩
  · constructor
    · intro h
      cases h
    · rintro ⟨h, -⟩
      cases h
  · by_cases listed : t ∈ known
    · simp only [if_pos listed, pure, Except.pure]
      refine ⟨fun h => ?_, fun h => h.1⟩
      cases h
      exact ⟨rfl, listed⟩
    · simp only [if_neg listed]
      constructor
      · intro h
        cases h
      · rintro ⟨h, known⟩
        cases h
        exact absurd known listed

/-- A kind is read from its label. -/
lemma kindTag_quote (hb : Blanks blanks) :
    kindTag depth (blanks ++ '"' :: cs) = .ok (k, rest) ↔ stringRest cs = .ok (k.label, rest) := by
  rw [kindTag, variant, skipSpace_append hb _ (by decide)]
  dsimp only
  rw [if_neg (by decide), if_pos rfl, bind_eq_ok]
  constructor
  · rintro ⟨⟨name, ended⟩, named, same⟩
    cases same
    obtain ⟨read, listed⟩ := variantName_eq_ok_iff.1 named
    rw [← named_iff.1 ⟨listed, rfl⟩, read]
  · intro read
    obtain ⟨listed, same⟩ := named_iff.2 (rfl : k.label = k.label)
    exact ⟨(k.label, rest), variantName_eq_ok_iff.2 ⟨read, listed⟩, by rw [same]⟩

/-- The steps by which a kind is read from an object. -/
lemma kindTag_object {ds : List Char} (hb : Blanks blanks)
    (next : nextMember true cs = .ok (true, '"' :: ds)) :
    kindTag (depth + 1) (blanks ++ '\x7b' :: cs) = .ok (k, rest) ↔
      ∃ es fs gs, stringRest ds = .ok (k.label, es) ∧ colon es = .ok fs ∧
        unit fs = .ok ((), gs) ∧ skipSpace gs = '\x7d' :: rest := by
  rw [kindTag, variant, skipSpace_append hb _ (by decide)]
  dsimp only
  rw [if_pos rfl, next]
  constructor
  · intro h
    obtain ⟨⟨_, _⟩, opened, h⟩ := bind_eq_ok.1 h
    cases opened
    obtain ⟨⟨name, es⟩, named, h⟩ := bind_eq_ok.1 h
    obtain ⟨fs, divided, h⟩ := bind_eq_ok.1 h
    obtain ⟨⟨_, gs⟩, tagged, h⟩ := bind_eq_ok.1 h
    obtain ⟨read, listed⟩ := variantName_eq_ok_iff.1 named
    rcases null : unit fs with fault | ⟨_, hs⟩ <;> rw [null] at tagged <;> cases tagged
    dsimp only at h
    split at h
    next => cases h
    next c is close =>
      split at h
      next brace =>
        cases h
        rw [← named_iff.1 ⟨listed, rfl⟩]
        exact ⟨es, fs, hs, read, divided, null, by rw [close, brace]⟩
      next => cases h
  · rintro ⟨es, fs, gs, read, divided, null, close⟩
    obtain ⟨listed, same⟩ := named_iff.2 (rfl : k.label = k.label)
    have named := variantName_eq_ok_iff.2 ⟨read, listed⟩
    simp only [bind, Except.bind, named, divided, null, Except.map, close, same]
    rfl

/-- Null is read from its word. -/
lemma unit_append_eq_ok {u : Unit} (hb : Blanks blanks) (valid : Valid .value text)
    (h : unit (blanks ++ (text ++ rest)) = .ok (u, rest')) :
    text = ['n', 'u', 'l', 'l'] ∧ rest' = rest := by
  rw [unit, beforeValue, valid.skipSpace_before hb] at h
  cases valid with
  | null =>
    cases h
    exact ⟨rfl, rfl⟩
  | yes | no | string | array | object => cases h
  | number literal =>
    obtain ⟨c, cs, rfl, head⟩ := literal.begins
    have other : c ≠ 'n' := ne_of_head head (by decide)
    simp only [List.cons_append, bind, Except.bind, if_neg other] at h
    cases h

/-- The members of an object from which a kind is read. -/
lemma names_of_members {ms : List MemberText} (hb : Blanks blanks)
    (valid : Valid (.members true ms) text)
    (h : kindTag (depth + 1) (blanks ++ '\x7b' :: (text ++ rest)) = .ok (k, rest')) :
    Names k ('\x7b' :: text) ∧ rest' = rest := by
  cases valid with
  | closeObject blank =>
    rw [List.append_assoc, List.singleton_append, kindTag, variant,
      skipSpace_append hb _ (by decide)] at h
    dsimp only at h
    rw [if_pos rfl, nextMember_close blank] at h
    cases h
  | @member _ _ gap tail after inner text others _ led blank quoted blank' blank'' value behind =>
    cases led with
    | first =>
      have next := nextMember_lead .first blank
        (tail ++ (after ++ ':' :: (inner ++ (text ++ (others ++ rest)))))
      simp only [List.nil_append, List.append_assoc, List.cons_append] at h next ⊢
      obtain ⟨_, _, _, read, divided, null, close⟩ := (kindTag_object hb next).1 h
      obtain ⟨spelled, rfl⟩ := quoted.stringRest_eq_ok_iff.1 read
      rw [colon_append blank'] at divided
      cases divided
      obtain ⟨rfl, rfl⟩ := unit_append_eq_ok blank'' value null
      cases behind with
      | closeObject outer =>
        rw [List.append_assoc, List.singleton_append, skipSpace_append outer _ (by decide)] at close
        cases close
        exact ⟨.keyed blank spelled blank' blank'' outer, rfl⟩
      -- the comma before a second member is not the brace that has to follow
      | member led' =>
        cases led' with
        | comma outer =>
          simp only [List.append_assoc, List.cons_append, List.nil_append] at close
          rw [skipSpace_append outer _ (by decide)] at close
          cases close

/-- A kind is read from a text that names it, and from no other. -/
theorem kindTag_append_eq_ok_iff (hb : Blanks blanks) (valid : Valid .value text) :
    kindTag (depth + 1) (blanks ++ (text ++ rest)) = .ok (k, rest') ↔
      Names k text ∧ rest' = rest := by
  constructor
  · intro h
    -- nothing but a string or an object names a kind
    cases valid with
    | null | yes | no | array =>
      rw [kindTag, variant, List.cons_append, skipSpace_append hb _ (by decide)] at h
      cases h
    | number literal =>
      obtain ⟨c, cs, rfl, head⟩ := literal.begins
      rw [kindTag, variant, List.cons_append, skipSpace_append hb _ (isSpace_of_number head)] at h
      dsimp only at h
      rw [if_neg (ne_of_head head (by decide)), if_neg (ne_of_head head (by decide))] at h
      cases h
    | string quoted =>
      obtain ⟨spelled, ended⟩ := quoted.stringRest_eq_ok_iff.1 ((kindTag_quote hb).1 h)
      exact ⟨.alone spelled, ended⟩
    | object members => exact names_of_members hb members h
  · rintro ⟨names, rfl⟩
    cases names with
    | alone spelled =>
      obtain ⟨tail, quoted, rfl⟩ := spelled.tail
      exact (kindTag_quote hb).2 (quoted.stringRest_eq_ok_iff.2 ⟨spelled, rfl⟩)
    | @keyed gap key after inner outer blank spelled blank' blank'' blank_outer =>
      obtain ⟨tail, quoted, rfl⟩ := spelled.tail
      have next := nextMember_lead .first blank
        (tail ++ (after ++ ':' :: (inner ++ (['n', 'u', 'l', 'l'] ++ (outer ++ '\x7d' :: rest')))))
      have null : unit (inner ++ 'n' :: 'u' :: 'l' :: 'l' :: (outer ++ '\x7d' :: rest')) =
          .ok ((), outer ++ '\x7d' :: rest') := by
        rw [unit, beforeValue_append blank'' _ (by decide)]
        rfl
      simp only [List.nil_append, List.append_assoc, List.cons_append] at next ⊢
      exact (kindTag_object hb next).2 ⟨_, _, _, quoted.stringRest_eq_ok_iff.2 ⟨spelled, rfl⟩,
        colon_append blank' _, null, skipSpace_append blank_outer _ (by decide)⟩

end Preferences.Value
