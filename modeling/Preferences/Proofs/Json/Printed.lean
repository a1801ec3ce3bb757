import Preferences.Proofs.Json.Grammar

/-!
# Printed trees

The printer without blanks follows the grammar: what it prints for a tree spells the tree, or one
that differs from it in the numbers only, as far as each number is spelled by what is printed for
it. Main statement: `spells_render`.
-/

namespace Preferences.Json

/-! ## Strings -/

/-- The escape of a control character is that of its only unit. -/
lemma spellsUnit_control {n : Nat} (control : n < 0x20) :
    SpellsUnit n ['\\', 'u', '0', '0', Nat.digitChar (n / 16), Nat.digitChar (n % 16)] := by
  have zero : HexDigit 0 '0' := ⟨by decide, .inl rfl⟩
  have high : HexDigit (n / 16) (Nat.digitChar (n / 16)) := ⟨by omega, .inl rfl⟩
  have low : HexDigit (n % 16) (Nat.digitChar (n % 16)) := ⟨by omega, .inl rfl⟩
  have unit := SpellsUnit.intro zero zero high low
  have value : 4096 * 0 + 256 * 0 + 16 * (n / 16) + n % 16 = n := by omega
  rwa [value] at unit

/-- What is written for a character spells it. -/
lemma spellsChar_escapeChar (c : Char) : SpellsChar c (escapeChar c) := by
  unfold escapeChar
  -- seven characters have an escape of one letter
  iterate 7
    split
    next same => subst same; exact .letter (by decide)
  split
  next control =>
    have unit : utf16 c = [c.toNat] := if_pos (by omega)
    have units := SpellsChar.units (c := c) (by
      rw [unit]
      exact .cons (spellsUnit_control control) .nil)
    exact units
  next quote backslash _ _ _ _ _ printable => exact .plain quote backslash (Nat.not_lt.1 printable)

/-- What is written for a string spells it. -/
lemma spellsString_stringChars (s : String) : SpellsString s (stringChars s) := by
  refine ⟨s.toList.map escapeChar, ?_, by rw [stringChars, List.flatMap]⟩
  exact List.forall₂_map_right_iff.2 (List.forall₂_same.2 fun c _ => spellsChar_escapeChar c)

/-! ## Lists and objects -/

variable {style : Style} {level : Nat}

/-- The items of a printed list, of which there is one, up to the bracket. -/
lemma spells_renderItems (tight : style.gap []) {i j : Json} {is js : List Json}
    (spelled : List.Forall₂
      (fun i j => Spells style (.value j) (i.render .compact (level + 1))) (i :: is) (j :: js))
    (first : Bool) :
    ∃ text, Spells style (.elements (j :: js)) text ∧ renderItems .compact level first (i :: is) =
      (if first then [] else [',']) ++ text ++ [']'] := by
  induction is generalizing i j js first with
  | nil =>
    obtain ⟨head, tail⟩ := List.forall₂_cons.1 spelled
    cases tail
    refine ⟨_, .lastElement (.element tight head tight), ?_⟩
    simp [renderItems, Layout.compact]
  | cons i' is ih =>
    obtain ⟨head, tail⟩ := List.forall₂_cons.1 spelled
    obtain ⟨j', js', -, -, rfl⟩ := List.forall₂_cons_left_iff.1 tail
    obtain ⟨text, others, printed⟩ := ih tail false
    refine ⟨_, .moreElements (.element tight head tight) others, ?_⟩
    rw [renderItems, printed]
    simp [Layout.compact]

/-- The members of a printed object, of which there is one, up to the brace. -/
lemma spells_renderMembers (tight : style.gap []) {m n : String × Json}
    {ms ns : List (String × Json)}
    (spelled : List.Forall₂ (fun m n => m.1 = n.1 ∧
      Spells style (.value n.2) (m.2.render .compact (level + 1))) (m :: ms) (n :: ns))
    (first : Bool) :
    ∃ text, Spells style (.members (n :: ns)) text ∧ renderMembers .compact level first (m :: ms) =
      (if first then [] else [',']) ++ text ++ ['\x7d'] := by
  induction ms generalizing m n ns first with
  | nil =>
    obtain ⟨⟨same, head⟩, tail⟩ := List.forall₂_cons.1 spelled
    obtain ⟨k, i⟩ := m
    obtain ⟨k', j⟩ := n
    cases tail
    cases same
    refine ⟨_, .lastMember (.member tight (spellsString_stringChars k) tight
      (.element tight head tight)), ?_⟩
    simp [renderMembers, Layout.compact]
  | cons m' ms ih =>
    obtain ⟨⟨same, head⟩, tail⟩ := List.forall₂_cons.1 spelled
    obtain ⟨k, i⟩ := m
    obtain ⟨k', j⟩ := n
    cases same
    obtain ⟨n', ns', -, -, rfl⟩ := List.forall₂_cons_left_iff.1 tail
    obtain ⟨text, others, printed⟩ := ih tail false
    refine ⟨_, .moreMembers (.member tight (spellsString_stringChars k) tight
      (.element tight head tight)) others, ?_⟩
    rw [renderMembers, printed]
    simp [Layout.compact]

/-- A list is written as a spelling of it, if its items are. -/
lemma spells_render_array (tight : style.gap []) {is js : List Json}
    (spelled : List.Forall₂
      (fun i j => Spells style (.value j) (i.render .compact (level + 1))) is js) :
    Spells style (.value (array js)) ((array is).render .compact level) := by
  rw [render]
  cases spelled with
  | nil => exact .emptyArray tight
  | cons head tail =>
    obtain ⟨text, elements, printed⟩ := spells_renderItems tight (.cons head tail) true
    rw [printed]
    exact .array elements

/-- An object is written as a spelling of it, if its values are. -/
lemma spells_render_object (tight : style.gap []) {ms ns : List (String × Json)}
    (spelled : List.Forall₂ (fun m n => m.1 = n.1 ∧
      Spells style (.value n.2) (m.2.render .compact (level + 1))) ms ns) :
    Spells style (.value (object ns)) ((object ms).render .compact level) := by
  rw [render]
  cases spelled with
  | nil => exact .emptyObject tight
  | cons head tail =>
    obtain ⟨text, members, printed⟩ := spells_renderMembers tight (.cons head tail) true
    rw [printed]
    exact .object members

/-- A tree without floats is spelled by its text without blanks. -/
theorem spells_render {j : Json} (free : j.FloatFree) (tight : style.gap [])
    (integers : ∀ z : WireInt, style.number (.int z) (intDigits z.val)) :
    Spells style (.value j) (j.render .compact level) := by
  induction free generalizing level with
  | null => exact .null
  | bool b =>
    cases b with
    | true => exact .yes
    | false => exact .no
  | int z => exact .number (integers z)
  | string s => exact .string (spellsString_stringChars s)
  | array _ ih => exact spells_render_array tight (List.forall₂_same.2 fun j there => ih j there)
  | object _ ih =>
    exact spells_render_object tight (List.forall₂_same.2 fun m there => ⟨rfl, ih m there⟩)

/-- What a printed tree spells is spelled by the whole text. -/
lemma Spells.compact {i j : Json} (h : Spells style (.value i) (j.render .compact 0))
    (tight : style.gap []) : Spells style (.element i) j.compact.toList := by
  have element : Spells style (.element i) ([] ++ j.render .compact 0 ++ []) :=
    .element tight h tight
  rwa [List.nil_append, List.append_nil,
    ← String.toList_ofList (l := j.render .compact 0)] at element

end Preferences.Json
