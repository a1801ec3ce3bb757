import Preferences.Proofs.Json.Decimal
import Preferences.Proofs.Json.Printed

/-!
# Trees with floats

What is read from a text has finite floats only. So the text that is printed for it is read too, as
a tree that nests as deep, even where its floats are others. Main statement: `parse_of_printed`.
-/

namespace Preferences.Json

/-- The floats of the tree are finite. -/
inductive Finite : Json → Prop where
  | null : Finite null
  | bool (b : Bool) : Finite (bool b)
  | int (z : WireInt) : Finite (number (.int z))
  | float {x : Float} : x.isFinite = true → Finite (number (.float x))
  | string (s : String) : Finite (string s)
  | array {items : List Json} : (∀ j ∈ items, j.Finite) → Finite (array items)
  | object {members : List (String × Json)} : (∀ m ∈ members, m.2.Finite) → Finite (object members)

variable {j : Json} {depth : Nat}

/-! ## What is read is finite -/

/-- A scalar that is read has a finite number, if it has one. -/
lemma finite_of_scalar {cs rest : List Char} (h : scalar? cs = some (.ok (j, rest))) :
    j.Finite := by
  cases scalar?_eq_ok h with
  | null => exact .null
  | yes | no => exact .bool _
  | @number n _ read =>
    cases n with
    | int z => exact .int z
    | float x => exact .float (isFinite_of_numberHead read)
  | string => exact .string _

/-- What is read has finite numbers only. -/
lemma finite_of_read {cs rest : List Char} (h : read depth cs = .ok (j, rest)) : j.Finite := by
  induction depth generalizing j cs rest with
  | zero =>
    rcases value_eq_ok h with ⟨ds, scalar⟩ | ⟨reader, none, -⟩
    · exact finite_of_scalar scalar
    · cases none
  | succ depth ih =>
    rcases value_eq_ok h with ⟨ds, scalar⟩ | ⟨reader, same, ⟨js, rfl, inside⟩ | ⟨ms, rfl, inside⟩⟩
    · exact finite_of_scalar scalar
    · cases same
      refine .array fun i there => ?_
      obtain ⟨ds, es, read⟩ := inside i there
      exact ih read
    · cases same
      refine .object fun m there => ?_
      obtain ⟨ds, es, read⟩ := inside m there
      exact ih read

/-- To order the keys of a document keeps its numbers finite. -/
lemma Finite.canon (finite : j.Finite) : j.canon.Finite := by
  induction finite with
  | null => exact .null
  | bool b => exact .bool b
  | int z => exact .int z
  | float finite => exact .float finite
  | string s => exact .string s
  | array _ ih =>
    rw [Json.canon, canonItems_eq_map]
    refine .array fun j there => ?_
    obtain ⟨i, earlier, rfl⟩ := List.mem_map.1 there
    exact ih i earlier
  | object _ ih =>
    rw [Json.canon]
    refine .object fun m there => ?_
    rcases mem_canonMembers there with done | ⟨n, earlier, rfl⟩
    · cases done
    · exact ih n earlier

/-! ## What is printed is read -/

/-- No blanks in the gaps, and numbers in any spelling that is read. -/
def Style.rough : Style where
  gap text := text = []
  number := TakesNumber

/-- Rough spelling is read as what it spells. -/
lemma Style.rough_readable : Style.rough.Readable := by
  refine ⟨fun gap empty => ?_, fun n text taken => taken⟩
  rw [show gap = [] from empty]
  exact .nil

/-- Where every element has a partner, so has the list. -/
lemma exists_forall₂ {α β : Type} {r : α → β → Prop} {as : List α} (h : ∀ a ∈ as, ∃ b, r a b) :
    ∃ bs, List.Forall₂ r as bs := by
  induction as with
  | nil => exact ⟨[], .nil⟩
  | cons a as ih =>
    obtain ⟨head, tail⟩ := List.forall_mem_cons.1 h
    obtain ⟨b, first⟩ := head
    obtain ⟨bs, others⟩ := ih tail
    exact ⟨b :: bs, .cons first others⟩

/-- Items that nest alike make lists that nest alike. -/
lemma nestingItems_congr {is js : List Json}
    (same : List.Forall₂ (fun i j : Json => j.nesting = i.nesting) is js) :
    nestingItems js = nestingItems is := by
  induction same with
  | nil => rfl
  | cons head _ ih => rw [nestingItems, nestingItems, head, ih]

/-- Members that nest alike make objects that nest alike. -/
lemma nestingMembers_congr {ms ns : List (String × Json)}
    (same : List.Forall₂ (fun m n : String × Json => n.2.nesting = m.2.nesting) ms ns) :
    nestingMembers ns = nestingMembers ms := by
  induction same with
  | nil => rfl
  | cons head _ ih => rw [nestingMembers, nestingMembers, head, ih]

/-- The text of a tree whose floats are finite spells a tree that nests as deep. -/
lemma spells_of_finite (finite : j.Finite) (level : Nat) :
    ∃ i, Spells .rough (.value i) (j.render .compact level) ∧ i.nesting = j.nesting := by
  induction finite generalizing level with
  | null => exact ⟨_, .null, rfl⟩
  | bool b =>
    cases b with
    | true => exact ⟨_, .yes, rfl⟩
    | false => exact ⟨_, .no, rfl⟩
  | int z => exact ⟨_, .number (takesNumber_int z), rfl⟩
  | float finite =>
    obtain ⟨y, taken⟩ := takesNumber_floatChars finite
    exact ⟨_, .number taken, rfl⟩
  | string s => exact ⟨_, .string (spellsString_stringChars s), rfl⟩
  | array _ ih =>
    obtain ⟨js, spelled⟩ := exists_forall₂ fun j there => ih j there (level + 1)
    refine ⟨.array js, spells_render_array rfl (spelled.imp fun _ _ h => h.1), ?_⟩
    rw [nesting, nesting, nestingItems_congr (spelled.imp fun _ _ h => h.2)]
  | object _ ih =>
    obtain ⟨ns, spelled⟩ := exists_forall₂ (r := fun m n : String × Json => m.1 = n.1 ∧
      Spells .rough (.value n.2) (m.2.render .compact (level + 1)) ∧ n.2.nesting = m.2.nesting)
      fun m there => by
        obtain ⟨i, spelled, same⟩ := ih m there (level + 1)
        exact ⟨(m.1, i), rfl, spelled, same⟩
    refine ⟨.object ns, spells_render_object rfl (spelled.imp fun _ _ h => ⟨h.1, h.2.1⟩), ?_⟩
    rw [nesting, nesting, nestingMembers_congr (spelled.imp fun _ _ h => h.2.2)]

/-- What was once read from a text is printed, in canonical form, as one that is read. -/
theorem parse_of_printed {text : String} (h : parse text = .ok j) :
    j.canon.compact ≠ "" ∧ ∃ i, parse j.canon.compact = .ok i := by
  obtain ⟨rest, read, -⟩ := readWhole_eq_ok h
  obtain ⟨i, spelled, same⟩ := spells_of_finite (finite_of_read read).canon 0
  have fits : i.Fits maxDepth := by
    rw [fits_iff, same, ← fits_iff]
    exact (fits_of_parse h).canon
  have begins : Begins true (j.canon.render .compact 0) := (spelled.taken Style.rough_readable).1
  refine ⟨begins.compact_ne_empty, i, ?_⟩
  exact (readWhole_outcome ((spelled.compact rfl).taken Style.rough_readable) maxDepth).1 fits

end Preferences.Json
