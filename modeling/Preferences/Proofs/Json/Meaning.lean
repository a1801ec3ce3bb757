import Preferences.Proofs.Json.Tree

/-!
# What trees mean

The value that a tree stands for: an object is a map from names to values, in which the last of
members with equal names counts. The canonical form keeps the meaning, and of the trees of one
meaning there is one in canonical form. Main statement: `canon_eq_canon_iff`.
-/

namespace Preferences.Json

/-- A value as such, whatever the order of names. -/
inductive Meaning where
  | null
  | bool (b : Bool)
  | number (n : JsonNumber)
  | string (s : String)
  | array (items : List Meaning)
  | object (members : String → Option Meaning)

mutual

/-- The value that a tree stands for. -/
def meaning : Json → Meaning
  | null => .null
  | bool b => .bool b
  | number n => .number n
  | string s => .string s
  | array items => .array (meaningItems items)
  | object members => .object (meaningMembers members)
termination_by structural j => j

/-- What the items of a list mean, in turn. -/
def meaningItems : List Json → List Meaning
  | [] => []
  | j :: js => j.meaning :: meaningItems js
termination_by structural js => js

/-- The value under a name, which is that of the last member with the name. -/
def meaningMembers : List (String × Json) → String → Option Meaning
  | [], _ => none
  | (k, j) :: ms, name => (meaningMembers ms name).or (if k = name then some j.meaning else none)
termination_by structural ms => ms

end

variable {ms : List (String × Json)} {k name : String} {j : Json}

/-! ## Members in order -/

/-- A name that no member has means nothing. -/
lemma meaningMembers_eq_none (absent : ∀ m ∈ ms, m.1 ≠ name) : meaningMembers ms name = none := by
  induction ms with
  | nil => rfl
  | cons m ms ih =>
    obtain ⟨k, j⟩ := m
    obtain ⟨other, later⟩ := List.forall_mem_cons.1 absent
    rw [meaningMembers, ih later, if_neg other]
    rfl

/-- A member with another name does not matter. -/
lemma meaningMembers_cons_of_ne (other : k ≠ name) :
    meaningMembers ((k, j) :: ms) name = meaningMembers ms name := by
  rw [meaningMembers, if_neg other, Option.or_none]

/-- Of two keys in order neither is the other. -/
lemma ne_of_lt (less : compare name k = .lt) : k ≠ name := by
  rintro rfl
  rw [Std.ReflOrd.compare_self] at less
  cases less

/-- The first of members in order has a name of its own. -/
lemma meaningMembers_cons_self (increase : KeysIncrease ((k, j) :: ms)) :
    meaningMembers ms k = none ∧ meaningMembers ((k, j) :: ms) k = some j.meaning := by
  have none : meaningMembers ms k = none :=
    meaningMembers_eq_none fun m there => ne_of_lt ((List.pairwise_cons.1 increase).1 m there)
  rw [meaningMembers, none, if_pos rfl]
  exact ⟨rfl, rfl⟩

/-- Members in order have no name before the first. -/
lemma meaningMembers_of_lt (increase : KeysIncrease ((k, j) :: ms))
    (less : compare name k = .lt) : meaningMembers ((k, j) :: ms) name = none := by
  refine meaningMembers_eq_none fun m there => ?_
  rcases List.mem_cons.1 there with rfl | later
  · exact ne_of_lt less
  · exact ne_of_lt (Std.TransCmp.lt_trans less ((List.pairwise_cons.1 increase).1 m later))

/-- A member that is put in means its value under its name, and the others mean what they did. -/
lemma meaningMembers_insertEntry (increase : KeysIncrease ms) (k : String) (j : Json)
    (name : String) : meaningMembers (insertEntry k j ms) name =
      if k = name then some j.meaning else meaningMembers ms name := by
  induction ms with
  | nil => rfl
  | cons m ms ih =>
    obtain ⟨l, i⟩ := m
    rw [insertEntry]
    split
    next less =>
      rw [meaningMembers]
      split
      next same =>
        subst same
        -- the keys increase, so that none of those behind has the name
        rw [meaningMembers_of_lt increase less]
        rfl
      next => exact Option.or_none
    next equal =>
      obtain rfl : k = l := Std.LawfulEqOrd.eq_of_compare equal
      rw [meaningMembers]
      split
      next same =>
        subst same
        rw [(meaningMembers_cons_self increase).1]
        rfl
      next other => rw [meaningMembers_cons_of_ne other, Option.or_none]
    next =>
      rw [meaningMembers, ih (List.pairwise_cons.1 increase).2, meaningMembers]
      split <;> rfl

/-! ## Canonical forms -/

mutual

/-- The canonical form of a tree means the same. -/
theorem meaning_canon (j : Json) : j.canon.meaning = j.meaning := by
  cases j with
  | null | bool | number | string => rfl
  | array items => rw [canon, meaning, meaning, meaningItems_canonItems items]
  | object members =>
    rw [canon, meaning, meaning]
    congr 1
    funext name
    rw [meaningMembers_canonMembers members [] .nil]
    exact Option.or_none

/-- To order the keys in the items changes nothing in what they mean. -/
theorem meaningItems_canonItems (js : List Json) :
    meaningItems (canonItems js) = meaningItems js := by
  cases js with
  | nil => rfl
  | cons j js =>
    rw [canonItems, meaningItems, meaningItems, meaning_canon j, meaningItems_canonItems js]

/-- To order members changes nothing in what they mean, the last one of each name counting. -/
theorem meaningMembers_canonMembers (ms done : List (String × Json)) (increase : KeysIncrease done)
    (name : String) : meaningMembers (canonMembers done ms) name =
      (meaningMembers ms name).or (meaningMembers done name) := by
  cases ms with
  | nil => rfl
  | cons m ms =>
    obtain ⟨k, j⟩ := m
    rw [canonMembers, meaningMembers_canonMembers ms _ (increase.insertEntry k _),
      meaningMembers_insertEntry increase, meaning_canon j, meaningMembers, Option.or_assoc]
    congr 1
    split <;> rfl

end

mutual

/-- Canonical trees of one meaning are the same. -/
theorem eq_of_meaning_eq (i j : Json) (canonical : i.Canonical) (canonical' : j.Canonical)
    (same : i.meaning = j.meaning) : i = j := by
  cases i with
  | null | bool | number | string =>
    cases j <;> cases same
    rfl
  | array items =>
    cases j with
    | array items' =>
      rw [eq_of_meaningItems_eq items items' canonical canonical' (Meaning.array.inj same)]
    | null | bool | number | string | object => cases same
  | object members =>
    cases j with
    | object members' =>
      rw [eq_of_meaningMembers_eq members members' canonical.1 canonical'.1 canonical.2
        canonical'.2 (congrFun (Meaning.object.inj same))]
    | null | bool | number | string | array => cases same

/-- Canonical items that mean the same are the same. -/
theorem eq_of_meaningItems_eq (is js : List Json) (canonical : CanonicalItems is)
    (canonical' : CanonicalItems js) (same : meaningItems is = meaningItems js) : is = js := by
  cases is with
  | nil =>
    cases js with
    | nil => rfl
    | cons => cases same
  | cons i is =>
    cases js with
    | nil => cases same
    | cons j js =>
      obtain ⟨head, tail⟩ := List.cons.inj same
      rw [eq_of_meaning_eq i j canonical.1 canonical'.1 head,
        eq_of_meaningItems_eq is js canonical.2 canonical'.2 tail]

/-- Canonical members that mean the same are the same. -/
theorem eq_of_meaningMembers_eq (ms ns : List (String × Json)) (increase : KeysIncrease ms)
    (increase' : KeysIncrease ns) (canonical : CanonicalMembers ms)
    (canonical' : CanonicalMembers ns)
    (same : ∀ name, meaningMembers ms name = meaningMembers ns name) : ms = ns := by
  cases ms with
  | nil =>
    cases ns with
    | nil => rfl
    | cons n ns =>
      have absent := same n.1
      rw [(meaningMembers_cons_self increase').2] at absent
      cases absent
  | cons m ms =>
    obtain ⟨k, i⟩ := m
    have there := (meaningMembers_cons_self increase).2
    cases ns with
    | nil =>
      rw [same k] at there
      cases there
    | cons n ns =>
      obtain ⟨l, j⟩ := n
      have there' := (meaningMembers_cons_self increase').2
      -- a name that only one of the two begins with would be missing in the other
      obtain rfl : k = l := by
        cases order : compare k l with
        | eq => exact Std.LawfulEqOrd.eq_of_compare order
        | lt =>
          rw [same k, meaningMembers_of_lt increase' order] at there
          cases there
        | gt =>
          rw [← same l, meaningMembers_of_lt increase (Std.OrientedCmp.lt_of_gt order)] at there'
          cases there'
      have head : i.meaning = j.meaning := by
        rw [same k, there'] at there
        exact (Option.some.inj there).symm
      have tail (name : String) : meaningMembers ms name = meaningMembers ns name := by
        by_cases first : k = name
        · subst first
          rw [(meaningMembers_cons_self increase).1, (meaningMembers_cons_self increase').1]
        · rw [← meaningMembers_cons_of_ne (j := i) first, same name,
            meaningMembers_cons_of_ne first]
      rw [eq_of_meaning_eq i j canonical.1 canonical'.1 head,
        eq_of_meaningMembers_eq ms ns (List.pairwise_cons.1 increase).2
          (List.pairwise_cons.1 increase').2 canonical.2 canonical'.2 tail]

end

/-- Two trees have one canonical form if and only if they mean the same. -/
theorem canon_eq_canon_iff {i j : Json} : i.canon = j.canon ↔ i.meaning = j.meaning := by
  refine ⟨fun same => ?_, fun same => ?_⟩
  · rw [← meaning_canon i, same, meaning_canon j]
  · refine eq_of_meaning_eq _ _ i.canonical_canon j.canonical_canon ?_
    rw [meaning_canon, meaning_canon, same]

end Preferences.Json
