import Preferences.Data.Table
import Preferences.Number.Ranged

/-!
# JSON values

The tree of a JSON text with the members of each object in the order of the text, and its canonical
form, in which the keys of every object increase. Main statement: `canon` always gives a canonical
tree.
-/

namespace Preferences

/-- The integers that a JSON number holds exactly. -/
abbrev WireInt := Ranged (-0x8000000000000000) 0xffffffffffffffff

/-- A JSON number. -/
inductive JsonNumber where
  | int (z : WireInt)
  | float (x : Float)
  deriving DecidableEq

/-- A JSON value. -/
inductive Json where
  | null
  | bool (b : Bool)
  | number (n : JsonNumber)
  | string (s : String)
  | array (items : List Json)
  | object (members : List (String × Json))

namespace Json

mutual

/-- The value with the keys of every object in order and, of members with equal keys, the last. -/
def canon : Json → Json
  | null => null
  | bool b => bool b
  | number n => number n
  | string s => string s
  | array items => array (canonItems items)
  | object members => object (canonMembers [] members)
termination_by structural j => j

/-- Every item in canonical form. -/
def canonItems : List Json → List Json
  | [] => []
  | j :: js => j.canon :: canonItems js
termination_by structural js => js

/-- Puts members in canonical form into those collected so far. -/
def canonMembers (done : List (String × Json)) : List (String × Json) → List (String × Json)
  | [] => done
  | (k, j) :: ms => canonMembers (insertEntry k j.canon done) ms
termination_by structural ms => ms

end

mutual

/-- The keys of every object increase strictly. -/
def Canonical : Json → Prop
  | null | bool _ | number _ | string _ => True
  | array items => CanonicalItems items
  | object members => KeysIncrease members ∧ CanonicalMembers members
termination_by structural j => j

/-- Every item is canonical. -/
def CanonicalItems : List Json → Prop
  | [] => True
  | j :: js => j.Canonical ∧ CanonicalItems js
termination_by structural js => js

/-- The value of every member is canonical. -/
def CanonicalMembers : List (String × Json) → Prop
  | [] => True
  | (_, j) :: ms => j.Canonical ∧ CanonicalMembers ms
termination_by structural ms => ms

end

/-- Members are canonical where the value of each is. -/
theorem canonicalMembers_iff {ms : List (String × Json)} :
    CanonicalMembers ms ↔ ∀ m ∈ ms, m.2.Canonical := by
  induction ms with
  | nil => simp [CanonicalMembers]
  | cons m ms ih => obtain ⟨k, j⟩ := m; simp [CanonicalMembers, ih]

/-- A canonical member keeps canonical members canonical. -/
theorem CanonicalMembers.insertEntry {ms : List (String × Json)} (h : CanonicalMembers ms)
    {j : Json} (hj : j.Canonical) (k : String) :
    CanonicalMembers (Preferences.insertEntry k j ms) := by
  rw [canonicalMembers_iff] at h ⊢
  intro m hm
  rcases mem_insertEntry hm with rfl | hm
  · exact hj
  · exact h m hm

mutual

/-- The canonical form is canonical. -/
theorem canonical_canon (j : Json) : j.canon.Canonical := by
  cases j with
  | null | bool _ | number _ | string _ => simp [canon, Canonical]
  | array items => simpa [canon, Canonical] using canonicalItems_canonItems items
  | object members =>
    simpa [canon, Canonical] using
      canonicalMembers_canonMembers members [] List.Pairwise.nil (by simp [CanonicalMembers])

/-- Items that are put in order are canonical. -/
theorem canonicalItems_canonItems (js : List Json) : CanonicalItems (canonItems js) := by
  cases js with
  | nil => simp [canonItems, CanonicalItems]
  | cons j js =>
    simp only [canonItems, CanonicalItems]
    exact ⟨canonical_canon j, canonicalItems_canonItems js⟩

/-- Members that are put in order, behind others that are, are canonical and have increasing keys.
-/
theorem canonicalMembers_canonMembers (ms done : List (String × Json)) (sorted : KeysIncrease done)
    (h : CanonicalMembers done) :
    KeysIncrease (canonMembers done ms) ∧ CanonicalMembers (canonMembers done ms) := by
  cases ms with
  | nil => simpa [canonMembers] using ⟨sorted, h⟩
  | cons m ms =>
    obtain ⟨k, j⟩ := m
    simp only [canonMembers]
    exact canonicalMembers_canonMembers ms _ (sorted.insertEntry k _)
      (h.insertEntry (canonical_canon j) k)

end

end Json

/-- A JSON value in canonical form. -/
structure Document where
  tree : Json
  canonical : tree.Canonical

/-- The document of a JSON value. -/
def Document.ofJson (j : Json) : Document := ⟨j.canon, j.canonical_canon⟩

end Preferences
