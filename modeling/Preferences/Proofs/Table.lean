import Mathlib.Tactic.Lemma
import Preferences.Data.Table

/-!
# Look-ups in finite maps

What a look-up gives after an insertion, and a table from its look-ups. Main statement: `ext_get?`.
-/

namespace Preferences

variable {κ α : Type} [Ord κ]

/-- Looking a key up in a list of entries after an insertion. -/
lemma find?_insertEntry [Std.TransOrd κ] [Std.LawfulEqOrd κ] (k j : κ) (a : α)
    (es : List (κ × α)) :
    (insertEntry k a es).find? (fun e => compare j e.1 == .eq) =
      if compare j k = .eq then some (k, a) else es.find? fun e => compare j e.1 == .eq := by
  induction es with
  | nil => by_cases h : compare j k = .eq <;> simp [insertEntry, h]
  | cons e es ih =>
    unfold insertEntry
    split
    next lt => by_cases h : compare j k = .eq <;> simp [h]
    next eq =>
      have same : k = e.1 := Std.LawfulEqOrd.eq_of_compare eq
      by_cases h : compare j k = .eq <;> simp [← same, h]
    next gt =>
      rw [List.find?_cons]
      split
      next found =>
        have same : j = e.1 := Std.LawfulEqOrd.eq_of_compare (by simpa using found)
        have apart : compare j k ≠ .eq := by
          rw [same, Std.OrientedOrd.eq_swap (a := e.1), gt]
          decide
        rw [if_neg apart]
        simp [found]
      next missed => simp [ih, missed]

/-- An insertion adds its key and keeps the others. -/
lemma mem_keys_insertEntry [Std.LawfulEqOrd κ] {k k' : κ} {a : α} {es : List (κ × α)}
    (h : k' = k ∨ k' ∈ es.map Prod.fst) : k' ∈ (insertEntry k a es).map Prod.fst := by
  induction es with
  | nil => simpa [insertEntry] using h
  | cons e es ih =>
    unfold insertEntry
    split
    next => simpa using h
    next eq =>
      have same : k = e.1 := Std.LawfulEqOrd.eq_of_compare eq
      simpa [same] using h
    next =>
      rw [List.map_cons, List.mem_cons] at h ⊢
      rcases h with rfl | rfl | later
      · exact .inr (ih (.inl rfl))
      · exact .inl rfl
      · exact .inr (ih (.inr later))

namespace Table

/-- A key that is put in is found there, and every other key as before. -/
lemma get?_insert [Std.TransOrd κ] [Std.LawfulEqOrd κ] (t : Table κ α) (k j : κ) (a : α) :
    (t.insert k a).get? j = if compare j k = .eq then some a else t.get? j := by
  simp only [get?, insert, find?_insertEntry]
  split <;> rfl

/-- A key that was just put in is found with its value. -/
@[simp]
lemma get?_insert_self [Std.TransOrd κ] [Std.LawfulEqOrd κ] (t : Table κ α) (k : κ) (a : α) :
    (t.insert k a).get? k = some a := by
  rw [get?_insert, if_pos Std.ReflOrd.compare_self]

/-- Another key is found as before. -/
lemma get?_insert_of_ne [Std.TransOrd κ] [Std.LawfulEqOrd κ] (t : Table κ α) {k j : κ} (a : α)
    (h : j ≠ k) : (t.insert k a).get? j = t.get? j := by
  rw [get?_insert, if_neg fun eq => h (Std.LawfulEqOrd.eq_of_compare eq)]

/-- Tables with the same entries are the same. -/
lemma ext_entries {t u : Table κ α} (h : t.entries = u.entries) : t = u := by
  cases t
  cases u
  cases h
  rfl

end Table

/-! ## Tables by their look-ups -/

/-- Entries with the same key are the same. -/
lemma KeysIncrease.eq_of_key [Std.TransOrd κ] {es : List (κ × α)} (h : KeysIncrease es)
    {e f : κ × α} (he : e ∈ es) (hf : f ∈ es) (same : e.1 = f.1) : e = f := by
  have irrefl (k : κ) : compare k k ≠ .lt := by
    rw [Std.ReflOrd.compare_self]
    decide
  induction es with
  | nil => cases he
  | cons g es ih =>
    obtain ⟨above, tail⟩ := List.pairwise_cons.1 h
    rcases List.mem_cons.1 he with rfl | later
    · rcases List.mem_cons.1 hf with rfl | later
      · rfl
      · exact absurd (same ▸ above f later) (irrefl _)
    · rcases List.mem_cons.1 hf with rfl | other
      · exact absurd (same ▸ above e later) (irrefl _)
      · exact ih tail later other

namespace Table

variable [Std.TransOrd κ] [Std.LawfulEqOrd κ]

/-- A look-up finds the entries of a table and nothing else. -/
lemma get?_eq_some_iff {t : Table κ α} {k : κ} {a : α} :
    t.get? k = some a ↔ (k, a) ∈ t.entries := by
  constructor
  · intro found
    obtain ⟨e, first, rfl⟩ := Option.map_eq_some_iff.1 found
    have same : k = e.1 := Std.LawfulEqOrd.eq_of_compare (by simpa using List.find?_some first)
    rw [same]
    exact List.mem_of_find?_eq_some first
  · intro member
    have there : (t.entries.find? fun e => compare k e.1 == .eq).isSome := by
      rw [List.find?_isSome]
      exact ⟨(k, a), member, by simp [Std.ReflOrd.compare_self]⟩
    obtain ⟨e, first⟩ := Option.isSome_iff_exists.1 there
    have same : k = e.1 := Std.LawfulEqOrd.eq_of_compare (by simpa using List.find?_some first)
    have only : e = (k, a) :=
      t.increasing.eq_of_key (List.mem_of_find?_eq_some first) member same.symm
    rw [get?, first, only]
    rfl

/-- Tables with the same look-ups are the same. -/
theorem ext_get? {t u : Table κ α} (h : ∀ k, t.get? k = u.get? k) : t = u := by
  have distinct (v : Table κ α) : v.entries.Nodup :=
    v.increasing.imp fun {e f} below same => by
      rw [same, Std.ReflOrd.compare_self] at below
      cases below
  have members : t.entries.Perm u.entries :=
    (List.perm_ext_iff_of_nodup (distinct t) (distinct u)).2 fun ⟨k, a⟩ => by
      rw [← get?_eq_some_iff, ← get?_eq_some_iff, h]
  apply ext_entries
  refine members.eq_of_pairwise (fun e f _ _ below above => ?_) t.increasing u.increasing
  rw [Std.OrientedOrd.eq_swap (a := f.1), below] at above
  cases above

/-- Of values under one key the last counts. -/
lemma insert_insert (t : Table κ α) (k : κ) (a b : α) :
    (t.insert k a).insert k b = t.insert k b := by
  apply ext_get?
  intro i
  by_cases same : i = k
  · subst same
    rw [get?_insert_self, get?_insert_self]
  · rw [get?_insert_of_ne _ _ same, get?_insert_of_ne _ _ same, get?_insert_of_ne _ _ same]

/-- Values under different keys may be put in either order. -/
lemma insert_comm (t : Table κ α) {k j : κ} (a b : α) (apart : k ≠ j) :
    (t.insert k a).insert j b = (t.insert j b).insert k a := by
  apply ext_get?
  intro i
  by_cases first : i = k
  · subst first
    rw [get?_insert_of_ne _ _ apart, get?_insert_self, get?_insert_self]
  · by_cases second : i = j
    · subst second
      rw [get?_insert_self, get?_insert_of_ne _ _ first, get?_insert_self]
    · rw [get?_insert_of_ne _ _ second, get?_insert_of_ne _ _ first,
        get?_insert_of_ne _ _ first, get?_insert_of_ne _ _ second]

end Table

end Preferences
