/-!
# Finite maps in key order

A `Table` lists its entries by strictly increasing key, so two tables with the same look-ups are the
same table and every listing of one is in key order.
-/

namespace Preferences

/-- Puts an entry into a list that is in key order, replacing the entry of an equal key. -/
def insertEntry {κ α : Type} [Ord κ] (k : κ) (a : α) : List (κ × α) → List (κ × α)
  | [] => [(k, a)]
  | e :: es =>
    match compare k e.1 with
    | .lt => (k, a) :: e :: es
    | .eq => (k, a) :: es
    | .gt => e :: insertEntry k a es

/-- The keys of a list of entries increase strictly. -/
def KeysIncrease {κ α : Type} [Ord κ] (es : List (κ × α)) : Prop :=
  es.Pairwise fun e f => compare e.1 f.1 = .lt

instance {κ α : Type} [Ord κ] (es : List (κ × α)) : Decidable (KeysIncrease es) := by
  unfold KeysIncrease; infer_instance

/-- An entry of the list after an insertion is the new one or an old one. -/
theorem mem_insertEntry {κ α : Type} [Ord κ] {k : κ} {a : α} {es : List (κ × α)} {e : κ × α}
    (h : e ∈ insertEntry k a es) : e = (k, a) ∨ e ∈ es := by
  induction es with
  | nil => simpa [insertEntry] using h
  | cons f es ih =>
    unfold insertEntry at h
    split at h
    · simpa using h
    · rcases List.mem_cons.1 h with h | h
      · exact .inl h
      · exact .inr (List.mem_cons_of_mem _ h)
    · rcases List.mem_cons.1 h with h | h
      · exact .inr (h ▸ List.mem_cons_self)
      · exact (ih h).imp_right (List.mem_cons_of_mem _)

/-- Insertion keeps the keys in order. -/
theorem KeysIncrease.insertEntry {κ α : Type} [Ord κ] [Std.TransOrd κ] [Std.LawfulEqOrd κ]
    {es : List (κ × α)} (h : KeysIncrease es) (k : κ) (a : α) :
    KeysIncrease (insertEntry k a es) := by
  induction es with
  | nil => simp [Preferences.insertEntry, KeysIncrease]
  | cons e es ih =>
    obtain ⟨above, tail⟩ := List.pairwise_cons.1 h
    unfold Preferences.insertEntry
    split
    next lt =>
      refine List.pairwise_cons.2 ⟨fun f hf => ?_, h⟩
      rcases List.mem_cons.1 hf with rfl | hf
      · exact lt
      · exact Std.TransCmp.lt_trans lt (above f hf)
    next eq =>
      have same : k = e.1 := Std.LawfulEqOrd.eq_of_compare eq
      exact List.pairwise_cons.2 ⟨fun f hf => same ▸ above f hf, tail⟩
    next gt =>
      refine List.pairwise_cons.2 ⟨fun f hf => ?_, ih tail⟩
      rcases mem_insertEntry hf with rfl | hf
      · exact Std.OrientedCmp.lt_of_gt gt
      · exact above f hf

/-- A finite map from `κ` to `α`. -/
structure Table (κ α : Type) [Ord κ] where
  /-- The entries in key order. -/
  entries : List (κ × α)
  /-- Keys increase strictly. -/
  increasing : KeysIncrease entries

namespace Table

variable {κ α : Type} [Ord κ]

/-- The map without entries. -/
def empty : Table κ α := ⟨[], List.Pairwise.nil⟩

instance : EmptyCollection (Table κ α) := ⟨empty⟩

/-- The value under a key. -/
def get? (t : Table κ α) (k : κ) : Option α :=
  (t.entries.find? fun e => compare k e.1 == .eq).map (·.2)

/-- Does the key have a value? -/
def contains (t : Table κ α) (k : κ) : Bool := (t.get? k).isSome

/-- The number of entries. -/
def size (t : Table κ α) : Nat := t.entries.length

/-- The map with a value under a key, in place of any earlier one. -/
def insert [Std.TransOrd κ] [Std.LawfulEqOrd κ] (t : Table κ α) (k : κ) (a : α) : Table κ α :=
  ⟨insertEntry k a t.entries, t.increasing.insertEntry k a⟩

/-- The map without a key. -/
def erase (t : Table κ α) (k : κ) : Table κ α :=
  ⟨t.entries.filter fun e => compare k e.1 != .eq, t.increasing.filter _⟩

/-- The map of a list of entries, in which the last entry of a key counts. -/
def ofList [Std.TransOrd κ] [Std.LawfulEqOrd κ] (es : List (κ × α)) : Table κ α :=
  es.foldl (fun t e => t.insert e.1 e.2) empty

/-- The keys in order. -/
def keys (t : Table κ α) : List κ := t.entries.map (·.1)

end Table

end Preferences
