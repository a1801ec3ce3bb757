import Preferences.Proofs.Json.Container
import Preferences.Proofs.Time.Timestamp
import Preferences.Shape.Reader

/-!
# Tables and records read back

A table is read back from a printed object with a member for each entry, and a record from one with
a member for each field, if the values inside them are. The members of a record may come in any
order: `Fields.Fills` says what one of them does to the slots of the fields.
-/

namespace Preferences

open Json

variable {l : Layout} {level depth : Nat}

/-- An instant is read as a clock shows it. -/
lemma reads_instantText (t : Instant) :
    Reads instantText (stringChars (String.ofList (Timestamp.render t))) t.told := by
  rw [instantText]
  apply reads_textAs
  rw [String.toList_ofList, Timestamp.parse_render]

/-! ## Tables -/

section Entries

variable {κ α : Type} [Ord κ] [Std.TransOrd κ] [Std.LawfulEqOrd κ] {key : List Char → Read κ}
  {shown : κ → String} {reader : List Char → Read α} {ms : List (String × Json)} {t : Table κ α}

/-- Members that show entries of a table put these entries, in whatever order they come. -/
lemma absorbs_entries (plain : l.Plain)
    (keyed : ∀ k rest, key (stringChars (shown k) ++ rest) = .ok (k, rest))
    (sound : ∀ m ∈ ms, ∃ k a, m.1 = shown k ∧ t.get? k = some a ∧
      Reads reader (m.2.render l (level + 1)) a) (u : Table κ α) :
    ∃ u', Absorbs key (fun k (t : Table κ α) cs =>
        match colon cs with
        | .error fault => .error fault
        | .ok cs => (reader cs).map fun p => (t.insert k p.1, p.2)) l level ms u u' ∧
      ∀ k, u'.get? k = if shown k ∈ ms.map Prod.fst then t.get? k else u.get? k := by
  induction ms generalizing u with
  | nil => exact ⟨u, .nil, fun k => rfl⟩
  | cons m ms ih =>
    obtain ⟨name, j⟩ := m
    obtain ⟨k, a, rfl, known, value⟩ := sound _ List.mem_cons_self
    obtain ⟨u', absorbed, found⟩ := ih (fun m later => sound m (List.mem_cons_of_mem _ later))
      (u.insert k a)
    refine ⟨u', .cons (keyed k) (fun rest stops => ?_) absorbed, fun k' => ?_⟩
    · obtain ⟨cs, colon, taken⟩ := colon_reads plain value stops
      simp only [colon, taken]
      rfl
    · -- keys that are shown alike are the same
      have inj (same : shown k' = shown k) : k' = k := by
        have read := (keyed k' []).symm.trans (same ▸ keyed k [])
        cases read
        rfl
      rw [found, List.map_cons]
      by_cases later : shown k' ∈ ms.map Prod.fst
      · rw [if_pos later, if_pos (List.mem_cons_of_mem _ later)]
      · rw [if_neg later]
        by_cases this : k' = k
        · subst this
          rw [Table.get?_insert_self, if_pos List.mem_cons_self, known]
        · have other : shown k' ∉ shown k :: ms.map Prod.fst := by
            rw [List.mem_cons, not_or]
            exact ⟨fun same => this (inj same), later⟩
          rw [Table.get?_insert_of_ne _ _ this, if_neg other]

/-- A map is read back from a printed object whose members show its entries. -/
lemma reads_entries (plain : l.Plain) {expected : String} {value : Nat → List Char → Read α}
    (shown : κ → String) (keyed : ∀ k rest, key (stringChars (shown k) ++ rest) = .ok (k, rest))
    (sound : ∀ m ∈ ms, ∃ k a, m.1 = shown k ∧ t.get? k = some a ∧
      Reads (value depth) (m.2.render l (level + 1)) a)
    (complete : ∀ k a, t.get? k = some a → shown k ∈ ms.map Prod.fst) :
    Reads (mapping (depth + 1) expected fun d ds =>
      members key (fun k (t : Table κ α) es =>
        match colon es with
        | .error fault => .error fault
        | .ok es => (value d es).map fun p => (t.insert k p.1, p.2))
        (ds.length + 1) true Table.empty ds) ((object ms).render l level) t := by
  apply reads_mapping
  intro rest
  obtain ⟨u, absorbed, found⟩ := absorbs_entries plain keyed sound Table.empty
  have same : u = t := by
    apply Table.ext_get?
    intro k
    rw [found]
    cases there : t.get? k with
    | some a => exact if_pos (complete k a there)
    | none => exact ite_self none
  rw [same] at absorbed
  exact members_of_absorbs plain absorbed rest

end Entries

/-- A table is read back from its printed object. -/
lemma reads_table (plain : l.Plain) {s : Shape} {toJson : s.Val → Json}
    (h : ∀ v, Reads (s.read depth) ((toJson v).render l (level + 1)) v) (t : Table String s.Val) :
    Reads ((Shape.table s).read (depth + 1))
      ((object (t.entries.map fun e => (e.1, toJson e.2))).render l level) t := by
  refine reads_entries plain id textKey_stringChars ?_ ?_
  · intro m there
    obtain ⟨⟨k, v⟩, entry, rfl⟩ := List.mem_map.1 there
    exact ⟨k, v, rfl, Table.get?_eq_some_iff.2 entry, h v⟩
  · intro k v found
    rw [List.map_map]
    exact List.mem_map_of_mem (f := fun e => e.1) (Table.get?_eq_some_iff.1 found)

/-! ## Records -/

/-- A member fills the slot of the field with its key, which was empty. -/
inductive Fields.Fills (l : Layout) (level depth : Nat) (k : String) (j : Json) :
    (fs : Fields) → fs.Slots → fs.Slots → Prop where
  | here {s : Shape} {fs : Fields} {v : s.Val} {slots : fs.Slots} :
    Reads (s.read depth) (j.render l (level + 1)) v →
    Fields.Fills l level depth k j (.cons k s fs) (none, slots) (some v, slots)
  | there {name : String} {s : Shape} {fs : Fields} {slot : Option s.Val}
    {slots slots' : fs.Slots} :
    k ≠ name →
    Fields.Fills l level depth k j fs slots slots' →
    Fields.Fills l level depth k j (.cons name s fs) (slot, slots) (slot, slots')

/-- A member whose value fills a slot is read up to where the value stops. -/
lemma Fields.Fills.readMember (plain : l.Plain) {k : String} {j : Json} {fs : Fields}
    {slots slots' : fs.Slots} (h : fs.Fills l level depth k j slots slots') {rest : List Char}
    (stops : Stops rest) :
    fs.readMember k depth slots (l.colon ++ j.render l (level + 1) ++ rest) =
      .ok (slots', rest) := by
  induction h with
  | here value =>
    obtain ⟨cs, colon, taken⟩ := colon_reads plain value stops
    simp only [Fields.readMember, if_true, colon, taken]
    rfl
  | there apart _ ih =>
    simp only [Fields.readMember, if_neg apart, ih]
    rfl

/-- One more member of a record. -/
lemma Json.Absorbs.fill (plain : l.Plain) {k : String} {j : Json} {ms : List (String × Json)}
    {fs : Fields} {slots slots' slots'' : fs.Slots}
    (h : fs.Fills l level depth k j slots slots')
    (rest : Absorbs textKey (fun k slots cs => fs.readMember k depth slots cs) l level ms slots'
      slots'') :
    Absorbs textKey (fun k slots cs => fs.readMember k depth slots cs) l level ((k, j) :: ms) slots
      slots'' :=
  .cons (textKey_stringChars k) (fun _ stops => h.readMember plain stops) rest

/-- A record is read back from a printed object whose members fill all its slots. -/
lemma reads_record (plain : l.Plain) {name : String} {fs : Fields} {ms : List (String × Json)}
    {slots : fs.Slots} {vs : fs.Val}
    (absorbed : Absorbs textKey (fun k slots cs => fs.readMember k depth slots cs) l level ms
      fs.noSlots slots)
    (collected : ∀ cs, fs.collect cs slots = .ok vs) :
    Reads ((Shape.record name fs).read (depth + 1)) ((object ms).render l level) vs := by
  apply reads_aggregate
  intro rest
  rw [Fields.gather, members_of_absorbs plain absorbed rest]
  simp only [collected]
  rfl

end Preferences
