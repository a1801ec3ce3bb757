import Mathlib.Data.List.Forall2
import Preferences.Proofs.Shape.Container

/-!
# Structured values read back

A value is written as a JSON value, which is printed in canonical form, and read straight into its
type: two recursions on the shape. They agree on every exact shape: one whose numbers are integers
that JSON holds, whose optional values cannot be taken for `null`, and whose names differ. Main
statement: `Shape.roundTrips`, from one lemma for each way to make a shape.
-/

namespace Preferences

open Json

/-! ## Shapes -/

/-- Has the shape a null among its values? -/
def Shape.nullable : Shape → Bool
  | .optional _ => true
  | _ => false

/-- The names of the fields, in order. -/
def Fields.names : Fields → List String
  | .nil => []
  | .cons name _ fs => name :: fs.names

/-- Induction on the fields alone. -/
@[elab_as_elim, induction_eliminator]
theorem Fields.induction {P : Fields → Prop} (nil : P .nil)
    (cons : ∀ name s fs, P fs → P (.cons name s fs)) : ∀ fs, P fs
  | .nil => nil
  | .cons name s fs => cons name s fs (Fields.induction nil cons fs)

mutual

/-- The values of the shape can be told apart by their texts: its numbers are integers that JSON
holds, it has no instants, what may be missing is not itself `null`, and the names of fields and
variants differ. -/
def Shape.exact : Shape → Bool
  | .flag | .text => true
  | .word w => w != .int128 && w != .nat128
  | .real | .tree | .instant | .stored => false
  | .optional s => !s.nullable && s.exact
  | .sequence s => s.exact
  | .ledger s => s.exact
  | .table s => s.exact
  | .tuple _ fs => fs.exact
  | .record _ fs => decide fs.names.Nodup && fs.exact
  | .choice _ vs => decide vs.names.Nodup && vs.exact
termination_by structural s => s

/-- Are the values of all fields read back exactly? -/
def Fields.exact : Fields → Bool
  | .nil => true
  | .cons _ s fs => s.exact && fs.exact
termination_by structural fs => fs

/-- Are the values of all variants read back exactly? -/
def Variants.exact : Variants → Bool
  | .nil => true
  | .bare _ vs => vs.exact
  | .single _ s vs => s.exact && vs.exact
  | .fields _ fs vs => decide fs.names.Nodup && fs.exact && vs.exact
termination_by structural vs => vs

end

mutual

/-- How many brackets are open at a time in a text of the shape. -/
def Shape.depth : Shape → Nat
  | .flag | .text | .word _ | .real | .tree | .instant | .stored => 0
  | .optional s => s.depth
  | .sequence s => s.depth + 1
  | .ledger s => s.depth + 1
  | .table s => s.depth + 1
  | .tuple _ fs => fs.depth + 1
  | .record _ fs => fs.depth + 1
  | .choice _ vs => vs.depth + 1
termination_by structural s => s

/-- How deep the values of the fields nest. -/
def Fields.depth : Fields → Nat
  | .nil => 0
  | .cons _ s fs => max s.depth fs.depth
termination_by structural fs => fs

/-- How deep the values of the variants nest. -/
def Variants.depth : Variants → Nat
  | .nil => 0
  | .bare _ vs => vs.depth
  | .single _ s vs => max s.depth vs.depth
  | .fields _ fs vs => max (fs.depth + 1) vs.depth
termination_by structural vs => vs

end

/-- The value is read from any printed text of the canonical form. -/
structure Shape.ReadFrom (s : Shape) (v : s.Val) (j : Json) : Prop where
  begins : ∀ l level, Begins s.nullable (j.canon.render l level)
  reads : ∀ {l level depth}, l.Plain → s.depth ≤ depth →
    Reads (s.read depth) (j.canon.render l level) v

/-- The values of the fields are read from JSON values in their order. -/
def Fields.ReadFrom : (fs : Fields) → fs.Val → List Json → Prop
  | .nil, _, js => js = []
  | .cons _ s fs, (v, vs), js => ∃ j rest, js = j :: rest ∧ s.ReadFrom v j ∧ fs.ReadFrom vs rest

/-! ## Fields -/

/-- The slots of the fields with some names are filled. -/
def Fields.slotsOf (ks : List String) : (fs : Fields) → fs.Val → fs.Slots
  | .nil, _ => ()
  | .cons name _ fs, (v, vs) => (if name ∈ ks then some v else none, fs.slotsOf ks vs)

namespace Fields

variable {l : Layout} {level depth : Nat}

/-- Before any member is read no slot is filled. -/
lemma slotsOf_nil (fs : Fields) (vs : fs.Val) : fs.slotsOf [] vs = fs.noSlots := by
  induction fs with
  | nil => rfl
  | cons name s fs ih =>
    obtain ⟨v, vs⟩ := vs
    exact congrArg (none, ·) (ih vs)

/-- A key that no field has fills no slot. -/
lemma slotsOf_cons {fs : Fields} {k : String} (foreign : k ∉ fs.names) (ks : List String)
    (vs : fs.Val) : fs.slotsOf (k :: ks) vs = fs.slotsOf ks vs := by
  induction fs with
  | nil => rfl
  | cons name s fs ih =>
    obtain ⟨v, vs⟩ := vs
    rw [names, List.mem_cons, not_or] at foreign
    have other : name ∈ k :: ks ↔ name ∈ ks := by
      rw [List.mem_cons, or_iff_right (Ne.symm foreign.1)]
    exact Prod.ext (if_congr other rfl rfl) (ih foreign.2 vs)

/-- Where all fields have been read the slots hold all values. -/
lemma collect_slotsOf {fs : Fields} {ks : List String} (all : ∀ name ∈ fs.names, name ∈ ks)
    (vs : fs.Val) (cs : List Char) : fs.collect cs (fs.slotsOf ks vs) = .ok vs := by
  induction fs with
  | nil => rfl
  | cons name s fs ih =>
    obtain ⟨v, vs⟩ := vs
    have rest := ih (fun other there => all other (List.mem_cons_of_mem _ there)) vs
    simp only [slotsOf, if_pos (all name List.mem_cons_self), collect]
    show (fs.collect cs (fs.slotsOf ks vs) >>= _) = _
    rw [rest]
    rfl

/-- Fields are read from as many values as they have names. -/
lemma ReadFrom.length {fs : Fields} {vs : fs.Val} {js : List Json} (h : fs.ReadFrom vs js) :
    js.length = fs.names.length := by
  induction fs generalizing js with
  | nil => exact congrArg List.length h
  | cons name s fs ih =>
    obtain ⟨v, vs⟩ := vs
    obtain ⟨j, rest, rfl, _, others⟩ := h
    exact congrArg (· + 1) (ih others)

/-- The value of a field fills the field's slot, if no member with its name came before. -/
lemma ReadFrom.fills (plain : l.Plain) {fs : Fields} {vs : fs.Val} {js : List Json}
    (h : fs.ReadFrom vs js) (deep : fs.depth ≤ depth) (nodup : fs.names.Nodup) {k : String}
    {j : Json} (there : (k, j) ∈ fs.names.zip js) {ks : List String} (new : k ∉ ks) :
    fs.Fills l level depth k j.canon (fs.slotsOf ks vs) (fs.slotsOf (k :: ks) vs) := by
  induction fs generalizing js with
  | nil => cases there
  | cons name s fs ih =>
    obtain ⟨v, vs⟩ := vs
    obtain ⟨i, rest, rfl, value, others⟩ := h
    obtain ⟨apart, nodup⟩ := List.nodup_cons.1 nodup
    rw [Fields.depth, Nat.max_le] at deep
    rw [names, List.zip_cons_cons, List.mem_cons] at there
    -- the names differ, so that the key fills one slot and leaves the others
    rcases there with same | later
    · cases same
      have filled : fs.slotsOf (k :: ks) vs = fs.slotsOf ks vs := slotsOf_cons apart ks vs
      simp only [slotsOf, if_neg new, if_pos List.mem_cons_self, filled]
      exact .here (value.reads plain deep.1)
    · have other : k ≠ name := by
        rintro rfl
        exact apart (List.of_mem_zip later).1
      have unchanged : name ∈ k :: ks ↔ name ∈ ks := by
        rw [List.mem_cons, or_iff_right other.symm]
      simp only [slotsOf, unchanged]
      exact .there other (ih others deep.2 nodup later)

/-- Members of some fields, in whatever order they come, fill their slots. -/
lemma ReadFrom.absorbs (plain : l.Plain) {fs : Fields} {vs : fs.Val} {js : List Json}
    (h : fs.ReadFrom vs js) (deep : fs.depth ≤ depth) (nodup : fs.names.Nodup)
    {ms : List (String × Json)} (sound : ∀ m ∈ ms, ∃ n ∈ fs.names.zip js, m = (n.1, n.2.canon))
    (distinct : (ms.map Prod.fst).Nodup) {ks : List String}
    (new : ∀ m ∈ ms, m.1 ∉ ks) :
    ∃ ks', Absorbs textKey (fun k slots cs => fs.readMember k depth slots cs) l level ms
      (fs.slotsOf ks vs) (fs.slotsOf ks' vs) ∧ ∀ k, k ∈ ms.map Prod.fst ∨ k ∈ ks → k ∈ ks' := by
  induction ms generalizing ks with
  | nil => exact ⟨ks, .nil, fun k there => there.resolve_left List.not_mem_nil⟩
  | cons m ms ih =>
    obtain ⟨⟨k, j⟩, there, rfl⟩ := sound m List.mem_cons_self
    obtain ⟨apart, distinct⟩ := List.nodup_cons.1 distinct
    have filled : fs.Fills l level depth k j.canon (fs.slotsOf ks vs) (fs.slotsOf (k :: ks) vs) :=
      h.fills plain deep nodup there (new _ List.mem_cons_self)
    have fresh : ∀ m ∈ ms, m.1 ∉ k :: ks := by
      intro m later
      rw [List.mem_cons, not_or]
      refine ⟨?_, new m (List.mem_cons_of_mem _ later)⟩
      rintro rfl
      have again : m.1 ∈ ms.map Prod.fst := List.mem_map_of_mem later
      exact apart again
    obtain ⟨ks', absorbed, all⟩ :=
      ih (fun m later => sound m (List.mem_cons_of_mem _ later)) distinct fresh
    -- which names are met first does not matter, since no two members have the same
    refine ⟨ks', .fill plain filled absorbed, ?_⟩
    rintro k' (there | there)
    · rw [List.map_cons, List.mem_cons] at there
      rcases there with rfl | later
      · exact all _ (.inr List.mem_cons_self)
      · exact all _ (.inl later)
    · exact all _ (.inr (List.mem_cons_of_mem _ there))

/-- Fields are read from the members of an object, in whatever order these stand. -/
lemma ReadFrom.gather (plain : l.Plain) {fs : Fields} {vs : fs.Val} {js : List Json}
    (h : fs.ReadFrom vs js) (deep : fs.depth ≤ depth) (nodup : fs.names.Nodup)
    (rest : List Char) :
    fs.gather (fun k slots es => fs.readMember k depth slots es)
      (renderMembers l level true (canonMembers [] (fs.names.zip js)) ++ rest) =
        .ok (vs, '\x7d' :: rest) := by
  have sound : ∀ m ∈ canonMembers [] (fs.names.zip js),
      ∃ n ∈ fs.names.zip js, m = (n.1, n.2.canon) := by
    intro m there
    exact (mem_canonMembers there).resolve_left List.not_mem_nil
  obtain ⟨ks, absorbed, all⟩ := h.absorbs plain deep nodup sound
    (nodup_keys_canonMembers _) fun _ _ => List.not_mem_nil
  have named : ∀ name ∈ fs.names, name ∈ ks := by
    intro name there
    refine all name (.inl (mem_keys_canonMembers (.inr ?_)))
    rwa [List.map_fst_zip (Nat.le_of_eq h.length.symm)]
  rw [slotsOf_nil] at absorbed
  rw [Fields.gather, members_of_absorbs plain absorbed rest]
  simp only [collect_slotsOf named]
  rfl

/-- Fields are read from an object where an object or a list may stand. -/
lemma ReadFrom.aggregate (plain : l.Plain) {fs : Fields} {vs : fs.Val} {js : List Json}
    (h : fs.ReadFrom vs js) (deep : fs.depth ≤ depth) (nodup : fs.names.Nodup) (expected : String)
    (ofList : Nat → List Char → Read fs.Val) :
    Reads (aggregate (depth + 1) expected ofList fun d ds =>
      fs.gather (fun k slots es => fs.readMember k d slots es) ds)
        ((object (fs.names.zip js)).canon.render l level) vs := by
  rw [canon]
  exact reads_aggregate (h.gather plain deep nodup)

/-- Fields are read from the items of a list, in their order. -/
lemma ReadFrom.readItems (plain : l.Plain) {fs : Fields} {vs : fs.Val} {js : List Json}
    (h : fs.ReadFrom vs js) (deep : fs.depth ≤ depth) (expected : String) (index : Nat)
    (rest : List Char) :
    ∃ blanks, Blanks blanks ∧ fs.readItems expected index depth
      (renderItems l level (index == 0) (js.map canon) ++ rest) =
        .ok (vs, blanks ++ ']' :: rest) := by
  induction fs generalizing js index with
  | nil =>
    cases h
    obtain ⟨blanks, hb, text⟩ := renderItems_nil plain level (index == 0)
    refine ⟨blanks, hb, ?_⟩
    rw [List.map_nil, text, List.append_assoc]
    rfl
  | cons name s fs ih =>
    obtain ⟨v, vs⟩ := vs
    obtain ⟨j, others, rfl, value, later⟩ := h
    rw [Fields.depth, Nat.max_le] at deep
    obtain ⟨blanks, hb, read⟩ := ih later deep.2 (index + 1)
    have taken : s.read depth (j.canon.render l (level + 1) ++ _) = .ok (v, _) :=
      value.reads plain deep.1 [] _ Blanks.nil
        (stops_renderItems plain level (others.map canon) rest)
    have next := nextItem_cons plain (index == 0) (value.begins l (level + 1))
      (others.map canon) rest
    refine ⟨blanks, hb, ?_⟩
    simp only [Fields.readItems, List.map_cons, next, taken]
    exact congrArg (Except.map fun p => ((v, p.1), p.2)) read

end Fields

/-! ## Round trips -/

/-- Every value is written, and read back from what is written. -/
def Shape.RoundTrips (s : Shape) : Prop := ∀ v, ∃ j, s.toJson v = .ok j ∧ s.ReadFrom v j

/-- All values of the fields are read back from what they are written as. -/
def Fields.RoundTrips (fs : Fields) : Prop :=
  ∀ vs, ∃ js, fs.toItems vs = .ok js ∧ fs.toMembers vs = .ok (fs.names.zip js) ∧ fs.ReadFrom vs js

/-- A variant is written as its name, or as an object with its name and what it holds, and read back
from that. -/
def Variants.Returns (vs : Variants) (v : vs.Val) : Prop :=
  ∃ name ∈ vs.names,
    (vs.toJson v = .ok (.string name) ∧ ∀ cs, vs.readAlone name cs = .ok (v, cs)) ∨
    ∃ j, vs.toJson v = .ok (.object [(name, j)]) ∧
      ∀ {choice l level depth}, l.Plain → vs.depth ≤ depth →
        Reads (vs.readKeyed choice name depth) (j.canon.render l level) v

/-- All values of the variants are read back from what they are written as. -/
def Variants.RoundTrips (vs : Variants) : Prop := ∀ v, vs.Returns v

/-- A field more is read back with the others. -/
lemma Fields.RoundTrips.cons (name : String) {s : Shape} {fs : Fields} (first : s.RoundTrips)
    (others : fs.RoundTrips) : (Fields.cons name s fs).RoundTrips := by
  rintro ⟨v, vs⟩
  obtain ⟨j, encoded, value⟩ := first v
  obtain ⟨js, items, members, values⟩ := others vs
  refine ⟨j :: js, ?_, ?_, j, js, rfl, value, values⟩
  · rw [Fields.toItems, encoded, items]
    rfl
  · rw [Fields.toMembers, encoded, members]
    rfl

section Begins

variable {nullable : Bool} (l : Layout) (level : Nat)

/-- A string begins with its quote. -/
lemma begins_string (t : String) : Begins nullable ((string t).canon.render l level) :=
  ⟨'"', _, rfl, by decide, by decide, fun _ => by decide⟩

/-- A list begins with its bracket. -/
lemma begins_array (js : List Json) : Begins nullable ((array js).canon.render l level) :=
  ⟨'[', _, rfl, by decide, by decide, fun _ => by decide⟩

/-- An object begins with its brace. -/
lemma begins_object (ms : List (String × Json)) :
    Begins nullable ((object ms).canon.render l level) :=
  ⟨'\x7b', _, rfl, by decide, by decide, fun _ => by decide⟩

end Begins

/-- A value with a bracket around it is read one bracket deeper. -/
lemma Shape.ReadFrom.deeper {s : Shape} {v : s.Val} {j : Json} {d : Nat} (deep : s.depth = d + 1)
    (begins : ∀ l level, Begins s.nullable (j.canon.render l level))
    (reads : ∀ {l level depth}, l.Plain → d ≤ depth →
      Reads (s.read (depth + 1)) (j.canon.render l level) v) : s.ReadFrom v j := by
  refine ⟨begins, fun {l level depth} plain enough => ?_⟩
  rw [deep] at enough
  cases depth with
  | zero => cases enough
  | succ depth => exact reads plain (Nat.le_of_succ_le_succ enough)

namespace Shape.RoundTrips

/-- A flag is read back. -/
lemma flag : Shape.flag.RoundTrips := by
  intro b
  refine ⟨.bool b, rfl, ?_, fun _ _ => reads_flag b _ _⟩
  intro l level
  cases b with
  | false => exact ⟨'f', _, rfl, by decide, by decide, fun _ => by decide⟩
  | true => exact ⟨'t', _, rfl, by decide, by decide, fun _ => by decide⟩

/-- A text is read back. -/
lemma text : Shape.text.RoundTrips := by
  intro t
  exact ⟨.string t, rfl, fun l level => begins_string l level t, fun _ _ => reads_text t⟩

/-- A word of up to 64 bits is read back. -/
lemma word {w : Width} (small : w ≠ .int128 ∧ w ≠ .nat128) : (Shape.word w).RoundTrips := by
  intro z
  have wide : -0x8000000000000000 ≤ w.lo ∧ w.hi ≤ 0xffffffffffffffff := by
    cases w <;> first | decide | exact absurd rfl small.1 | exact absurd rfl small.2
  have lo := Int.le_trans wide.1 (Ranged.lo_le z)
  have hi := Int.le_trans (Ranged.le_hi z) wide.2
  have encoded : (Shape.word w).toJson z = .ok (.number (.int ⟨Ranged.val z, lo, hi⟩)) := by
    rw [Shape.toJson, wholeJson, Ranged.ofInt?, dif_pos ⟨lo, hi⟩]
  have narrow : ¬ (w = .int128 ∨ w = .nat128) := not_or.2 small
  refine ⟨_, encoded, ?_, ?_⟩
  · intro l level
    obtain ⟨c, cs, digits, number⟩ := intDigits_head (Ranged.val z)
    refine ⟨c, cs, digits, isSpace_of_number number, ?_, fun _ => ?_⟩
    · rintro rfl
      exact absurd number (by decide)
    · rintro rfl
      exact absurd number (by decide)
  · intro l level depth _ _ blanks rest hb stops
    exact (if_neg narrow).trans (reads_word wide z blanks rest hb stops)

variable {s : Shape}

/-- An optional value is read back where null stands for nothing else. -/
lemma optional (h : s.RoundTrips) (solid : s.nullable = false) : (Shape.optional s).RoundTrips := by
  intro o
  cases o with
  | none =>
    refine ⟨.null, rfl, ?_, ?_⟩
    · intro l level
      exact ⟨'n', _, rfl, by decide, by decide, nofun⟩
    · intro l level depth _ _ blanks rest hb _
      show Json.optional (s.read depth) (blanks ++ 'n' :: 'u' :: 'l' :: ['l'] ++ rest) = _
      rw [List.append_assoc, List.cons_append, Json.optional, skipSpace_append hb _ (by decide)]
      rfl
  | some v =>
    obtain ⟨j, encoded, value⟩ := h v
    refine ⟨j, encoded, ?_, ?_⟩
    · intro l level
      obtain ⟨c, cs, text, graphic, bracket, -⟩ := value.begins l level
      exact ⟨c, cs, text, graphic, bracket, nofun⟩
    · intro l level depth plain deep blanks rest hb stops
      obtain ⟨c, cs, text, graphic, -, present⟩ := value.begins l level
      have taken : s.read depth (j.canon.render l level ++ rest) = .ok (v, rest) :=
        value.reads plain deep [] rest Blanks.nil stops
      rw [text, List.cons_append] at taken
      rw [text, List.append_assoc, List.cons_append, Shape.read, Json.optional,
        skipSpace_append hb _ graphic]
      split
      next ds same =>
        -- only a value that may itself be missing begins as `null` does
        cases same
        exact absurd rfl (present solid)
      next =>
        simp only [bind, Except.bind, taken]
        rfl

/-- A sequence of values that are read back is read back. -/
lemma sequence (h : s.RoundTrips) : (Shape.sequence s).RoundTrips := by
  intro (vs : List s.Val)
  obtain ⟨js, encoded, values⟩ : ∃ js, encodeItems s.toJson vs = .ok js ∧
      List.Forall₂ (fun j v => s.ReadFrom v j) js vs := by
    induction vs with
    | nil => exact ⟨[], rfl, .nil⟩
    | cons v vs ih =>
      obtain ⟨j, encoded, value⟩ := h v
      obtain ⟨js, others, values⟩ := ih
      refine ⟨j :: js, ?_, .cons value values⟩
      rw [encodeItems, encoded, others]
      rfl
  refine ⟨.array js, congrArg (Except.map Json.array) encoded, .deeper rfl ?_ ?_⟩
  · exact fun l level => begins_array l level js
  · intro l level depth plain deep
    rw [canon, canonItems_eq_map]
    refine reads_sequence fun rest => ⟨[], Blanks.nil, ?_⟩
    have items : List.Forall₂ (fun j v => Reads (s.read depth) (j.render l (level + 1)) v ∧
        Begins true (j.render l (level + 1))) (js.map canon) vs := by
      rw [List.forall₂_map_left_iff]
      refine values.imp fun j v value => ⟨value.reads plain deep, ?_⟩
      obtain ⟨c, cs, text, graphic, bracket, -⟩ := value.begins l (level + 1)
      exact ⟨c, cs, text, graphic, bracket, nofun⟩
    refine items_renderItems plain items ?_ true rest
    -- the reader may take as many items as the text has characters, which is more than there are
    have long := length_lt_renderItems l level true (js.map canon)
    rw [List.length_append]
    omega

/-- A map whose keys are read as they are shown. -/
lemma entries (h : s.RoundTrips) {κ : Type} [Ord κ] [Std.TransOrd κ] [Std.LawfulEqOrd κ]
    {key : List Char → Read κ} (shown : κ → String)
    (keyed : ∀ k rest, key (stringChars (shown k) ++ rest) = .ok (k, rest))
    (t : Table κ s.Val) :
    ∃ ms, encodeEntries shown s.toJson t.entries = .ok ms ∧
      ∀ {l level depth}, l.Plain → s.depth ≤ depth →
        Reads (mapping (depth + 1) "a map" fun d ds =>
          members key (fun k (t : Table κ s.Val) es =>
            match colon es with
            | .error fault => .error fault
            | .ok es => (s.read d es).map fun p => (t.insert k p.1, p.2))
            (ds.length + 1) true Table.empty ds) ((object ms).canon.render l level) t := by
  obtain ⟨ms, encoded, values, keys⟩ : ∃ ms, encodeEntries shown s.toJson t.entries = .ok ms ∧
      (∀ m ∈ ms, ∃ e ∈ t.entries, m.1 = shown e.1 ∧ s.ReadFrom e.2 m.2) ∧
      ms.map Prod.fst = t.entries.map fun e => shown e.1 := by
    generalize t.entries = es
    induction es with
    | nil => exact ⟨[], rfl, nofun, rfl⟩
    | cons e es ih =>
      obtain ⟨j, encoded, value⟩ := h e.2
      obtain ⟨ms, others, values, keys⟩ := ih
      refine ⟨(shown e.1, j) :: ms, ?_, ?_, ?_⟩
      · rw [encodeEntries, encoded, others]
        rfl
      · intro m there
        rcases List.mem_cons.1 there with rfl | later
        · exact ⟨e, List.mem_cons_self, rfl, value⟩
        · obtain ⟨f, entry, known⟩ := values m later
          exact ⟨f, List.mem_cons_of_mem _ entry, known⟩
      · rw [List.map_cons, List.map_cons, keys]
  -- the members come sorted by the texts of the keys, the entries by the keys themselves
  refine ⟨ms, encoded, fun {l level depth} plain deep => ?_⟩
  rw [canon]
  refine reads_entries plain shown keyed ?_ ?_
  · intro m there
    obtain ⟨n, listed, rfl⟩ := (mem_canonMembers there).resolve_left List.not_mem_nil
    obtain ⟨e, entry, name, value⟩ := values n listed
    exact ⟨e.1, e.2, name, Table.get?_eq_some_iff.2 entry, value.reads plain deep⟩
  · intro k v found
    apply mem_keys_canonMembers
    rw [keys]
    exact .inr (List.mem_map_of_mem (f := fun e => shown e.1) (Table.get?_eq_some_iff.1 found))

/-- A table of values that are read back is read back. -/
lemma table (h : s.RoundTrips) : (Shape.table s).RoundTrips := by
  intro (t : Table String s.Val)
  obtain ⟨ms, encoded, reads⟩ := h.entries id textKey_stringChars t
  refine ⟨.object ms, congrArg (Except.map Json.object) encoded, .deeper rfl ?_ reads⟩
  exact fun l level => begins_object l level ms

/-- A ledger of values that are read back is read back. -/
lemma ledger (h : s.RoundTrips) : (Shape.ledger s).RoundTrips := by
  intro (t : Table (Word .int64) s.Val)
  obtain ⟨ms, encoded, reads⟩ := h.entries (fun k : Word .int64 => String.ofList (intDigits k.val))
    wordKey_intDigits t
  refine ⟨.object ms, congrArg (Except.map Json.object) encoded, .deeper rfl ?_ reads⟩
  exact fun l level => begins_object l level ms

variable {fs : Fields}

/-- A tuple of fields that are read back is read back. -/
lemma tuple (name : String) (h : fs.RoundTrips) : (Shape.tuple name fs).RoundTrips := by
  intro vs
  obtain ⟨js, encoded, -, values⟩ := h vs
  refine ⟨.array js, congrArg (Except.map Json.array) encoded, .deeper rfl ?_ ?_⟩
  · exact fun l level => begins_array l level js
  · intro l level depth plain deep
    rw [canon, canonItems_eq_map]
    exact reads_sequence fun rest => values.readItems plain deep _ 0 rest

/-- A record of fields that are read back is read back, if their names differ. -/
lemma record (name : String) (h : fs.RoundTrips) (nodup : fs.names.Nodup) :
    (Shape.record name fs).RoundTrips := by
  intro vs
  obtain ⟨js, -, encoded, values⟩ := h vs
  refine ⟨.object (fs.names.zip js), congrArg (Except.map Json.object) encoded, .deeper rfl ?_ ?_⟩
  · exact fun l level => begins_object l level _
  · intro l level depth plain deep
    exact values.aggregate plain deep nodup _ _

/-- A choice of variants that are read back is read back. -/
lemma choice (name : String) {vs : Variants} (h : vs.RoundTrips) :
    (Shape.choice name vs).RoundTrips := by
  intro v
  obtain ⟨known, listed, ⟨encoded, taken⟩ | ⟨j, encoded, reads⟩⟩ := h v
  · exact ⟨.string known, encoded, fun l level => begins_string l level known,
      fun _ _ => reads_variant_alone listed taken⟩
  · refine ⟨.object [(known, j)], encoded, .deeper rfl ?_ ?_⟩
    · exact fun l level => begins_object l level _
    · intro l level depth plain deep
      exact reads_variant_keyed plain listed (reads plain deep)

end Shape.RoundTrips

namespace Variants.RoundTrips

variable {vs : Variants} {name : String}

/-- Without variants there is nothing to read back. -/
lemma nil : Variants.nil.RoundTrips := nofun

/-- A variant after the first is passed on to the others, since it has another name. -/
lemma later (h : vs.RoundTrips) (new : name ∉ vs.names) {all : Variants} {v : vs.Val} {v' : all.Val}
    (names : all.names = name :: vs.names) (encodes : all.toJson v' = vs.toJson v)
    (alone : ∀ {known cs}, known ≠ name → vs.readAlone known cs = .ok (v, cs) →
      all.readAlone known cs = .ok (v', cs))
    (keyed : ∀ {choice known depth cs rest}, known ≠ name →
      vs.readKeyed choice known depth cs = .ok (v, rest) →
      all.readKeyed choice known depth cs = .ok (v', rest))
    (deep : vs.depth ≤ all.depth) : all.Returns v' := by
  obtain ⟨known, listed, rest⟩ := h v
  have other : known ≠ name := by
    rintro rfl
    exact new listed
  refine ⟨known, names ▸ List.mem_cons_of_mem _ listed, ?_⟩
  rcases rest with ⟨encoded, taken⟩ | ⟨j, encoded, reads⟩
  · exact .inl ⟨encodes.trans encoded, fun cs => alone other (taken cs)⟩
  · refine .inr ⟨j, encodes.trans encoded, fun plain enough blanks rest hb stops => ?_⟩
    exact keyed other (reads plain (Nat.le_trans deep enough) blanks rest hb stops)

/-- A variant without a value is read back with the others, if its name is new. -/
lemma bare (h : vs.RoundTrips) (new : name ∉ vs.names) : (Variants.bare name vs).RoundTrips := by
  rintro (v | v)
  · exact ⟨name, List.mem_cons_self, .inl ⟨rfl, fun cs => if_pos rfl⟩⟩
  · refine h.later new rfl rfl ?_ ?_ (Nat.le_refl _)
    · intro known cs other taken
      rw [Variants.readAlone, if_neg other, taken]
      rfl
    · intro choice known depth cs rest other taken
      rw [Variants.readKeyed, if_neg other, taken]
      rfl

/-- A variant with one value is read back with the others, if its name is new. -/
lemma single {s : Shape} (value : s.RoundTrips) (h : vs.RoundTrips) (new : name ∉ vs.names) :
    (Variants.single name s vs).RoundTrips := by
  rintro (v | v)
  · obtain ⟨j, encoded, held⟩ := value v
    refine ⟨name, List.mem_cons_self, .inr ⟨j, ?_, ?_⟩⟩
    · rw [Variants.toJson, encoded]
      rfl
    · intro choice l level depth plain deep blanks rest hb stops
      have inside : Reads (s.read depth) (j.canon.render l level) v :=
        held.reads plain (Nat.le_trans (Nat.le_max_left _ _) deep)
      rw [Variants.readKeyed, if_pos rfl, inside blanks rest hb stops]
      rfl
  · refine h.later new rfl rfl ?_ ?_ (Nat.le_max_right _ _)
    · intro known cs other taken
      rw [Variants.readAlone, if_neg other, taken]
      rfl
    · intro choice known depth cs rest other taken
      rw [Variants.readKeyed, if_neg other, taken]
      rfl

/-- A variant with fields is read back with the others, if its name is new. -/
lemma fields {fs : Fields} (value : fs.RoundTrips) (nodup : fs.names.Nodup) (h : vs.RoundTrips)
    (new : name ∉ vs.names) : (Variants.fields name fs vs).RoundTrips := by
  rintro (v | v)
  · obtain ⟨js, -, encoded, values⟩ := value v
    refine ⟨name, List.mem_cons_self, .inr ⟨.object (fs.names.zip js), ?_, ?_⟩⟩
    · rw [Variants.toJson, encoded]
      rfl
    · intro choice l level depth plain deep blanks rest hb stops
      have enough : fs.depth + 1 ≤ depth := Nat.le_trans (Nat.le_max_left _ _) deep
      cases depth with
      | zero => cases enough
      | succ depth =>
        rw [Variants.readKeyed, if_pos rfl, values.aggregate plain (Nat.le_of_succ_le_succ enough)
          nodup _ _ blanks rest hb stops]
        rfl
  · refine h.later new rfl rfl ?_ ?_ (Nat.le_max_right _ _)
    · intro known cs other taken
      rw [Variants.readAlone, if_neg other, taken]
      rfl
    · intro choice known depth cs rest other taken
      rw [Variants.readKeyed, if_neg other, taken]
      rfl

end Variants.RoundTrips

mutual

/-- A value of an exact shape is read back from its text. -/
theorem Shape.roundTrips (s : Shape) (exact : s.exact = true) : s.RoundTrips := by
  cases s with
  | flag => exact .flag
  | text => exact .text
  | word w =>
    rw [Shape.exact, Bool.and_eq_true, bne_iff_ne, bne_iff_ne] at exact
    exact .word exact
  | real | tree | instant | stored => cases exact
  | optional s =>
    rw [Shape.exact, Bool.and_eq_true, Bool.not_eq_true'] at exact
    exact .optional (Shape.roundTrips s exact.2) exact.1
  | sequence s => exact .sequence (Shape.roundTrips s exact)
  | ledger s => exact .ledger (Shape.roundTrips s exact)
  | table s => exact .table (Shape.roundTrips s exact)
  | tuple name fs => exact .tuple name (Fields.roundTrips fs exact)
  | record name fs =>
    rw [Shape.exact, Bool.and_eq_true, decide_eq_true_iff] at exact
    exact .record name (Fields.roundTrips fs exact.2) exact.1
  | choice name vs =>
    rw [Shape.exact, Bool.and_eq_true, decide_eq_true_iff] at exact
    exact .choice name (Variants.roundTrips vs exact.2 exact.1)

/-- The values of fields that are all exact are read back. -/
theorem Fields.roundTrips (fs : Fields) (exact : fs.exact = true) : fs.RoundTrips := by
  cases fs with
  | nil => exact fun _ => ⟨[], rfl, rfl, rfl⟩
  | cons name s fs =>
    rw [Fields.exact, Bool.and_eq_true] at exact
    exact .cons name (Shape.roundTrips s exact.1) (Fields.roundTrips fs exact.2)

/-- The values of variants that are all exact, under names that differ, are read back. -/
theorem Variants.roundTrips (vs : Variants) (exact : vs.exact = true) (nodup : vs.names.Nodup) :
    vs.RoundTrips := by
  cases vs with
  | nil => exact .nil
  | bare name vs =>
    obtain ⟨new, nodup⟩ := List.nodup_cons.1 nodup
    exact .bare (Variants.roundTrips vs exact nodup) new
  | single name s vs =>
    rw [Variants.exact, Bool.and_eq_true] at exact
    obtain ⟨new, nodup⟩ := List.nodup_cons.1 nodup
    exact .single (Shape.roundTrips s exact.1) (Variants.roundTrips vs exact.2 nodup) new
  | fields name fs vs =>
    rw [Variants.exact, Bool.and_eq_true, Bool.and_eq_true, decide_eq_true_iff] at exact
    obtain ⟨new, nodup⟩ := List.nodup_cons.1 nodup
    exact .fields (Fields.roundTrips fs exact.1.2) exact.1.1
      (Variants.roundTrips vs exact.2 nodup) new

end

end Preferences
