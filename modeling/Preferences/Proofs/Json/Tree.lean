import Mathlib.Data.List.Forall2
import Preferences.Proofs.Json.Container
import Preferences.Proofs.Outcome

/-!
# Whole values read back

The reader of any value takes the text of a tree without floats for that tree, in every layout, if
it may open as many brackets as the tree nests. What it reads from a text nests no deeper than that,
and neither does its canonical form, so that what was once read is read again. Main statements:
`reads_render` and `fits_of_read`.
-/

namespace Preferences.Json

/-- The numbers of the tree are integers. -/
inductive FloatFree : Json → Prop where
  | null : FloatFree null
  | bool (b : Bool) : FloatFree (bool b)
  | int (z : WireInt) : FloatFree (number (.int z))
  | string (s : String) : FloatFree (string s)
  | array {items : List Json} : (∀ j ∈ items, j.FloatFree) → FloatFree (array items)
  | object {members : List (String × Json)} : (∀ m ∈ members, m.2.FloatFree) →
    FloatFree (object members)

/-- The tree has no more brackets open at a time. -/
def Fits : Nat → Json → Prop
  | 0, array _ | 0, object _ => False
  | n + 1, array items => ∀ j ∈ items, j.Fits n
  | n + 1, object members => ∀ m ∈ members, m.2.Fits n
  | _, _ => True

mutual

/-- How many brackets are open at a time, at most. -/
def nesting : Json → Nat
  | array items => nestingItems items + 1
  | object members => nestingMembers members + 1
  | null | bool _ | number _ | string _ => 0
termination_by structural j => j

/-- The nesting of the item that nests deepest. -/
def nestingItems : List Json → Nat
  | [] => 0
  | j :: js => max j.nesting (nestingItems js)
termination_by structural js => js

/-- The nesting of the member that nests deepest. -/
def nestingMembers : List (String × Json) → Nat
  | [] => 0
  | (_, j) :: ms => max j.nesting (nestingMembers ms)
termination_by structural ms => ms

end

variable {l : Layout} {level depth : Nat} {j : Json}

/-- Items nest as deep as the deepest of them. -/
lemma nestingItems_le {js : List Json} :
    nestingItems js ≤ depth ↔ ∀ j ∈ js, j.nesting ≤ depth := by
  induction js with
  | nil => simp [nestingItems]
  | cons j js ih => simp [nestingItems, ih]

/-- Members nest as deep as the deepest of their values. -/
lemma nestingMembers_le {ms : List (String × Json)} :
    nestingMembers ms ≤ depth ↔ ∀ m ∈ ms, m.2.nesting ≤ depth := by
  induction ms with
  | nil => simp [nestingMembers]
  | cons m ms ih =>
    obtain ⟨k, j⟩ := m
    simp [nestingMembers, ih]

/-- A tree fits into as many brackets as it nests. -/
lemma fits_iff : j.Fits depth ↔ j.nesting ≤ depth := by
  induction depth generalizing j with
  | zero => cases j <;> simp [Fits, nesting]
  | succ depth ih =>
    cases j with
    | null | bool | number | string => simp [Fits, nesting]
    | array js => simp only [Fits, nesting, Nat.succ_le_succ_iff, nestingItems_le, ih]
    | object ms => simp only [Fits, nesting, Nat.succ_le_succ_iff, nestingMembers_le, ih]

/-! ## Trees in canonical form -/

/-- To order the keys of a document brings no floats. -/
lemma FloatFree.canon (free : j.FloatFree) : j.canon.FloatFree := by
  induction free with
  | null => exact .null
  | bool b => exact .bool b
  | int z => exact .int z
  | string s => exact .string s
  | array _ ih =>
    rw [Json.canon, canonItems_eq_map]
    refine .array fun j there => ?_
    obtain ⟨i, earlier, rfl⟩ := List.mem_map.1 there
    exact ih i earlier
  | object _ ih =>
    rw [Json.canon]
    refine .object fun m there => ?_
    rcases mem_canonMembers there with done | ⟨n, earlier, rfl⟩
    · cases done
    · exact ih n earlier

/-- To order the keys of a document does not nest it deeper. -/
lemma Fits.canon (fits : j.Fits depth) : j.canon.Fits depth := by
  induction depth generalizing j with
  | zero =>
    cases j with
    | array | object => exact fits.elim
    | null | bool | number | string => trivial
  | succ depth ih =>
    cases j with
    | null | bool | number | string => trivial
    | array items =>
      rw [Json.canon, canonItems_eq_map]
      intro j there
      obtain ⟨i, earlier, rfl⟩ := List.mem_map.1 there
      exact ih (fits i earlier)
    | object members =>
      rw [Json.canon]
      intro m there
      rcases mem_canonMembers there with done | ⟨n, earlier, rfl⟩
      · cases done
      · exact ih (fits n earlier)

/-- An entry whose key is above all others goes to the end. -/
lemma insertEntry_of_above {k : String} {a : Json} {done : List (String × Json)}
    (above : ∀ e ∈ done, compare e.1 k = .lt) : insertEntry k a done = done ++ [(k, a)] := by
  induction done with
  | nil => rfl
  | cons e done ih =>
    have greater : compare k e.1 = .gt :=
      Std.OrientedCmp.gt_of_lt (above e List.mem_cons_self)
    rw [insertEntry, greater]
    dsimp only
    rw [ih fun f later => above f (List.mem_cons_of_mem _ later)]
    rfl

mutual

/-- A canonical tree is its own canonical form. -/
theorem canon_of_canonical (j : Json) (canonical : j.Canonical) : j.canon = j := by
  cases j with
  | null | bool | number | string => rfl
  | array items =>
    rw [canon, canonItems_of_canonical items canonical]
  | object members =>
    rw [canon, canonMembers_of_canonical members [] canonical.1 canonical.2]
    rfl

/-- Items in order stay as they are. -/
theorem canonItems_of_canonical (js : List Json) (canonical : CanonicalItems js) :
    canonItems js = js := by
  cases js with
  | nil => rfl
  | cons j js =>
    rw [canonItems, canon_of_canonical j canonical.1, canonItems_of_canonical js canonical.2]

/-- Members in order, behind others that come before them, stay as they are. -/
theorem canonMembers_of_canonical (ms done : List (String × Json))
    (increase : KeysIncrease (done ++ ms)) (canonical : CanonicalMembers ms) :
    canonMembers done ms = done ++ ms := by
  cases ms with
  | nil => exact (List.append_nil done).symm
  | cons m ms =>
    obtain ⟨k, j⟩ := m
    have above : ∀ e ∈ done, compare e.1 k = .lt := fun e there =>
      (List.pairwise_append.1 increase).2.2 e there (k, j) List.mem_cons_self
    rw [List.append_cons] at increase ⊢
    rw [canonMembers, canon_of_canonical j canonical.1, insertEntry_of_above above]
    exact canonMembers_of_canonical ms _ increase canonical.2

end

/-! ## What is read nests no deeper than allowed -/

section Loops

variable {α κ σ : Type} {rest cs : List Char}

/-- What was read up to a bracket was read up to it before. -/
lemma closing_eq_ok {close : List Char → Option JsonFault × List Char} {contents : Read α} {a : α}
    (h : closing close contents = .ok (a, rest)) : ∃ ds, contents = .ok (a, ds) := by
  rcases contents with (fault | fault) | ⟨b, ds⟩
  · cases h
  · cases h
  · rw [closing] at h
    split at h
    · cases h
      exact ⟨ds, rfl⟩
    · cases h

/-- One turn of the loop over the items of a list. -/
lemma items_succ_eq_ok {item : List Char → Read α} {fuel : Nat} {first : Bool} {as : List α}
    (h : items item (fuel + 1) first cs = .ok (as, rest)) :
    ∃ more ds, nextItem first cs = .ok (more, ds) ∧
      (more = false ∧ as = [] ∧ rest = ds ∨
        more = true ∧ ∃ a es bs, item ds = .ok (a, es) ∧
          items item fuel false es = .ok (bs, rest) ∧ as = a :: bs) := by
  rw [items] at h
  obtain ⟨⟨more, ds⟩, next, h⟩ := bind_eq_ok.1 h
  refine ⟨more, ds, next, ?_⟩
  cases more with
  | false =>
    cases h
    exact .inl ⟨rfl, rfl, rfl⟩
  | true =>
    dsimp only at h
    rw [if_pos rfl] at h
    obtain ⟨⟨a, es⟩, read, h⟩ := bind_eq_ok.1 h
    obtain ⟨⟨bs, fs⟩, others, h⟩ := bind_eq_ok.1 h
    cases h
    exact .inr ⟨rfl, a, es, bs, read, others, rfl⟩

/-- One turn of the loop over the members of an object. -/
lemma members_succ_eq_ok {key : List Char → Read κ} {member : κ → σ → List Char → Read σ}
    {fuel : Nat} {first : Bool} {s t : σ}
    (h : members key member (fuel + 1) first s cs = .ok (t, rest)) :
    ∃ more ds, nextMember first cs = .ok (more, ds) ∧
      (more = false ∧ t = s ∧ rest = ds ∨
        more = true ∧ ∃ k es u fs, key ds = .ok (k, es) ∧ member k s es = .ok (u, fs) ∧
          members key member fuel false u fs = .ok (t, rest)) := by
  rw [members] at h
  obtain ⟨⟨more, ds⟩, next, h⟩ := bind_eq_ok.1 h
  refine ⟨more, ds, next, ?_⟩
  cases more with
  | false =>
    cases h
    exact .inl ⟨rfl, rfl, rfl⟩
  | true =>
    dsimp only at h
    rw [if_pos rfl] at h
    obtain ⟨⟨k, es⟩, named, h⟩ := bind_eq_ok.1 h
    obtain ⟨⟨u, fs⟩, taken, h⟩ := bind_eq_ok.1 h
    exact .inr ⟨rfl, k, es, u, fs, named, taken, h⟩

/-- The items of a list are what the reader of items read. -/
lemma items_sound {item : List Char → Read α} {fuel : Nat} {first : Bool} {as : List α}
    (h : items item fuel first cs = .ok (as, rest)) :
    ∀ a ∈ as, ∃ ds es, item ds = .ok (a, es) := by
  induction fuel generalizing first cs as with
  | zero => cases h
  | succ fuel ih =>
    obtain ⟨_, ds, -, ⟨-, rfl, -⟩ | ⟨-, b, es, bs, read, others, rfl⟩⟩ := items_succ_eq_ok h
    · nofun
    · intro a there
      rcases List.mem_cons.1 there with rfl | later
      · exact ⟨ds, es, read⟩
      · exact ih others a later

/-- What one member keeps, the loop over the members keeps. -/
lemma members_sound {key : List Char → Read κ} {member : κ → σ → List Char → Read σ} {P : σ → Prop}
    (keeps : ∀ k s ds t es, P s → member k s ds = .ok (t, es) → P t) {fuel : Nat} {first : Bool}
    {s t : σ} (start : P s) (h : members key member fuel first s cs = .ok (t, rest)) : P t := by
  induction fuel generalizing first s cs with
  | zero => cases h
  | succ fuel ih =>
    obtain ⟨_, ds, -, ⟨-, rfl, -⟩ | ⟨-, k, es, u, fs, -, taken, others⟩⟩ := members_succ_eq_ok h
    · exact start
    · exact ih (keeps k s es u fs start taken) others

end Loops

/-- A member that was kept has its colon and its value. -/
lemma keepMember_eq_ok {value : List Char → Read Json} {k : String} {ms ms' : List (String × Json)}
    {cs rest : List Char} (h : keepMember value k ms cs = .ok (ms', rest)) :
    ∃ ds j, colon cs = .ok ds ∧ value ds = .ok (j, rest) ∧ ms' = ms ++ [(k, j)] := by
  rw [keepMember] at h
  obtain ⟨ds, divided, h⟩ := bind_eq_ok.1 h
  obtain ⟨⟨j, es⟩, read, h⟩ := bind_eq_ok.1 h
  cases h
  exact ⟨ds, j, divided, read, rfl⟩

/-- What comes of a reader whose value is put into a tree. -/
lemma map_eq_ok {α : Type} {x : Except JsonFault α} {f : α → Json} {g : α → List Char}
    {rest : List Char} (h : x.map (fun a => (f a, g a)) = .ok (j, rest)) :
    ∃ a, x = .ok a ∧ j = f a ∧ rest = g a := by
  rcases x with fault | a
  · cases h
  · cases h
    exact ⟨a, rfl, rfl, rfl⟩

/-- How a scalar is read, one rule for each of the first characters it may have. -/
inductive ReadsScalar (rest : List Char) : Json → List Char → Prop where
  | null {cs : List Char} : literal ['u', 'l', 'l'] cs = .ok rest →
    ReadsScalar rest null ('n' :: cs)
  | yes {cs : List Char} : literal ['r', 'u', 'e'] cs = .ok rest →
    ReadsScalar rest (bool true) ('t' :: cs)
  | no {cs : List Char} : literal ['a', 'l', 's', 'e'] cs = .ok rest →
    ReadsScalar rest (bool false) ('f' :: cs)
  | number {n : JsonNumber} {cs : List Char} : numberHead cs = .ok (n, rest) →
    ReadsScalar rest (number n) cs
  | string {s : String} {cs : List Char} : stringRest cs = .ok (s, rest) →
    ReadsScalar rest (string s) ('"' :: cs)

/-- What was read as a scalar is one of these. -/
lemma scalar?_eq_ok {cs rest : List Char} (h : scalar? cs = some (.ok (j, rest))) :
    ReadsScalar rest j cs := by
  cases cs with
  | nil => cases h
  | cons c cs =>
    rw [scalar?] at h
    rcases ite_eq_iff.1 h with ⟨rfl, h⟩ | ⟨-, h⟩
    · obtain ⟨_, read, rfl, rfl⟩ := map_eq_ok (Option.some.inj h)
      exact .null read
    rcases ite_eq_iff.1 h with ⟨rfl, h⟩ | ⟨-, h⟩
    · obtain ⟨_, read, rfl, rfl⟩ := map_eq_ok (Option.some.inj h)
      exact .yes read
    rcases ite_eq_iff.1 h with ⟨rfl, h⟩ | ⟨-, h⟩
    · obtain ⟨_, read, rfl, rfl⟩ := map_eq_ok (Option.some.inj h)
      exact .no read
    rcases ite_eq_iff.1 h with ⟨-, h⟩ | ⟨-, h⟩
    · obtain ⟨⟨n, _⟩, read, rfl, rfl⟩ := map_eq_ok (Option.some.inj h)
      exact .number read
    rcases ite_eq_iff.1 h with ⟨rfl, h⟩ | ⟨-, h⟩
    · obtain ⟨⟨s, _⟩, read, rfl, rfl⟩ := map_eq_ok (Option.some.inj h)
      exact .string read
    · cases h

/-- A scalar opens no bracket. -/
lemma fits_of_scalar {cs rest : List Char} (h : scalar? cs = some (.ok (j, rest))) (depth : Nat) :
    j.Fits depth := by
  cases scalar?_eq_ok h with
  | null | yes | no | number | string => cases depth <;> trivial

/-- A value is a scalar, or a list or an object whose parts the inner reader takes. -/
lemma value_cases {inner : Option (List Char → Read Json)} {cs rest : List Char}
    (h : value inner cs = .ok (j, rest)) :
    ∃ c ds, beforeValue cs = .ok (c, ds) ∧ (scalar? (c :: ds) = some (.ok (j, rest)) ∨
      ∃ reader, inner = some reader ∧
        ((c = '[' ∧ ∃ js, list reader ds = .ok (js, rest) ∧ j = array js) ∨
          (c = '\x7b' ∧ ∃ ms, objectOf textKey (keepMember reader) [] ds = .ok (ms, rest) ∧
            j = object ms))) := by
  rw [value] at h
  obtain ⟨⟨c, ds⟩, first, h⟩ := bind_eq_ok.1 h
  refine ⟨c, ds, first, ?_⟩
  dsimp only at h
  split at h
  next bracket =>
    cases inner with
    | none => cases h
    | some reader =>
      obtain ⟨⟨js, es⟩, read, h⟩ := bind_eq_ok.1 h
      cases h
      exact .inr ⟨reader, rfl, .inl ⟨bracket, js, read, rfl⟩⟩
  next =>
    split at h
    next brace =>
      cases inner with
      | none => cases h
      | some reader =>
        obtain ⟨⟨ms, es⟩, read, h⟩ := bind_eq_ok.1 h
        cases h
        exact .inr ⟨reader, rfl, .inr ⟨brace, ms, read, rfl⟩⟩
    next =>
      split at h
      next scalar =>
        subst h
        exact .inl scalar
      next => cases h

/-- What comes of reading a value: a scalar, or a list or an object whose values the inner reader
has read. -/
lemma value_eq_ok {inner : Option (List Char → Read Json)} {cs rest : List Char}
    (h : value inner cs = .ok (j, rest)) :
    (∃ ds, scalar? ds = some (.ok (j, rest))) ∨ ∃ reader, inner = some reader ∧
      ((∃ js, j = array js ∧ ∀ i ∈ js, ∃ ds es, reader ds = .ok (i, es)) ∨
        ∃ ms, j = object ms ∧ ∀ m ∈ ms, ∃ ds es, reader ds = .ok (m.2, es)) := by
  obtain ⟨c, ds, -, scalar | ⟨reader, given, list | object⟩⟩ := value_cases h
  · exact .inl ⟨_, scalar⟩
  · obtain ⟨-, js, read, same⟩ := list
    obtain ⟨_, loop⟩ := closing_eq_ok read
    exact .inr ⟨reader, given, .inl ⟨js, same, items_sound loop⟩⟩
  · obtain ⟨-, ms, read, same⟩ := object
    obtain ⟨_, loop⟩ := closing_eq_ok read
    refine .inr ⟨reader, given, .inr ⟨ms, same, ?_⟩⟩
    refine members_sound (P := fun ms => ∀ m ∈ ms, ∃ ds es, reader ds = .ok (m.2, es))
      (fun k ms ds ms' es before taken m there => ?_) (List.forall_mem_nil _) loop
    obtain ⟨ds, j, -, read, rfl⟩ := keepMember_eq_ok taken
    rcases List.mem_append.1 there with earlier | last
    · exact before m earlier
    · rw [List.mem_singleton.1 last]
      exact ⟨ds, es, read⟩

/-- What is read has no more brackets open at a time than the reader may open. -/
theorem fits_of_read {cs rest : List Char} (h : read depth cs = .ok (j, rest)) : j.Fits depth := by
  induction depth generalizing j cs rest with
  | zero =>
    rcases value_eq_ok h with ⟨ds, scalar⟩ | ⟨reader, none, -⟩
    · exact fits_of_scalar scalar 0
    · cases none
  | succ depth ih =>
    rcases value_eq_ok h with ⟨ds, scalar⟩ | ⟨reader, same, ⟨js, rfl, inside⟩ | ⟨ms, rfl, inside⟩⟩
    · exact fits_of_scalar scalar _
    · cases same
      intro i there
      obtain ⟨ds, es, read⟩ := inside i there
      exact ih read
    · cases same
      intro m there
      obtain ⟨ds, es, read⟩ := inside m there
      exact ih read

/-- Nothing but blanks follows what is read from a whole text. -/
lemma readWhole_eq_ok {α : Type} {reader : List Char → Read α} {text : List Char} {a : α}
    (h : readWhole reader text = .ok a) :
    ∃ rest, reader text = .ok (a, rest) ∧ skipSpace rest = [] := by
  rw [readWhole] at h
  obtain ⟨⟨b, rest⟩, read, h⟩ := bind_eq_ok.1 h
  dsimp only at h
  split at h
  next ended =>
    cases h
    exact ⟨rest, read, ended⟩
  next => cases h

/-- What is read from a text nests no deeper than allowed. -/
lemma fits_of_parse {text : String} (h : parse text = .ok j) : j.Fits maxDepth := by
  obtain ⟨rest, read, -⟩ := readWhole_eq_ok h
  exact fits_of_read read

/-! ## Trees without floats are read back -/

/-- A document without floats begins with no blank, comma or bracket that would end a list. -/
lemma begins_render (free : j.FloatFree) (l : Layout) (level : Nat) :
    Begins true (j.render l level) := by
  cases free with
  | null => exact ⟨'n', ['u', 'l', 'l'], rfl, by decide, by decide, nofun⟩
  | bool b => cases b <;> exact ⟨_, _, rfl, by decide, by decide, nofun⟩
  | int z =>
    obtain ⟨c, cs, digits, number⟩ := intDigits_head z.val
    refine ⟨c, cs, digits, isSpace_of_number number, ?_, nofun⟩
    rintro rfl
    revert number
    decide
  | string s => exact ⟨'"', _, rfl, by decide, by decide, nofun⟩
  | array => exact ⟨'[', _, rfl, by decide, by decide, nofun⟩
  | object => exact ⟨'\x7b', _, rfl, by decide, by decide, nofun⟩

/-- A scalar, for the reader of any value. -/
lemma reads_value_of_scalar {inner : Option (List Char → Read Json)} {text : List Char} {c : Char}
    {cs : List Char} (begins : text = c :: cs) (graphic : isSpace c = false) (list : c ≠ '[')
    (object : c ≠ '\x7b')
    (h : ∀ rest, Stops rest → scalar? (text ++ rest) = some (.ok (j, rest))) :
    Reads (value inner) text j := by
  intro blanks rest hb stops
  have scalar := h rest stops
  rw [begins, List.cons_append] at scalar
  rw [begins, List.append_assoc, List.cons_append, value, beforeValue_append hb _ graphic]
  simp only [bind, Except.bind, if_neg list, if_neg object, scalar]

/-- An integer is read as it was written. -/
lemma reads_value_int (inner : Option (List Char → Read Json)) (z : WireInt) :
    Reads (value inner) (intDigits z.val) (number (.int z)) := by
  obtain ⟨c, cs, digits, head⟩ := intDigits_head z.val
  refine reads_value_of_scalar digits (isSpace_of_number head) (ne_of_head head (by decide))
    (ne_of_head head (by decide)) fun rest stops => ?_
  have taken : numberHead (c :: (cs ++ rest)) = .ok (.int z, rest) := by
    rw [← List.cons_append, ← digits]
    exact numberHead_intDigits z stops
  rw [digits, List.cons_append, scalar?_of_head head, taken]
  rfl

/-- A string is read as it was written. -/
lemma reads_value_string (inner : Option (List Char → Read Json)) (s : String) :
    Reads (value inner) (stringChars s) (string s) := by
  refine reads_value_of_scalar (c := '"') rfl (by decide) (by decide) (by decide)
    fun rest _ => ?_
  obtain ⟨ds, quote⟩ := stringChars_append s rest
  have text : stringRest ds = .ok (s, rest) := by
    have key := textKey_stringChars s rest
    rw [quote] at key
    exact key
  rw [quote]
  show some ((stringRest ds).map _) = _
  rw [text]
  rfl

/-- The members of a printed object are kept as they come. -/
lemma absorbs_keepMember (plain : l.Plain) {reader : List Char → Read Json}
    {ms : List (String × Json)} (h : ∀ m ∈ ms, Reads reader (m.2.render l (level + 1)) m.2)
    (done : List (String × Json)) :
    Absorbs textKey (keepMember reader) l level ms done (done ++ ms) := by
  induction ms generalizing done with
  | nil =>
    rw [List.append_nil]
    exact .nil
  | cons m ms ih =>
    obtain ⟨k, j⟩ := m
    rw [List.append_cons]
    refine .cons (textKey_stringChars k) (fun rest stops => ?_)
      (ih (fun m later => h m (List.mem_cons_of_mem _ later)) (done ++ [(k, j)]))
    obtain ⟨cs, divided, taken⟩ := colon_reads plain (h _ List.mem_cons_self) stops
    rw [keepMember, divided]
    simp only [bind, Except.bind, taken]
    rfl

/-- A list is read as it was written, if its items are. -/
lemma reads_value_array (plain : l.Plain) {reader : List Char → Read Json} {js : List Json}
    (h : ∀ j ∈ js, Reads reader (j.render l (level + 1)) j ∧
      Begins true (j.render l (level + 1))) :
    Reads (value (some reader)) ((array js).render l level) (array js) := by
  intro blanks rest hb _
  have loop : items reader ((renderItems l level true js ++ rest).length + 1) true
      (renderItems l level true js ++ rest) = .ok (js, ']' :: rest) := by
    have printed : List.Forall₂ (fun j a => Reads reader (j.render l (level + 1)) a ∧
        Begins true (j.render l (level + 1))) js js := List.forall₂_same.2 h
    apply items_renderItems plain printed
    have long := length_lt_renderItems l level true js
    rw [List.length_append]
    omega
  have taken : list reader (renderItems l level true js ++ rest) = .ok (js, rest) := by
    rw [list, loop]
    exact closing_closeList Blanks.nil js rest
  rw [render, List.append_assoc, List.cons_append, value, beforeValue_append hb _ (by decide)]
  simp only [bind, Except.bind, if_true, taken]
  rfl

/-- An object is read as it was written, if its values are. -/
lemma reads_value_object (plain : l.Plain) {reader : List Char → Read Json}
    {ms : List (String × Json)} (h : ∀ m ∈ ms, Reads reader (m.2.render l (level + 1)) m.2) :
    Reads (value (some reader)) ((object ms).render l level) (object ms) := by
  intro blanks rest hb _
  have taken : objectOf textKey (keepMember reader) [] (renderMembers l level true ms ++ rest) =
      .ok (ms, rest) := by
    rw [objectOf, members_of_absorbs plain (absorbs_keepMember plain h [])]
    exact closing_closeObject ms rest
  rw [render, List.append_assoc, List.cons_append, value, beforeValue_append hb _ (by decide)]
  simp only [bind, Except.bind, if_true, if_neg (by decide : ¬ '\x7b' = '['), taken]
  rfl

/-- A reader that may open as many brackets as a tree without floats nests takes its text for the
tree. -/
theorem reads_render (plain : l.Plain) (free : j.FloatFree) (fits : j.Fits depth) :
    Reads (read depth) (j.render l level) j := by
  induction free generalizing depth level with
  | null =>
    cases depth <;> exact reads_value_of_scalar rfl (by decide) (by decide) (by decide)
      fun _ _ => rfl
  | bool b =>
    cases depth <;> cases b <;> exact reads_value_of_scalar rfl (by decide) (by decide) (by decide)
      fun _ _ => rfl
  | int z => cases depth <;> exact reads_value_int _ z
  | string s => cases depth <;> exact reads_value_string _ s
  | array free ih =>
    cases depth with
    | zero => exact fits.elim
    | succ depth =>
      exact reads_value_array plain fun j there =>
        ⟨ih j there (fits j there), begins_render (free j there) l (level + 1)⟩
  | object _ ih =>
    cases depth with
    | zero => exact fits.elim
    | succ depth =>
      exact reads_value_object plain fun m there => ih m there (fits m there)

end Preferences.Json
