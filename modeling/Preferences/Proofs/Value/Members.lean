import Mathlib
import Preferences.Proofs.Json.Printed
import Preferences.Proofs.Store.Document
import Preferences.Proofs.Value.Payload
import Preferences.Proofs.Value.Tag

/-!
# Stored values are read from two members

A stored value is an object of which two members matter, a tag and a payload, in either order. The
reader goes from one member that matters to the next, and passes over the others whatever their
values are, so what it reads depends on the tag and the payload alone. Main statements:
`read_append_eq_ok_iff` and `value_is_read_from_its_two_members`.
-/

namespace Preferences

namespace Value

open Json

variable {v : Value} {blanks text tail rest : List Char} {depth : Nat}

/-! ## Members -/

/-- The key of the member is none of the two that matter. -/
def Unknown (m : MemberText) : Prop := ¬SpellsString "type" m.key ∧ ¬SpellsString "value" m.key

/-- Every key is a string: there is none with half of a surrogate pair. -/
def Legible (ms : List MemberText) : Prop := ∀ m ∈ ms, ∃ k, SpellsString k m.key

/-- Members are legible where the first one and the others are. -/
lemma legible_cons {m : MemberText} {ms : List MemberText} :
    Legible (m :: ms) ↔ (∃ k, SpellsString k m.key) ∧ Legible ms := List.forall_mem_cons

/-- Members in a row are legible where each part of them is. -/
lemma legible_append {ms ms' : List MemberText} :
    Legible (ms ++ ms') ↔ Legible ms ∧ Legible ms' := List.forall_mem_append

section Heads

variable {first : Bool} {m : MemberText} {ms : List MemberText} {after inner others : List Char}

/-- Of members the first one's key is read, and it is skipped if its key is unknown. -/
lemma nextSlot_head (heads : Heads first m ms text tail after inner others) (fuel : Nat)
    (rest : List Char) :
    nextSlot (fuel + 1) first (text ++ rest) = (do
      let (k, cs) ← stringRest (tail ++ (after ++ ':' :: (inner ++ (m.value ++ (others ++ rest)))))
      if k = Slot.kind.key then return (some .kind, cs)
      else if k = Slot.payload.key then return (some .payload, cs)
      else
        let cs ← colon cs
        let cs ← skip cs
        nextSlot fuel false cs) := by
  rw [nextSlot, heads.next]
  rfl

/-- The first member is found where its key is that of a slot. -/
lemma nextSlot_of_spells (heads : Heads first m ms text tail after inner others) {slot : Slot}
    (spelled : SpellsString slot.key m.key) (fuel : Nat) (rest : List Char) :
    nextSlot (fuel + 1) first (text ++ rest) =
      .ok (some slot, after ++ ':' :: (inner ++ (m.value ++ (others ++ rest)))) := by
  rw [heads.key] at spelled
  rw [nextSlot_head heads, heads.quoted.stringRest_eq_ok_iff.2 ⟨spelled, rfl⟩]
  cases slot <;> rfl

/-- A member whose key does not matter is passed over, if its key is a string. -/
lemma nextSlot_of_unknown (heads : Heads first m ms text tail after inner others)
    (unknown : Unknown m) (fuel : Nat) (rest : List Char) {out : Option Slot × List Char} :
    nextSlot (fuel + 1) first (text ++ rest) = .ok out ↔
      (∃ k, SpellsString k m.key) ∧ nextSlot fuel false (others ++ rest) = .ok out := by
  rw [nextSlot_head heads, bind_eq_ok, heads.key]
  -- the key is neither of the two that matter, in whatever way it is spelled
  have passed {k : String} (spelled : SpellsString k ('"' :: tail)) {cs : List Char}
      (divided : colon cs = .ok (inner ++ (m.value ++ (others ++ rest)))) :
      (if k = Slot.kind.key then pure (some Slot.kind, cs)
        else if k = Slot.payload.key then pure (some Slot.payload, cs)
        else do
          let cs ← colon cs
          let cs ← skip cs
          nextSlot fuel false cs) = nextSlot fuel false (others ++ rest) := by
    have tag : k ≠ Slot.kind.key := by
      rintro rfl
      exact unknown.1 (heads.key ▸ spelled)
    have payload : k ≠ Slot.payload.key := by
      rintro rfl
      exact unknown.2 (heads.key ▸ spelled)
    rw [if_neg tag, if_neg payload, divided, ok_bind,
      skip_append heads.behind_colon heads.value (heads.behind.stops_members rest), ok_bind]
  constructor
  · rintro ⟨⟨k, cs⟩, read, h⟩
    obtain ⟨spelled, rfl⟩ := heads.quoted.stringRest_eq_ok_iff.1 read
    exact ⟨⟨k, spelled⟩, (passed spelled (colon_append heads.before_colon _)).symm.trans h⟩
  · rintro ⟨⟨k, spelled⟩, h⟩
    exact ⟨_, heads.quoted.stringRest_eq_ok_iff.2 ⟨spelled, rfl⟩,
      (passed spelled (colon_append heads.before_colon _)).trans h⟩

end Heads

section Slots

variable {first : Bool} {m : MemberText} {ms : List MemberText} {fuel : Nat}

/-- The next member that matters is found behind those that do not. -/
lemma nextSlot_eq_some (slot : Slot) {before : List MemberText} (unknown : ∀ m ∈ before, Unknown m)
    (spelled : SpellsString slot.key m.key)
    (valid : Valid (.members first (before ++ m :: ms)) text) (enough : text.length ≤ fuel)
    (rest : List Char) :
    ∃ cs inner others, Valid (.members false ms) others ∧ Valid .value m.value ∧ Blanks inner ∧
      colon cs = .ok (inner ++ (m.value ++ (others ++ rest))) ∧
      ∀ out, nextSlot (fuel + 1) first (text ++ rest) = .ok out ↔
        Legible before ∧ out = (some slot, cs) := by
  induction before generalizing first text fuel with
  | nil =>
    obtain ⟨tail, after, inner, others, heads⟩ := heads_of_valid valid
    refine ⟨_, inner, others, heads.behind, heads.value, heads.behind_colon,
      colon_append heads.before_colon _, fun out => ?_⟩
    rw [nextSlot_of_spells heads spelled, Except.ok.injEq, eq_comm]
    exact (and_iff_right (List.forall_mem_nil _)).symm
  | cons m' before ih =>
    obtain ⟨here, unknown⟩ := List.forall_mem_cons.1 unknown
    obtain ⟨tail, after, inner, others, heads⟩ := heads_of_valid valid
    have short := heads.short
    obtain ⟨fuel, rfl⟩ : ∃ n, fuel = n + 1 := ⟨fuel - 1, by omega⟩
    obtain ⟨cs, inner', others', valid', value, blank, divided, found⟩ :=
      ih unknown heads.behind (by omega : others.length ≤ fuel)
    refine ⟨cs, inner', others', valid', value, blank, divided, fun out => ?_⟩
    rw [nextSlot_of_unknown heads here, found, legible_cons, and_assoc]

/-- No further member matters. -/
lemma nextSlot_eq_none (unknown : ∀ m ∈ ms, Unknown m) (valid : Valid (.members first ms) text)
    (enough : text.length ≤ fuel) (rest : List Char) (out : Option Slot × List Char) :
    nextSlot (fuel + 1) first (text ++ rest) = .ok out ↔
      Legible ms ∧ out = (none, '\x7d' :: rest) := by
  induction ms generalizing first text fuel with
  | nil =>
    cases valid with
    | closeObject blank =>
      rw [List.append_assoc, List.singleton_append, nextSlot, nextMember_close blank]
      show Except.ok (none, '\x7d' :: rest) = .ok out ↔ _
      rw [Except.ok.injEq, eq_comm]
      exact (and_iff_right (List.forall_mem_nil _)).symm
  | cons m ms ih =>
    obtain ⟨here, unknown⟩ := List.forall_mem_cons.1 unknown
    obtain ⟨tail, after, inner, others, heads⟩ := heads_of_valid valid
    have short := heads.short
    obtain ⟨fuel, rfl⟩ : ∃ n, fuel = n + 1 := ⟨fuel - 1, by omega⟩
    rw [nextSlot_of_unknown heads here, ih unknown heads.behind (by omega), legible_cons, and_assoc]

/-- Behind the second slot nothing but unknown members may stand. -/
lemma finish_append_eq_ok_iff (unknown : ∀ m ∈ ms, Unknown m)
    (valid : Valid (.members false ms) text) (rest : List Char) {out : Value × List Char} :
    finish v (text ++ rest) = .ok out ↔ Legible ms ∧ out = (v, '\x7d' :: rest) := by
  rw [finish, furtherSlot, bind_eq_ok_of (nextSlot_eq_none unknown valid (by simp) rest)]
  show _ ∧ Except.ok (v, '\x7d' :: rest) = .ok out ↔ _
  rw [Except.ok.injEq, eq_comm]

end Slots

/-! ## Objects -/

/-- The members are a tag and a payload, whichever comes first, with unknown members before, between
and behind them. -/
inductive Tagged (tag payload : List Char) : List MemberText → Prop where
  | tagFirst {key key' : List Char} {before between after : List MemberText} :
    SpellsString "type" key → SpellsString "value" key' → (∀ m ∈ before, Unknown m) →
    (∀ m ∈ between, Unknown m) → (∀ m ∈ after, Unknown m) →
    Tagged tag payload (before ++ ⟨key, tag⟩ :: (between ++ ⟨key', payload⟩ :: after))
  | payloadFirst {key key' : List Char} {before between after : List MemberText} :
    SpellsString "type" key → SpellsString "value" key' → (∀ m ∈ before, Unknown m) →
    (∀ m ∈ between, Unknown m) → (∀ m ∈ after, Unknown m) →
    Tagged tag payload (before ++ ⟨key', payload⟩ :: (between ++ ⟨key, tag⟩ :: after))

/-- The tag names the kind of the value, and the payload spells its payload. -/
structure Means (tag payload : List Char) (v : Value) : Prop where
  kind : Names v.kind tag
  payload : Spells .integral (.value v.payload) payload

section Objects

variable {tag payload key key' : List Char} {before between after : List MemberText}

/-- With two known members among them, members are legible where all others are. -/
lemma legible_two {m m' : MemberText} (first : ∃ k, SpellsString k m.key)
    (second : ∃ k, SpellsString k m'.key) :
    Legible (before ++ m :: (between ++ m' :: after)) ↔
      Legible before ∧ Legible between ∧ Legible after := by
  simp only [legible_append, legible_cons, first, second, true_and]

variable (named : SpellsString "type" key) (held : SpellsString "value" key')
  (unknown : ∀ m ∈ before, Unknown m) (unknown' : ∀ m ∈ between, Unknown m)
  (unknown'' : ∀ m ∈ after, Unknown m)

include named held unknown unknown' unknown''

/-- The payload is read for its kind. -/
lemma ofObject_of_tagFirst
    (valid : Valid (.members true (before ++ ⟨key, tag⟩ :: (between ++ ⟨key', payload⟩ :: after)))
      text) (rest : List Char) {out : Value × List Char} :
    ofObject (depth + 1) (text ++ rest) = .ok out ↔
      Legible (before ++ ⟨key, tag⟩ :: (between ++ ⟨key', payload⟩ :: after)) ∧
        ∃ v, Means tag payload v ∧ out = (v, '\x7d' :: rest) := by
  obtain ⟨cs, inner, others, valid', tagged, blank, divided, found⟩ :=
    nextSlot_eq_some .kind (m := ⟨key, tag⟩) unknown named valid
      (by simp : text.length ≤ (text ++ rest).length) rest
  obtain ⟨cs', inner', others', valid'', paid, blank', divided', found'⟩ :=
    nextSlot_eq_some .payload (m := ⟨key', payload⟩) unknown' held valid'
      (by simp : others.length ≤ (others ++ rest).length) rest
  have stops := valid'.stops_members rest
  have stops' := valid''.stops_members rest
  rw [legible_two ⟨_, named⟩ ⟨_, held⟩, ofObject, bind_eq_ok_of found]
  dsimp only
  rw [divided, ok_bind]
  -- both ways go through the same steps, each of which is told by an equivalence
  constructor
  · rintro ⟨legible, h⟩
    obtain ⟨⟨k, _⟩, read, h⟩ := bind_eq_ok.1 h
    obtain ⟨names, rfl⟩ := (kindTag_append_eq_ok_iff blank tagged).1 read
    rw [furtherSlot, bind_eq_ok_of found'] at h
    obtain ⟨legible', h⟩ := h
    dsimp only at h
    rw [divided', ok_bind] at h
    obtain ⟨⟨v, _⟩, taken, h⟩ := bind_eq_ok.1 h
    obtain ⟨rfl, spelled, rfl⟩ := (payloadOf_append_eq_ok_iff blank' paid stops').1 taken
    obtain ⟨legible'', rfl⟩ := (finish_append_eq_ok_iff unknown'' valid'' rest).1 h
    exact ⟨⟨legible, legible', legible''⟩, v, ⟨names, spelled⟩, rfl⟩
  · rintro ⟨⟨legible, legible', legible''⟩, v, ⟨names, spelled⟩, rfl⟩
    refine ⟨legible, bind_eq_ok.2 ⟨_, (kindTag_append_eq_ok_iff blank tagged).2 ⟨names, rfl⟩, ?_⟩⟩
    rw [furtherSlot, bind_eq_ok_of found']
    refine ⟨legible', ?_⟩
    dsimp only
    rw [divided', ok_bind]
    exact bind_eq_ok.2 ⟨_, (payloadOf_append_eq_ok_iff blank' paid stops').2 ⟨rfl, spelled, rfl⟩,
      (finish_append_eq_ok_iff unknown'' valid'' rest).2 ⟨legible'', rfl⟩⟩

/-- The payload is kept until its kind is known. -/
lemma ofObject_of_payloadFirst
    (valid : Valid (.members true (before ++ ⟨key', payload⟩ :: (between ++ ⟨key, tag⟩ :: after)))
      text) (rest : List Char) {out : Value × List Char} :
    ofObject (depth + 1) (text ++ rest) = .ok out ↔
      Legible (before ++ ⟨key', payload⟩ :: (between ++ ⟨key, tag⟩ :: after)) ∧
        ∃ v, Means tag payload v ∧ out = (v, '\x7d' :: rest) := by
  obtain ⟨cs, inner, others, valid', paid, blank, divided, found⟩ :=
    nextSlot_eq_some .payload (m := ⟨key', payload⟩) unknown held valid
      (by simp : text.length ≤ (text ++ rest).length) rest
  obtain ⟨cs', inner', others', valid'', tagged, blank', divided', found'⟩ :=
    nextSlot_eq_some .kind (m := ⟨key, tag⟩) unknown' named valid'
      (by simp : others.length ≤ (others ++ rest).length) rest
  have stops := valid'.stops_members rest
  rw [legible_two ⟨_, held⟩ ⟨_, named⟩, ofObject, bind_eq_ok_of found]
  dsimp only
  rw [divided, ok_bind]
  constructor
  · rintro ⟨legible, h⟩
    obtain ⟨⟨j, ds⟩, kept, h⟩ := bind_eq_ok.1 h
    obtain ⟨⟨slot, es⟩, further, h⟩ := bind_eq_ok.1 h
    obtain rfl : slot = some .kind := by rcases slot with - | - | - <;> first | rfl | cases h
    obtain ⟨fs, colon', h⟩ := bind_eq_ok.1 h
    obtain ⟨⟨k, gs⟩, read, h⟩ := bind_eq_ok.1 h
    dsimp only at h
    split at h
    next => cases h
    next v made =>
      -- what was kept may be anything up to here, where it is made a value of the kind
      have taken := (payloadOf_eq_ok_iff_read (depth + 1)).2 ⟨j, kept, made⟩
      obtain ⟨rfl, spelled, rfl⟩ := (payloadOf_append_eq_ok_iff blank paid stops).1 taken
      obtain ⟨legible', same⟩ := (found' _).1 further
      cases same
      cases divided'.symm.trans colon'
      obtain ⟨names, rfl⟩ := (kindTag_append_eq_ok_iff blank' tagged).1 read
      obtain ⟨legible'', rfl⟩ := (finish_append_eq_ok_iff unknown'' valid'' rest).1 h
      exact ⟨⟨legible, legible', legible''⟩, v, ⟨names, spelled⟩, rfl⟩
  · rintro ⟨⟨legible, legible', legible''⟩, v, ⟨names, spelled⟩, rfl⟩
    have taken := (payloadOf_append_eq_ok_iff blank paid stops).2 ⟨rfl, spelled, rfl⟩
    obtain ⟨j, kept, made⟩ := (payloadOf_eq_ok_iff_read (depth + 1)).1 taken
    refine ⟨legible, bind_eq_ok.2 ⟨_, kept, ?_⟩⟩
    rw [furtherSlot, bind_eq_ok_of found']
    refine ⟨legible', ?_⟩
    dsimp only
    rw [divided', ok_bind]
    refine bind_eq_ok.2 ⟨_, (kindTag_append_eq_ok_iff blank' tagged).2 ⟨names, rfl⟩, ?_⟩
    dsimp only
    rw [made]
    exact (finish_append_eq_ok_iff unknown'' valid'' rest).2 ⟨legible'', rfl⟩

end Objects

variable {ms : List MemberText} {tag payload : List Char}

/-- A stored value is read from the members of an object if all keys are strings, and from no more
of them than the tag and the payload. -/
lemma ofObject_append_eq_ok_iff (depth : Nat) (tagged : Tagged tag payload ms)
    (valid : Valid (.members true ms) text) (rest : List Char) (out : Value × List Char) :
    ofObject (depth + 1) (text ++ rest) = .ok out ↔
      Legible ms ∧ ∃ v, Means tag payload v ∧ out = (v, '\x7d' :: rest) := by
  cases tagged with
  | tagFirst named held unknown unknown' unknown'' =>
    exact ofObject_of_tagFirst named held unknown unknown' unknown'' valid rest
  | payloadFirst named held unknown unknown' unknown'' =>
    exact ofObject_of_payloadFirst named held unknown unknown' unknown'' valid rest

/-- A stored value is read from an object wherever the object stands. -/
theorem read_append_eq_ok_iff (depth : Nat) (hb : Blanks blanks) (tagged : Tagged tag payload ms)
    (valid : Valid (.members true ms) text) (v : Value) (rest rest' : List Char) :
    Value.read (depth + 2) (blanks ++ '\x7b' :: (text ++ rest)) = .ok (v, rest') ↔
      (Legible ms ∧ Means tag payload v) ∧ rest' = rest := by
  have opened : Value.read (depth + 2) (blanks ++ '\x7b' :: (text ++ rest)) =
      closing closeObject (ofObject (depth + 1) (text ++ rest)) := by
    rw [Value.read, aggregate, beforeValue_append hb _ (by decide)]
    rfl
  have read := ofObject_append_eq_ok_iff depth tagged valid rest
  rw [opened]
  constructor
  · intro h
    obtain ⟨ds, inside⟩ := closing_eq_ok h
    obtain ⟨legible, w, means, same⟩ := (read _).1 inside
    cases same
    rw [inside, closing_closeObject] at h
    cases h
    exact ⟨⟨legible, means⟩, rfl⟩
  · rintro ⟨⟨legible, means⟩, rfl⟩
    rw [(read _).2 ⟨legible, v, means, rfl⟩]
    rfl

/-- The text is an object with these members. -/
def ObjectText (ms : List MemberText) (text : List Char) : Prop :=
  ∃ before object after, Blanks before ∧ Blanks after ∧ Valid (.members true ms) object ∧
    text = before ++ '\x7b' :: (object ++ after)

/-- An object with a tag and a payload is read exactly if its keys are legible and the two mean the
value. -/
lemma parse_eq_ok_iff {s : String} (object : ObjectText ms s.toList)
    (tagged : Tagged tag payload ms) :
    Value.parse s = .ok v ↔ Legible ms ∧ Means tag payload v := by
  obtain ⟨before, object, after, blank, blank', valid, same⟩ := object
  have ended : skipSpace after = [] := by
    rw [skipSpace, ← List.append_nil after, List.dropWhile_append_of_pos blank', List.dropWhile_nil]
  have read := read_append_eq_ok_iff 125 blank tagged valid
  rw [Value.parse, readWhole, same, bind_eq_ok]
  constructor
  · rintro ⟨⟨w, _⟩, found, h⟩
    obtain ⟨means, rfl⟩ := (read w after _).1 found
    dsimp only at h
    rw [ended] at h
    cases h
    exact means
  · intro means
    refine ⟨(v, after), (read v after after).2 ⟨means, rfl⟩, ?_⟩
    dsimp only
    rw [ended]
    rfl

/-- A value is read from the text it is written as. -/
lemma parse_toJson (v : Value) : Value.parse v.toJson.compact = .ok v := by
  rw [Value.parse, compact, String.toList_ofList]
  exact readWhole_of_reads (reads_toJson Layout.compact_plain 126 v)

/-! ## Objects without blanks -/

/-- The members behind the opening brace, or behind a member, with no blanks in the gaps. -/
def tight (first : Bool) : List MemberText → List Char
  | [] => ['\x7d']
  | m :: ms => (if first then [] else [',']) ++ (m.key ++ ':' :: (m.value ++ tight false ms))

/-- Members without blanks between them are valid. -/
lemma valid_tight (first : Bool) {ms : List MemberText}
    (h : ∀ m ∈ ms, Valid .value m.value ∧ ∃ tail, StringTail tail ∧ m.key = '"' :: tail) :
    Valid (.members first ms) (tight first ms) := by
  induction ms generalizing first with
  | nil => exact .closeObject .nil
  | cons m ms ih =>
    obtain ⟨⟨value, tail, quoted, same⟩, others⟩ := List.forall_mem_cons.1 h
    obtain ⟨key, text⟩ := m
    subst same
    cases first with
    | true => exact .member .first .nil quoted .nil .nil value (ih false others)
    | false => exact .member (.comma .nil) .nil quoted .nil .nil value (ih false others)

/-- Members make an object. -/
lemma objectText_tight {ms : List MemberText}
    (h : ∀ m ∈ ms, Valid .value m.value ∧ ∃ tail, StringTail tail ∧ m.key = '"' :: tail) :
    ObjectText ms ('\x7b' :: tight true ms) :=
  ⟨[], tight true ms, [], .nil, .nil, valid_tight true h, by simp⟩

/-- A key that spells another name is unknown. -/
lemma unknown_of_spells {m : MemberText} {name : String} (spelled : SpellsString name m.key)
    (tag : name ≠ "type") (payload : name ≠ "value") : Unknown m := by
  obtain ⟨body, quote, read⟩ := stringRest_spellsString spelled []
  have only {other : String} (spelled' : SpellsString other m.key) : name = other := by
    obtain ⟨body', quote', read'⟩ := stringRest_spellsString spelled' []
    obtain rfl : body = body' := (List.cons.inj (quote.symm.trans quote')).2
    rw [read] at read'
    cases read'
    rfl
  exact ⟨fun h => tag (only h), fun h => payload (only h)⟩

/-- Half of a surrogate pair, in quotes. -/
def halfPair : List Char := ['"', '\\', 'u', 'd', '8', '0', '0', '"']

/-- A surrogate alone is what is left of a string, as far as skipping goes. -/
lemma stringTail_halfPair : StringTail halfPair.tail := by
  have unit : SpellsUnit 0xd800 ['\\', 'u', 'd', '8', '0', '0'] := spellsUnit_of_hexFour rfl
  exact .unit unit .close

/-- No characters make half of a surrogate pair. -/
lemma not_spells_halfPair (s : String) : ¬SpellsString s halfPair := by
  intro h
  have read : stringRest (halfPair.tail ++ []) = .ok (s, []) :=
    stringTail_halfPair.stringRest_eq_ok_iff.2 ⟨h, rfl⟩
  have out : (stringRest (halfPair.tail ++ [])).toOption = none := rfl
  rw [read] at out
  cases out

/-- A tag and a payload make an object, also behind members with half of a surrogate pair for the
key. -/
lemma object_tight {tag payload : List Char} {before : List MemberText} (valid : Valid .value tag)
    (valid' : Valid .value payload)
    (keys : ∀ m ∈ before, Valid .value m.value ∧ m.key = halfPair) :
    ∃ ms, ObjectText ms ('\x7b' :: tight true
        (before ++ [⟨stringChars "type", tag⟩, ⟨stringChars "value", payload⟩])) ∧
      Tagged tag payload ms := by
  have spelled := spellsString_stringChars
  refine ⟨_, objectText_tight ?_, .tagFirst (spelled _) (spelled _) ?_ (List.forall_mem_nil _)
    (List.forall_mem_nil _)⟩
  · simp only [List.forall_mem_append, List.forall_mem_cons]
    exact ⟨fun m there => ⟨(keys m there).1, _, stringTail_halfPair, (keys m there).2⟩,
      ⟨valid, (spelled _).tail⟩, ⟨valid', (spelled _).tail⟩, nofun⟩
  · intro m there
    rw [Unknown, (keys m there).2]
    exact ⟨not_spells_halfPair _, not_spells_halfPair _⟩

end Value

open Value Json

/-- A stored value is read from the tag and the payload of an object, whichever comes first and
whatever unknown members stand around them, so objects with the same tag and payload are read as the
same value or not at all. One is read if and only if its keys are strings, the tag names a kind, and
the payload spells one of the values of the kind. Every value is read from its own text. -/
theorem value_is_read_from_its_two_members :
    (∀ {ms : List MemberText} {tag payload : List Char} {text : String},
      ObjectText ms text.toList → Tagged tag payload ms → ∀ v,
        Value.parse text = .ok v ↔ Legible ms ∧ Means tag payload v) ∧
    (∀ {ms ms' : List MemberText} {tag payload : List Char} {text text' : String},
      ObjectText ms text.toList → Tagged tag payload ms →
      ObjectText ms' text'.toList → Tagged tag payload ms' → (Legible ms ↔ Legible ms') →
        (Value.parse text).toOption = (Value.parse text').toOption) ∧
    ∀ v : Value, Value.parse v.toJson.compact = .ok v := by
  refine ⟨fun object tagged v => Value.parse_eq_ok_iff object tagged,
    fun {_ _ _ _ text text'} object tagged object' tagged' same => ?_, parse_toJson⟩
  have alike (v : Value) : Value.parse text = .ok v ↔ Value.parse text' = .ok v := by
    rw [Value.parse_eq_ok_iff object tagged, Value.parse_eq_ok_iff object' tagged', same]
  rcases read : Value.parse text with fault | v
  · rcases read' : Value.parse text' with fault' | v'
    · rfl
    · rw [(alike v').2 read'] at read
      cases read
  · rw [(alike v).1 read]

/-- The least integer of 32 bits is read where its kind comes last, behind a member with half of a
surrogate pair, and is the same as from its own text. -/
theorem least_int_is_read_in_either_order :
    let text := "\x7b\"note\":\"\\ud800\",\"value\":-2147483648,\"type\":\"int\"\x7d"
    let text' := "\x7b\"type\":\"int\",\"value\":-2147483648\x7d"
    let v := Value.int ⟨-2147483648, by decide, by decide⟩
    Value.parse text = .ok v ∧ (Value.parse text).toOption = (Value.parse text').toOption ∧
      v.toJson.compact = text' ∧ Value.parse v.toJson.compact = .ok v := by
  intro text text' v
  let note : MemberText := ⟨stringChars "note", halfPair⟩
  let payload : MemberText := ⟨stringChars "value", intDigits (-2147483648)⟩
  let tag : MemberText := ⟨stringChars "type", stringChars "int"⟩
  have spelled := spellsString_stringChars
  have digits := numberLiteral_intDigits ⟨-2147483648, by decide, by decide⟩
  have object : ObjectText [note, payload, tag] text.toList := by
    have chars : text.toList = '\x7b' :: tight true [note, payload, tag] := by decide
    rw [chars]
    apply objectText_tight
    simp only [List.forall_mem_cons]
    exact ⟨⟨.string stringTail_halfPair, (spelled _).tail⟩, ⟨.number digits, (spelled _).tail⟩,
      ⟨(spelled _).valid, (spelled _).tail⟩, nofun⟩
  have object' : ObjectText [tag, payload] text'.toList := by
    have chars : text'.toList = '\x7b' :: tight true [tag, payload] := by decide
    rw [chars]
    apply objectText_tight
    simp only [List.forall_mem_cons]
    exact ⟨⟨(spelled _).valid, (spelled _).tail⟩, ⟨.number digits, (spelled _).tail⟩, nofun⟩
  have unknown : Unknown note := unknown_of_spells (spelled "note") (by decide) (by decide)
  have tagged : Tagged tag.value payload.value ([note] ++ payload :: ([] ++ tag :: [])) :=
    .payloadFirst (spelled _) (spelled _) (by simpa using unknown) nofun nofun
  have tagged' : Tagged tag.value payload.value ([] ++ tag :: ([] ++ payload :: [])) :=
    .tagFirst (spelled _) (spelled _) nofun nofun nofun
  have legible' : Legible [tag, payload] :=
    legible_cons.2 ⟨⟨_, spelled _⟩, legible_cons.2 ⟨⟨_, spelled _⟩, nofun⟩⟩
  have legible : Legible [note, payload, tag] := legible_cons.2 ⟨⟨_, spelled _⟩,
    legible_cons.2 ⟨⟨_, spelled _⟩, legible_cons.2 ⟨⟨_, spelled _⟩, nofun⟩⟩⟩
  have means : Means tag.value payload.value v :=
    ⟨.alone (spelled "int"), .number ⟨_, rfl, rfl⟩⟩
  exact ⟨(value_is_read_from_its_two_members.1 object tagged v).2 ⟨legible, means⟩,
    value_is_read_from_its_two_members.2.1 object tagged object' tagged'
      ⟨fun _ => legible', fun _ => legible⟩, by cbv,
    value_is_read_from_its_two_members.2.2 v⟩

/-- A kind is named by an object too. And not every value of a kind that JSON can write is read:
negative zero is none that an integer is read from, and half of a surrogate pair makes a string that
is neither read as a payload nor passed over as a key. -/
theorem long_is_named_by_object :
    let IsObject (tag payload : List Char) (text : String) : Prop :=
      ∃ ms, ObjectText ms text.toList ∧ Tagged tag payload ms
    let tag := '\x7b' :: (stringChars "long" ++ ":null\x7d".toList)
    let named := "\x7b\"type\":\x7b\"long\":null\x7d,\"value\":5\x7d"
    let zero := "\x7b\"type\":\"long\",\"value\":-0\x7d"
    let payload := "\x7b\"type\":\"string\",\"value\":\"\\ud800\"\x7d"
    let key := "\x7b\"\\ud800\":5,\"type\":\"long\",\"value\":5\x7d"
    (IsObject tag ['5'] named ∧ (∀ k : Primitive, ¬SpellsString k.label tag) ∧
        Value.parse named = .ok (.long ⟨5, by decide, by decide⟩)) ∧
      (IsObject (stringChars "long") ['-', '0'] zero ∧ (Value.parse zero).toOption = none) ∧
      (IsObject (stringChars "string") halfPair payload ∧
        (Value.parse payload).toOption = none) ∧
      IsObject (stringChars "long") ['5'] key ∧ (Value.parse key).toOption = none := by
  intro IsObject tag named zero payload key
  have spelled := spellsString_stringChars
  have five : Valid .value ['5'] := .number (numberLiteral_intDigits ⟨5, by decide, by decide⟩)
  have minus : NumberLiteral ['-', '0'] :=
    .intro (.inr rfl) ⟨⟨List.cons_ne_nil '0' [], by simp⟩, fun _ => rfl⟩ .none .none
  have valid : Valid .value tag := by
    obtain ⟨tail, quoted, same⟩ := (spelled "long").tail
    show Valid .value ('\x7b' :: (stringChars "long" ++ _))
    rw [same]
    exact .object (.member .first .nil quoted .nil .nil .null (.closeObject .nil))
  have isObject {t p : List Char} (before : List MemberText) {text : String}
      (chars : text.toList = '\x7b' :: tight true
        (before ++ [⟨stringChars "type", t⟩, ⟨stringChars "value", p⟩])) (valid : Valid .value t)
      (valid' : Valid .value p) (keys : ∀ m ∈ before, Valid .value m.value ∧ m.key = halfPair) :
      IsObject t p text := by
    show ∃ ms, ObjectText ms text.toList ∧ _
    rw [chars]
    exact object_tight valid valid' keys
  refine ⟨⟨isObject [] (by decide) valid five (List.forall_mem_nil _), ?_, by cbv⟩,
    ⟨isObject [] (by decide) (spelled _).valid (.number minus) (List.forall_mem_nil _), by cbv⟩,
    ⟨isObject [] (by decide) (spelled _).valid (.string stringTail_halfPair)
      (List.forall_mem_nil _), by cbv⟩,
    isObject [⟨halfPair, ['5']⟩] (by decide) (spelled _).valid five ?_, by cbv⟩
  · intro k h
    obtain ⟨tail, -, same⟩ := h.tail
    cases (List.cons.inj same).1
  · exact List.forall_mem_singleton.2 ⟨five, rfl⟩

end Preferences
