import Preferences.Proofs.Json.Scalar
import Preferences.Proofs.Table

/-!
# Objects and lists read back

The loops over the members of an object and the items of a list, run on a printed one: they meet the
printed members or items one after another, whatever blanks the layout puts between them. `Absorbs`
says what the members do to the state of the loop, member by member, and `members_renderMembers`
that the loop does the same.
-/

namespace Preferences

/-- The layout puts blanks only, but for the colon. -/
structure Layout.Plain (l : Layout) : Prop where
  newline : ∀ n, Json.Blanks (l.newline n)
  colon : ∃ blanks, Json.Blanks blanks ∧ l.colon = ':' :: blanks

/-- A compact layout has blanks only between tokens, there being none. -/
lemma Layout.compact_plain : Layout.compact.Plain :=
  ⟨fun _ => Json.Blanks.nil, [], Json.Blanks.nil, rfl⟩

/-- A pretty layout has blanks only between tokens. -/
lemma Layout.pretty_plain : Layout.pretty.Plain := by
  refine ⟨fun n c hc => ?_, [' '], fun c hc => ?_, rfl⟩
  · rcases List.mem_cons.1 hc with rfl | hc
    · decide
    · rw [List.eq_of_mem_replicate hc]
      decide
  · rw [List.mem_singleton.1 hc]
    decide

namespace Json

variable {l : Layout} {level : Nat}

/-- Behind a colon the value is read. -/
lemma colon_reads (plain : l.Plain) {α : Type} {reader : List Char → Read α} {text : List Char}
    {a : α} (h : Reads reader text a) {rest : List Char} (stops : Stops rest) :
    ∃ cs, colon (l.colon ++ text ++ rest) = .ok cs ∧ reader cs = .ok (a, rest) := by
  obtain ⟨blanks, hb, e⟩ := plain.colon
  refine ⟨blanks ++ text ++ rest, ?_, h blanks rest hb stops⟩
  rw [e, List.append_assoc, List.cons_append, colon, skipSpace_cons _ (by decide),
    List.append_assoc]
  rfl

/-- What follows a member stops a number. -/
lemma stops_renderMembers (plain : l.Plain) (level : Nat) (ms : List (String × Json))
    (rest : List Char) :
    Stops (renderMembers l level false ms ++ rest) := by
  cases ms with
  | nil =>
    rw [renderMembers, List.append_assoc]
    exact Stops.append (plain.newline level) (Stops.cons _ (by decide))
  | cons m ms =>
    obtain ⟨k, j⟩ := m
    simp only [renderMembers, List.append_assoc]
    exact Stops.cons _ (by decide)

/-- Where there are no members the brace is next. -/
lemma nextMember_nil (plain : l.Plain) (first : Bool) (rest : List Char) :
    nextMember first (renderMembers l level first [] ++ rest) = .ok (false, '\x7d' :: rest) := by
  have blanks : Blanks (if first then [] else l.newline level) := by
    cases first with
    | true => exact Blanks.nil
    | false => exact plain.newline level
  rw [renderMembers, List.append_assoc, nextMember, List.singleton_append,
    skipSpace_append blanks _ (by decide)]
  rfl

/-- A key begins with a quote. -/
lemma stringChars_append (k : String) (cs : List Char) :
    ∃ ds, stringChars k ++ cs = '"' :: ds :=
  ⟨k.toList.flatMap escapeChar ++ ['"'] ++ cs, by simp [stringChars]⟩

/-- Before a member stand its key, a colon and its value. -/
lemma nextMember_cons (plain : l.Plain) (first : Bool) (k : String) (j : Json)
    (ms : List (String × Json)) (rest : List Char) :
    nextMember first (renderMembers l level first ((k, j) :: ms) ++ rest) =
      .ok (true, stringChars k ++
        (l.colon ++ j.render l (level + 1) ++ (renderMembers l level false ms ++ rest))) := by
  obtain ⟨ds, quote⟩ := stringChars_append k
    (l.colon ++ j.render l (level + 1) ++ (renderMembers l level false ms ++ rest))
  have text : renderMembers l level first ((k, j) :: ms) ++ rest =
      (if first then [] else [',']) ++ (l.newline (level + 1) ++ '"' :: ds) := by
    rw [renderMembers, ← quote]
    simp only [List.append_assoc]
  have before : skipSpace (l.newline (level + 1) ++ '"' :: ds) = '"' :: ds :=
    skipSpace_append (plain.newline (level + 1)) ds (by decide)
  rw [text, quote]
  cases first with
  | true =>
    rw [nextMember]
    simp [before]
  | false =>
    rw [if_neg (by decide), List.singleton_append, nextMember, skipSpace_cons _ (by decide)]
    simp [before]

/-! ## The loop over members -/

section Members

variable {κ σ : Type}

/-- The members take the state of the loop from the first to the second, one by one. -/
inductive Absorbs (key : List Char → Read κ) (member : κ → σ → List Char → Read σ) (l : Layout)
    (level : Nat) : List (String × Json) → σ → σ → Prop where
  | nil {s : σ} : Absorbs key member l level [] s s
  | cons {name : String} {k : κ} {j : Json} {ms : List (String × Json)} {s t u : σ} :
    (∀ rest, key (stringChars name ++ rest) = .ok (k, rest)) →
    (∀ rest, Stops rest → member k s (l.colon ++ j.render l (level + 1) ++ rest) = .ok (t, rest)) →
    Absorbs key member l level ms t u →
    Absorbs key member l level ((name, j) :: ms) s u

variable {key : List Char → Read κ} {member : κ → σ → List Char → Read σ}

/-- On a printed object the loop does what its members do, and stops before the brace. -/
lemma members_renderMembers (plain : l.Plain) {ms : List (String × Json)} {s u : σ}
    (h : Absorbs key member l level ms s u) {fuel : Nat} (enough : ms.length < fuel) (first : Bool)
    (rest : List Char) :
    members key member fuel first s (renderMembers l level first ms ++ rest) =
      .ok (u, '\x7d' :: rest) := by
  -- every member takes one unit of fuel, and the end of the object one more
  induction h generalizing fuel first with
  | nil =>
    obtain ⟨fuel, rfl⟩ : ∃ n, fuel = n + 1 := ⟨fuel - 1, by omega⟩
    rw [members, nextMember_nil plain]
    rfl
  | @cons name k j ms s t u named step _ ih =>
    rw [List.length_cons] at enough
    obtain ⟨fuel, rfl⟩ : ∃ n, fuel = n + 1 := ⟨fuel - 1, by omega⟩
    rw [members, nextMember_cons plain]
    simp only [bind, Except.bind, if_true, named,
      step _ (stops_renderMembers plain level ms rest)]
    exact ih (by omega) false

/-- There are no more members than characters, so the fuel is enough. -/
lemma length_le_renderMembers (first : Bool) (ms : List (String × Json)) :
    ms.length ≤ (renderMembers l level first ms).length := by
  induction ms generalizing first with
  | nil => simp
  | cons m ms ih =>
    obtain ⟨k, j⟩ := m
    have tail := ih false
    rw [renderMembers]
    simp only [List.length_append, List.length_cons, stringChars]
    omega

/-- The loop with the fuel that readers give it. -/
lemma members_of_absorbs (plain : l.Plain) {ms : List (String × Json)} {s u : σ}
    (h : Absorbs key member l level ms s u) (rest : List Char) :
    members key member ((renderMembers l level true ms ++ rest).length + 1) true s
      (renderMembers l level true ms ++ rest) = .ok (u, '\x7d' :: rest) := by
  apply members_renderMembers plain h
  have long : ms.length ≤ (renderMembers l level true ms).length :=
    length_le_renderMembers true ms
  rw [List.length_append]
  omega

end Members

/-! ## Whole objects -/

/-- A brace closes an object. -/
lemma closing_closeObject {α : Type} (a : α) (rest : List Char) :
    closing closeObject (.ok (a, '\x7d' :: rest)) = .ok (a, rest) := by
  rw [closing, closeObject, skipSpace_cons _ (by decide)]
  rfl

/-- A printed object, for a reader of objects whose body takes its members. -/
lemma reads_mapping {α : Type} {d : Nat} {expected : String} {body : Nat → List Char → Read α}
    {ms : List (String × Json)} {a : α}
    (h : ∀ rest, body d (renderMembers l level true ms ++ rest) = .ok (a, '\x7d' :: rest)) :
    Reads (mapping (d + 1) expected body) ((object ms).render l level) a := by
  intro blanks rest hb _
  rw [render, List.append_assoc, List.cons_append, mapping, beforeValue_append hb _ (by decide)]
  simp only [bind, Except.bind, if_true, deeper, h rest]
  exact closing_closeObject a rest

/-- A printed object, for a reader of lists and objects. -/
lemma reads_aggregate {α : Type} {d : Nat} {expected : String}
    {ofList ofObject : Nat → List Char → Read α} {ms : List (String × Json)} {a : α}
    (h : ∀ rest, ofObject d (renderMembers l level true ms ++ rest) = .ok (a, '\x7d' :: rest)) :
    Reads (aggregate (d + 1) expected ofList ofObject) ((object ms).render l level) a := by
  intro blanks rest hb _
  rw [render, List.append_assoc, List.cons_append, aggregate, beforeValue_append hb _ (by decide)]
  simp only [bind, Except.bind, if_true, deeper, h rest, if_neg (by decide : ¬ '\x7b' = '[')]
  exact closing_closeObject a rest

/-! ## Lists -/

/-- The text begins with a value, which may be `null` only where that is allowed. -/
def Begins (nullable : Bool) (text : List Char) : Prop :=
  ∃ c cs, text = c :: cs ∧ isSpace c = false ∧ c ≠ ']' ∧ (nullable = false → c ≠ 'n')

/-- No value is written as nothing. -/
lemma Begins.compact_ne_empty {nullable : Bool} {j : Json}
    (h : Begins nullable (j.render .compact 0)) : j.compact ≠ "" := by
  obtain ⟨c, cs, text, -⟩ := h
  rw [compact, text, Ne, String.ofList_eq_empty_iff]
  exact List.cons_ne_nil c cs

/-- Numbers stop before further items or the bracket. -/
lemma stops_renderItems (plain : l.Plain) (level : Nat) (js : List Json) (rest : List Char) :
    Stops (renderItems l level false js ++ rest) := by
  cases js with
  | nil =>
    rw [renderItems, List.append_assoc]
    exact Stops.append (plain.newline level) (Stops.cons _ (by decide))
  | cons j js =>
    simp only [renderItems, List.append_assoc]
    exact Stops.cons _ (by decide)

/-- Without items there is the bracket, behind blanks. -/
lemma renderItems_nil (plain : l.Plain) (level : Nat) (first : Bool) :
    ∃ blanks, Blanks blanks ∧ renderItems l level first [] = blanks ++ [']'] := by
  refine ⟨if first then [] else l.newline level, ?_, by rw [renderItems]⟩
  cases first with
  | true => exact Blanks.nil
  | false => exact plain.newline level

/-- Where there are no items the bracket is next. -/
lemma nextItem_nil (plain : l.Plain) (first : Bool) (rest : List Char) :
    nextItem first (renderItems l level first [] ++ rest) = .ok (false, ']' :: rest) := by
  obtain ⟨blanks, hb, text⟩ := renderItems_nil plain level first
  rw [text, List.append_assoc, nextItem, List.singleton_append, skipSpace_append hb _ (by decide)]
  rfl

/-- Where there are items the first one is next. -/
lemma nextItem_cons (plain : l.Plain) (first : Bool) {nullable : Bool} {j : Json}
    (begins : Begins nullable (j.render l (level + 1))) (js : List Json) (rest : List Char) :
    nextItem first (renderItems l level first (j :: js) ++ rest) =
      .ok (true, j.render l (level + 1) ++ (renderItems l level false js ++ rest)) := by
  obtain ⟨c, cs, value, graphic, bracket, -⟩ := begins
  have text : renderItems l level first (j :: js) ++ rest = (if first then [] else [',']) ++
      (l.newline (level + 1) ++ c :: (cs ++ (renderItems l level false js ++ rest))) := by
    rw [renderItems, value]
    simp only [List.append_assoc, List.cons_append]
  have before : skipSpace (l.newline (level + 1) ++
      c :: (cs ++ (renderItems l level false js ++ rest))) = _ :=
    skipSpace_append (plain.newline (level + 1)) _ graphic
  rw [text, value]
  cases first with
  | true =>
    rw [nextItem]
    simp [before, bracket]
  | false =>
    rw [if_neg (by decide), List.singleton_append, nextItem, skipSpace_cons _ (by decide)]
    simp [before, bracket]

/-- On a printed list the loop reads its items, and stops before the bracket. -/
lemma items_renderItems (plain : l.Plain) {α : Type} {item : List Char → Read α} {js : List Json}
    {as : List α} (h : List.Forall₂ (fun j a => Reads item (j.render l (level + 1)) a ∧
      Begins true (j.render l (level + 1))) js as) {fuel : Nat} (enough : js.length < fuel)
    (first : Bool) (rest : List Char) :
    items item fuel first (renderItems l level first js ++ rest) = .ok (as, ']' :: rest) := by
  induction h generalizing fuel first with
  | nil =>
    obtain ⟨fuel, rfl⟩ : ∃ n, fuel = n + 1 := ⟨fuel - 1, by omega⟩
    rw [items, nextItem_nil plain]
    rfl
  | @cons j a js as value _ ih =>
    rw [List.length_cons] at enough
    obtain ⟨fuel, rfl⟩ : ∃ n, fuel = n + 1 := ⟨fuel - 1, by omega⟩
    have taken := value.1 [] _ Blanks.nil (stops_renderItems plain level js rest)
    rw [items, nextItem_cons plain first value.2]
    rw [List.nil_append] at taken
    simp only [bind, Except.bind, if_true, taken, ih (by omega : js.length < fuel) false]
    rfl

/-- There are no more items than characters, so the fuel is enough. -/
lemma length_lt_renderItems (l : Layout) (level : Nat) (first : Bool) (js : List Json) :
    js.length < (renderItems l level first js).length + 1 := by
  have divided (js : List Json) : js.length < (renderItems l level false js).length := by
    induction js with
    | nil => simp [renderItems]
    | cons j js ih =>
      rw [renderItems]
      simp only [List.length_append, List.length_cons, Bool.false_eq_true, if_false]
      omega
  cases first with
  | false => exact Nat.lt_succ_of_lt (divided js)
  | true =>
    cases js with
    | nil => exact Nat.succ_pos _
    | cons j js =>
      have tail := divided js
      rw [renderItems]
      simp only [List.length_append, List.length_cons]
      omega

/-- A bracket closes a list, behind blanks. -/
lemma closing_closeList {α : Type} {blanks : List Char} (hb : Blanks blanks) (a : α)
    (rest : List Char) :
    closing closeList (.ok (a, blanks ++ ']' :: rest)) = .ok (a, rest) := by
  rw [closing, closeList, skipSpace_append hb _ (by decide)]
  rfl

/-- A printed list, for a reader of lists whose body takes its items. -/
lemma reads_sequence {α : Type} {d : Nat} {expected : String} {body : Nat → List Char → Read α}
    {js : List Json} {a : α}
    (h : ∀ rest, ∃ blanks, Blanks blanks ∧
      body d (renderItems l level true js ++ rest) = .ok (a, blanks ++ ']' :: rest)) :
    Reads (sequence (d + 1) expected body) ((array js).render l level) a := by
  intro blanks rest hb _
  obtain ⟨inside, hi, taken⟩ := h rest
  rw [render, List.append_assoc, List.cons_append, sequence, beforeValue_append hb _ (by decide)]
  simp only [bind, Except.bind, if_true, deeper, taken]
  exact closing_closeList hi a rest

/-! ## Variants -/

section Variant

variable {α : Type} {depth : Nat} {known : List String} {name : String}
  {alone : String → List Char → Read α} {keyed : String → Nat → List Char → Read α} {a : α}

/-- A variant that is only named, for a reader that takes its name. -/
lemma reads_variant_alone (listed : name ∈ known) (h : ∀ cs, alone name cs = .ok (a, cs)) :
    Reads (variant depth known alone keyed) ((string name).render l level) a := by
  intro blanks rest hb stops
  obtain ⟨ds, text⟩ := stringChars_append name rest
  have taken : variantName known (stringChars name ++ rest) = .ok (name, rest) :=
    reads_textAs (if_pos listed) [] rest Blanks.nil stops
  rw [text] at taken
  rw [render, List.append_assoc, text, variant, skipSpace_append hb _ (by decide)]
  simp [bind, Except.bind, taken, h]

/-- A variant with what it holds, for a reader that takes that. -/
lemma reads_variant_keyed (plain : l.Plain) (listed : name ∈ known) {j : Json}
    (h : Reads (keyed name depth) (j.render l (level + 1)) a) :
    Reads (variant (depth + 1) known alone keyed) ((object [(name, j)]).render l level) a := by
  intro blanks rest hb stops
  obtain ⟨cs, divided, taken⟩ := colon_reads plain h (stops_renderMembers plain level [] rest)
  have next : nextMember true (renderMembers l level true [(name, j)] ++ rest) = .ok (true, _) :=
    nextMember_cons plain true name j [] rest
  have stops : Stops (l.colon ++ j.render l (level + 1) ++
      (renderMembers l level false [] ++ rest)) := by
    obtain ⟨_, _, text⟩ := plain.colon
    rw [text]
    exact Stops.cons _ (by decide)
  have named : variantName known (stringChars name ++ _) = .ok (name, _) :=
    reads_textAs (if_pos listed) [] _ Blanks.nil stops
  have closed : skipSpace (renderMembers l level false [] ++ rest) = '\x7d' :: rest := by
    rw [renderMembers, List.append_assoc]
    exact skipSpace_append (plain.newline level) rest (by decide)
  rw [render, List.append_assoc, List.cons_append, variant, skipSpace_append hb _ (by decide)]
  simp only [bind, Except.bind, if_true, next, named, divided, taken, closed]
  rfl

end Variant

/-! ## Canonical members -/

/-- The items of a list are ordered one by one. -/
lemma canonItems_eq_map (js : List Json) : canonItems js = js.map canon := by
  induction js with
  | nil => rfl
  | cons j js ih => rw [canonItems, ih, List.map_cons]

/-- Ordered members are those that there were before, or ordered ones of the object. -/
lemma mem_canonMembers {ms done : List (String × Json)} {m : String × Json}
    (h : m ∈ canonMembers done ms) : m ∈ done ∨ ∃ n ∈ ms, m = (n.1, n.2.canon) := by
  induction ms generalizing done with
  | nil => exact .inl h
  | cons n ms ih =>
    rcases ih h with there | ⟨n', later, rfl⟩
    · rcases mem_insertEntry there with rfl | earlier
      · exact .inr ⟨n, List.mem_cons_self, rfl⟩
      · exact .inl earlier
    · exact .inr ⟨n', List.mem_cons_of_mem _ later, rfl⟩

/-- Ordered members have all keys. -/
lemma mem_keys_canonMembers {ms done : List (String × Json)} {k : String}
    (h : k ∈ done.map Prod.fst ∨ k ∈ ms.map Prod.fst) :
    k ∈ (canonMembers done ms).map Prod.fst := by
  induction ms generalizing done with
  | nil =>
    rcases h with there | there
    · exact there
    · cases there
  | cons m ms ih =>
    apply ih
    rcases h with there | there
    · exact .inl (mem_keys_insertEntry (.inr there))
    · rw [List.map_cons, List.mem_cons] at there
      rcases there with rfl | later
      · exact .inl (mem_keys_insertEntry (.inl rfl))
      · exact .inr later

/-- No two ordered members have one key. -/
lemma nodup_keys_canonMembers (ms : List (String × Json)) :
    ((canonMembers [] ms).map Prod.fst).Nodup := by
  have increase := (canonicalMembers_canonMembers ms [] List.Pairwise.nil trivial).1
  refine List.Pairwise.map _ ?_ increase
  intro e f below same
  rw [same, Std.ReflOrd.compare_self] at below
  cases below

end Json

end Preferences
