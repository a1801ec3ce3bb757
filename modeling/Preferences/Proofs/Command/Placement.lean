import Mathlib.Tactic.Lemma
import Preferences.Command.Arguments

/-!
# Options in any place

A command line of positionals and options is read for what its parts add up to, wherever the options
stand, and all words behind the one that ends the options are positionals to the letter. The reader
looks at the value of an option only when it takes the next word, so it is compared with one that
looks at once: they come to the same words, or both refuse. Main statement:
`set_is_read_wherever_options_stand`.
-/

namespace Preferences

namespace Arguments

/-! ## Command lines in parts -/

/-- A part of a command line. -/
inductive Part where
  /-- A positional, which does not begin with a hyphen. -/
  | plain (word : String) (unhyphened : word.toList.head? ≠ some '-')
  /-- The option for the kind, with the name of the kind as a word of its own. -/
  | kind (name : String)
  /-- The option for the kind, with the name behind an equals sign. -/
  | joinedKind (name : String)
  | sync

namespace Part

/-- The words of a part. -/
def words : Part → List String
  | plain word _ => [word]
  | kind name => ["--kind", name]
  | joinedKind name => ["--kind=" ++ name]
  | sync => ["--sync"]

/-- The positional that a part is. -/
def plain? : Part → Option String
  | plain word _ => some word
  | _ => none

/-- The name of a kind that a part gives. -/
def kindName? : Part → Option String
  | kind name | joinedKind name => some name
  | _ => none

/-- Is the part the option for a durable write? -/
def isSync : Part → Bool
  | sync => true
  | _ => false

end Part

/-- The parts of a command line and the words behind the one that ends the options, if there is such
a word. -/
structure Line where
  parts : List Part
  behind : Option (List String) := none

namespace Line

/-- What stands behind the parts. -/
def tail (l : Line) : List String :=
  match l.behind with
  | none => []
  | some words => "--" :: words

/-- The words of a line. -/
def words (l : Line) : List String := l.parts.flatMap Part.words ++ l.tail

/-- The positionals of a line. -/
def plain (l : Line) : List String := l.parts.filterMap Part.plain? ++ l.behind.getD []

/-- The names that are given for the kind. -/
def kindNames (l : Line) : List String := l.parts.filterMap Part.kindName?

/-- How often a durable write is asked for. -/
def syncs (l : Line) : Nat := l.parts.countP Part.isSync

end Line

/-! ## Readings that come to the same -/

section Alike

variable {α β : Type} {x y z : Except UsageFault α}

/-- The reading ends in a fault of the words, with an exit code that tells so. -/
def Refused (x : Except UsageFault α) : Prop := ∃ fault, x = .error fault ∧ fault.exitCode = 2

/-- The readings are the same or both refuse. -/
def Alike (x y : Except UsageFault α) : Prop := x = y ∨ Refused x ∧ Refused y

/-- What is refused stays so, whatever would follow. -/
lemma Refused.bind (h : Refused x) (f : α → Except UsageFault β) : Refused (x >>= f) := by
  obtain ⟨fault, rfl, code⟩ := h
  exact ⟨fault, rfl, code⟩

/-- To be read alike carries over. -/
lemma Alike.trans (h : Alike x y) (h' : Alike y z) : Alike x z := by
  rcases h with rfl | ⟨left, right⟩
  · exact h'
  · rcases h' with rfl | ⟨-, last⟩
    · exact .inr ⟨left, right⟩
    · exact .inr ⟨left, last⟩

/-- Readings that are alike stay so when they go on alike. -/
lemma Alike.bind {f g : α → Except UsageFault β} (h : ∀ a, x = .ok a → Alike (f a) (g a)) :
    Alike (x >>= f) (x >>= g) := by
  cases x with
  | error fault => exact .inl rfl
  | ok a => exact h a rfl

end Alike

variable {form : Form} {w u : Words} {fault : UsageFault} {word name : String}
  {rest : List String}

/-! ## The value that was put off -/

/-- Where no value was put off there is nothing to look at. -/
lemma settle_of_none (none : w.pending = none) : w.settle = .ok w := by
  rw [Words.settle, none]

/-- Where the value that was put off is good, nothing but it and the kind has changed. -/
lemma settle_eq_ok (h : w.settle = .ok u) :
    u.pending = none ∧ u.plain = w.plain ∧ u.sync = w.sync ∧ w.pending ≠ some none := by
  rw [Words.settle] at h
  split at h
  next none =>
    cases h
    refine ⟨none, rfl, rfl, ?_⟩
    rw [none]
    nofun
  next => cases h
  next word put =>
    split at h
    · cases h
    · split at h
      · cases h
        refine ⟨rfl, rfl, rfl, ?_⟩
        rw [put]
        nofun
      · cases h

/-- A value that is no good is a fault of the words. -/
lemma exitCode_of_settle (h : w.settle = .error fault) : fault.exitCode = 2 := by
  rw [Words.settle] at h
  split at h
  · cases h
  · cases h
    rfl
  · split at h
    · cases h
      rfl
    · split at h
      · cases h
      · cases h
        rfl

/-- A fault that does not wait is one of the words. -/
lemma exitCode_of_not_waits (h : fault.waits = false) : fault.exitCode = 2 := by
  cases fault with
  | help | version => cases h
  | _ => rfl

/-- Looking at the value first makes no difference to an option. -/
lemma takeOption_of_settle (h : w.settle = .ok u) (o : OptionWord) :
    w.takeOption form o = u.takeOption form o := by
  obtain ⟨none, -, -, -⟩ := settle_eq_ok h
  have settled : u.settle = .ok u := settle_of_none none
  unfold Words.takeOption
  split
  · rw [h, settled]
  · rw [h, settled]
  · rw [Words.report, Words.report, h, settled]

/-- Looking at the value first makes no difference to a plain word. -/
lemma takePlain_of_settle (h : w.settle = .ok u) (word : String) :
    w.takePlain form word = u.takePlain form word := by
  obtain ⟨none, plain, -, -⟩ := settle_eq_ok h
  rw [Words.takePlain, Words.takePlain, plain, h, settle_of_none none]

/-- Looking at the value first makes no difference to what is read. -/
lemma read_of_settle (h : w.settle = .ok u) (escaped : Bool) (words : List String) :
    read form escaped w words = read form escaped u words := by
  obtain ⟨none, -, -, put⟩ := settle_eq_ok h
  induction words generalizing escaped with
  | nil => rw [read, read, h, settle_of_none none]
  | cons word rest ih =>
    have other : u.pending ≠ some Option.none := by
      rw [none]
      nofun
    rw [read, read, takePlain_of_settle h, ih true]
    cases option? word with
    | none => rw [if_neg put, if_neg other]
    | some o =>
      dsimp only
      rw [takeOption_of_settle h]

section Unsettled

variable (h : w.settle = .error fault)
include h

/-- Where the value that was put off is no good, every option is refused. -/
lemma refused_takeOption (o : OptionWord) : Refused (w.takeOption form o) := by
  have earlier : Refused (Except.error fault : Except UsageFault Words) :=
    ⟨fault, rfl, exitCode_of_settle h⟩
  unfold Words.takeOption
  split
  · split
    · rw [h]
      exact earlier.bind _
    · exact ⟨_, rfl, rfl⟩
  · split
    · split
      · exact ⟨_, rfl, rfl⟩
      · rw [h]
        exact earlier.bind _
    · exact ⟨_, rfl, rfl⟩
  · rw [Words.report]
    split
    · rw [h]
      exact earlier
    next waits => exact ⟨_, rfl, exitCode_of_not_waits (Bool.eq_false_iff.2 waits)⟩

/-- So is every plain word. -/
lemma refused_takePlain (word : String) : Refused (w.takePlain form word) := by
  rw [Words.takePlain]
  split
  · rw [h]
    exact ⟨fault, rfl, exitCode_of_settle h⟩
  · exact ⟨_, rfl, rfl⟩

/-- So is all that stands behind two hyphens. -/
lemma refused_escaped (words : List String) : Refused (read form true w words) := by
  cases words with
  | nil => exact ⟨fault, h, exitCode_of_settle h⟩
  | cons word rest => exact (refused_takePlain h word).bind _

/-- A value that is no good is refused at the next word, unless the word is that value. -/
lemma refused_read {words : List String}
    (looked : w.pending = some none → ∀ word rest, words = word :: rest → word ≠ "--" →
      option? word ≠ none) : Refused (read form false w words) := by
  cases words with
  | nil => exact ⟨fault, h, exitCode_of_settle h⟩
  | cons word rest =>
    rw [read, if_neg (by decide)]
    split
    · exact refused_escaped h rest
    next ends =>
      split
      next o _ => exact (refused_takeOption h o).bind _
      next plain =>
        rw [if_neg fun put => looked put word rest rfl ends plain]
        exact (refused_takePlain h word).bind _

end Unsettled

/-- The value may be looked at before the next word is taken. -/
lemma alike_settle (put : w.pending ≠ some none) (words : List String) :
    Alike (read form false w words) (w.settle >>= fun u => read form false u words) := by
  rcases h : w.settle with fault | u
  · exact .inr ⟨refused_read h fun waits => absurd waits put, fault, rfl, exitCode_of_settle h⟩
  · exact .inl (read_of_settle h false words)

/-! ## Parts are taken -/

/-- Takes a part, and looks at its value at once. -/
def Part.take (form : Form) (w : Words) : Part → Except UsageFault Words
  | plain word _ =>
    if w.plain.length < form.arity then .ok { w with plain := w.plain ++ [word] }
    else .error .unknownArgument
  | kind name | joinedKind name => Words.settle { w with pending := some (some name) }
  | sync => if w.sync then .error .conflict else .ok { w with sync := true }

/-- A word that does not begin with a hyphen is plain. -/
lemma option?_eq_none (plain : word.toList.head? ≠ some '-') : option? word = none := by
  unfold option?
  split
  next same => exact absurd (congrArg List.head? same) plain
  next same => exact absurd (congrArg List.head? same) plain
  next => rfl

/-- A kind joined to its option is an option with a value. -/
lemma option?_joinedKind (name : String) :
    option? ("--kind=" ++ name) = some (.long "kind" (some name)) := by
  have shape : ("--kind=" ++ name).toList =
      '-' :: '-' :: 'k' :: 'i' :: 'n' :: 'd' :: '=' :: name.toList := by
    rw [String.toList_append]
    rfl
  rw [option?, shape]
  simp [List.takeWhile, List.dropWhile]

/-- A kind is found under its name. -/
lemma ofName?_name (kind : ValueKind) : ValueKind.ofName? kind.name = some kind := by
  cases kind <;> decide

/-- No two kinds have one name. -/
lemma name_inj {kind kind' : ValueKind} (h : kind.name = kind'.name) : kind = kind' := by
  have known := ofName?_name kind
  rw [h, ofName?_name] at known
  exact (Option.some.inj known).symm

/-- The kind that is found under a name has that name. -/
lemma name_ofName? {kind : ValueKind} (h : ValueKind.ofName? name = some kind) :
    kind.name = name := by
  have found := List.find?_some h
  exact eq_of_beq found

/-- The name of a kind is a plain word. -/
lemma settle_hyphened (hyphened : name ≠ "--" → option? name ≠ none) (w : Words) :
    Refused (Words.settle { w with pending := some (some name) }) := by
  have unknown : ValueKind.ofName? name = none := by
    cases known : ValueKind.ofName? name with
    | none => rfl
    | some kind =>
      obtain rfl := name_ofName? known
      have plain : option? kind.name = none := by cases kind <;> rfl
      exact absurd plain (hyphened (by cases kind <;> decide))
  rw [Words.settle]
  dsimp only
  split
  · exact ⟨_, rfl, rfl⟩
  · rw [unknown]
    exact ⟨_, rfl, rfl⟩

/-- An option is taken as one, and the reading goes on behind it. -/
lemma read_option {o : OptionWord} (option : option? word = some o) (ends : word ≠ "--") :
    read form false w (word :: rest) = w.takeOption form o >>= fun u => read form false u rest := by
  rw [read, if_neg (by decide), if_neg ends, option]

/-- A word that is no option is taken as a plain one, and the reading goes on behind it. -/
lemma read_word (plain : option? word = none) (ends : word ≠ "--")
    (looked : w.pending ≠ some none) :
    read form false w (word :: rest) =
      w.takePlain form word >>= fun u => read form false u rest := by
  rw [read, if_neg (by decide), if_neg ends, plain]
  dsimp only
  rw [if_neg looked]

/-- The option for the kind puts off its value. -/
lemma read_kind_option (takes : form.takesKind = true) (settled : w.pending = none) :
    read form false w ("--kind" :: rest) =
      read form false { w with pending := some none } rest := by
  rw [read_option (o := .long "kind" none) rfl (by decide), Words.takeOption, if_pos takes,
    settle_of_none settled]
  rfl

/-- A kind joined to its option does not end the options. -/
lemma joinedKind_ne_ends (name : String) : "--kind=" ++ name ≠ "--" := by
  intro same
  have option := option?_joinedKind name
  rw [same] at option
  have bare : option? "--" = some (.long "" Option.none) := rfl
  cases (OptionWord.long.inj (Option.some.inj (bare.symm.trans option))).2

/-- The word behind the option for the kind is its name. Where that word could be an option itself,
the reader finds no name and looking at once finds an unknown one. -/
lemma alike_name (w : Words) (name : String) (rest : List String) :
    Alike (read form false { w with pending := some none } (name :: rest))
      (Words.settle { w with pending := some (some name) } >>= fun u =>
        read form false u rest) := by
  by_cases hyphened : name ≠ "--" → option? name ≠ none
  · refine .inr ⟨?_, (settle_hyphened hyphened w).bind _⟩
    have waits : Words.settle { w with pending := some none } = .error .invalidValue := rfl
    refine refused_read waits fun _ word others same ends => ?_
    cases same
    exact hyphened ends
  · obtain ⟨ends, plain⟩ := Classical.not_imp.1 hyphened
    rw [read, if_neg (by decide), if_neg ends, Classical.not_not.1 plain]
    dsimp only
    rw [if_pos rfl]
    exact alike_settle (fun same => by cases same) rest

/-- A part is read as it is taken. -/
lemma Part.alike_take (takes : form.takesKind = true ∧ form.takesSync = true)
    (none : w.pending = none) (p : Part)
    (rest : List String) : Alike (read form false w (p.words ++ rest))
      (p.take form w >>= fun u => read form false u rest) := by
  cases p with
  | plain word unhyphened =>
    have plain := option?_eq_none unhyphened
    have ends : word ≠ "--" := by
      rintro rfl
      cases plain
    have looked : w.pending ≠ some Option.none := by
      rw [none]
      nofun
    refine .inl ?_
    show read form false w (word :: rest) = _
    rw [read_word plain ends looked, Words.takePlain, settle_of_none none, take]
    split <;> rfl
  | joinedKind name =>
    refine .inl ?_
    show read form false w (("--kind=" ++ name) :: rest) = _
    rw [read_option (option?_joinedKind name) (joinedKind_ne_ends name), Words.takeOption,
      if_pos takes.1, settle_of_none none]
    rfl
  | sync =>
    refine .inl ?_
    show read form false w ("--sync" :: rest) = _
    rw [read_option (o := .long "sync" Option.none) rfl (by decide), Words.takeOption,
      if_pos takes.2, settle_of_none none, take]
    rfl
  | kind name =>
    show Alike (read form false w ("--kind" :: name :: rest)) _
    rw [read_kind_option takes.1 none]
    exact alike_name w name rest

/-- Takes parts one after another. -/
def takeAll (form : Form) (w : Words) (parts : List Part) : Except UsageFault Words :=
  parts.foldlM (Part.take form) w

/-- After a part no value is put off. -/
lemma Part.pending_of_take {p : Part} (none : w.pending = none) (h : p.take form w = .ok u) :
    u.pending = Option.none := by
  cases p with
  | plain | sync =>
    rw [take] at h
    split at h <;> cases h
    exact none
  | kind | joinedKind =>
    rw [take] at h
    exact (settle_eq_ok h).1

/-- A part is refused for a fault of the words alone. -/
lemma Part.exitCode_of_take {p : Part} (h : p.take form w = .error fault) :
    fault.exitCode = 2 := by
  cases p with
  | plain | sync =>
    rw [take] at h
    split at h <;> cases h
    rfl
  | kind | joinedKind =>
    rw [take] at h
    exact exitCode_of_settle h

/-- Parts are read as they are taken. -/
lemma alike_takeAll (takes : form.takesKind = true ∧ form.takesSync = true) (parts : List Part)
    (none : w.pending = none) (rest : List String) :
    Alike (read form false w (parts.flatMap Part.words ++ rest))
      (takeAll form w parts >>= fun u => read form false u rest) := by
  induction parts generalizing w with
  | nil => exact .inl rfl
  | cons p parts ih =>
    rw [List.flatMap_cons, List.append_assoc]
    apply (p.alike_take takes none _).trans
    rw [takeAll, List.foldlM_cons, bind_assoc]
    exact .bind fun u taken => ih (p.pending_of_take none taken)

/-! ## What parts add up to -/

/-- The name of the kind that has been taken. -/
def Words.kindNames (w : Words) : List String := (w.kind.map ValueKind.name).toList

/-- What parts add to the words taken before. -/
structure Adds (parts : List Part) (w u : Words) : Prop where
  plain : u.plain = w.plain ++ parts.filterMap Part.plain?
  kind : u.kindNames = w.kindNames ++ parts.filterMap Part.kindName?
  sync : u.sync.toNat = w.sync.toNat + parts.countP Part.isSync
  settled : u.pending = none

/-- At most one kind is taken. -/
lemma length_kindNames (w : Words) : w.kindNames.length ≤ 1 := by
  rw [Words.kindNames]
  cases w.kind with
  | none => exact Nat.zero_le 1
  | some kind => exact Nat.le_refl 1

/-- The name of a kind that was taken is that of a kind. -/
lemma ofName?_of_mem_kindNames (h : name ∈ w.kindNames) :
    ∃ kind, ValueKind.ofName? name = some kind := by
  rw [Words.kindNames, Option.mem_toList, Option.map_eq_some_iff] at h
  obtain ⟨kind, -, rfl⟩ := h
  exact ⟨kind, ofName?_name kind⟩

/-- A part and then others add what all of them add. -/
lemma Adds.cons {p : Part} {v : Words} {parts : List Part} (h : Adds [p] w v) :
    Adds (p :: parts) w u ↔ Adds parts v u := by
  have plain := h.plain
  have kind := h.kind
  have sync := h.sync
  rw [List.filterMap_cons, List.filterMap_nil] at plain kind
  rw [List.countP_cons, List.countP_nil] at sync
  constructor
  · rintro ⟨plain', kind', sync', settled⟩
    rw [List.filterMap_cons] at plain' kind'
    rw [List.countP_cons] at sync'
    refine ⟨?_, ?_, ?_, settled⟩
    · rw [plain', plain]
      cases p.plain? <;> simp
    · rw [kind', kind]
      cases p.kindName? <;> simp
    · omega
  · rintro ⟨plain', kind', sync', settled⟩
    refine ⟨?_, ?_, ?_, settled⟩
    · rw [plain', plain, List.filterMap_cons]
      cases p.plain? <;> simp
    · rw [kind', kind, List.filterMap_cons]
      cases p.kindName? <;> simp
    · rw [List.countP_cons]
      omega

/-- A value that was put off and is good gives the kind, if none was given before. -/
lemma settle_put (h : Words.settle { w with pending := some (some name) } = .ok u) :
    w.kind = none ∧ ∃ kind, kind.name = name ∧
      u = { w with kind := some kind, pending := none } := by
  rw [Words.settle] at h
  dsimp only at h
  split at h
  · cases h
  next first =>
    split at h
    next kind named =>
      cases h
      exact ⟨Option.not_isSome_iff_eq_none.1 first, kind, name_ofName? named, rfl⟩
    next => cases h

/-- A part that is taken is added. -/
lemma Part.adds_take {p : Part} (none : w.pending = none) (h : p.take form w = .ok u) :
    Adds [p] w u := by
  cases p with
  | plain =>
    rw [take] at h
    split at h <;> cases h
    exact ⟨rfl, (List.append_nil _).symm, rfl, none⟩
  | kind | joinedKind =>
    rw [take] at h
    obtain ⟨first, kind, rfl, rfl⟩ := settle_put h
    refine ⟨(List.append_nil _).symm, ?_, rfl, rfl⟩
    rw [Words.kindNames, Words.kindNames, first]
    rfl
  | sync =>
    rw [take] at h
    split at h
    · cases h
    next first =>
      cases h
      refine ⟨(List.append_nil _).symm, (List.append_nil _).symm, ?_, none⟩
      rw [Bool.eq_false_iff.2 first]
      rfl

/-- A kind that is refused is not added: it is the second one, or there is no such kind. -/
lemma not_adds_of_settle {p : Part} {parts : List Part} (given : p.kindName? = some name)
    (refused : Words.settle { w with pending := some (some name) } = .error fault) :
    ¬Adds (p :: parts) w u := by
  intro added
  have kind := added.kind
  rw [List.filterMap_cons, given] at kind
  have few := length_kindNames u
  rw [kind, List.length_append, List.length_cons] at few
  have first : w.kind = none := by
    cases taken : w.kind with
    | none => rfl
    | some kind =>
      rw [Words.kindNames, taken] at few
      exact absurd few (by simp)
  have there : name ∈ u.kindNames := by
    rw [kind]
    exact List.mem_append_right _ List.mem_cons_self
  obtain ⟨kind, known⟩ := ofName?_of_mem_kindNames there
  rw [Words.settle] at refused
  simp [first, known] at refused

/-- A part that is refused cannot be added, unless there is no place for it. -/
lemma Part.not_adds {p : Part} {parts : List Part} (h : p.take form w = .error fault)
    (added : Adds (p :: parts) w u) : form.arity < u.plain.length := by
  have plain := added.plain
  have sync := added.sync
  cases p with
  | plain word unhyphened =>
    rw [take] at h
    split at h
    · cases h
    next full =>
      rw [plain, List.filterMap_cons, List.length_append]
      simp only [plain?, List.length_cons]
      omega
  | kind | joinedKind => exact absurd added (not_adds_of_settle rfl h)
  | sync =>
    rw [take] at h
    split at h
    next second =>
      rw [second, List.countP_cons_of_pos (by rfl)] at sync
      have once := Bool.toNat_le u.sync
      rw [Bool.toNat_true] at sync
      omega
    next => cases h

/-- Parts that are taken are added. -/
lemma adds_takeAll {parts : List Part} (none : w.pending = none)
    (h : takeAll form w parts = .ok u) : Adds parts w u := by
  induction parts generalizing w with
  | nil =>
    cases h
    exact ⟨(List.append_nil _).symm, (List.append_nil _).symm, rfl, none⟩
  | cons p parts ih =>
    rw [takeAll, List.foldlM_cons] at h
    cases first : p.take form w with
    | error fault =>
      rw [first] at h
      cases h
    | ok v =>
      rw [first] at h
      exact (Part.adds_take none first).cons.2 (ih (p.pending_of_take none first) h)

/-- Parts that are refused cannot be added, unless there is no place for them. -/
lemma not_adds_of_takeAll {parts : List Part} (none : w.pending = none)
    (h : takeAll form w parts = .error fault) :
    fault.exitCode = 2 ∧ ∀ u, Adds parts w u → form.arity < u.plain.length := by
  induction parts generalizing w with
  | nil => cases h
  | cons p parts ih =>
    rw [takeAll, List.foldlM_cons] at h
    cases first : p.take form w with
    | error earlier =>
      rw [first] at h
      cases h
      exact ⟨p.exitCode_of_take first, fun u added => p.not_adds first added⟩
    | ok v =>
      rw [first] at h
      obtain ⟨code, full⟩ := ih (p.pending_of_take none first) h
      exact ⟨code, fun u added => full u ((Part.adds_take none first).cons.1 added)⟩

/-! ## Words behind the end of the options -/

/-- The tail of a line is what stands behind two hyphens, if they are there. -/
lemma read_tail (w : Words) (l : Line) :
    read form false w l.tail = read form true w (l.behind.getD []) := by
  rw [Line.tail]
  cases l.behind with
  | none => rw [read, Option.getD_none, read]
  | some words => rw [read, if_neg (by decide), if_pos rfl, Option.getD_some]

/-- Behind the end of the options every word is plain. -/
lemma plain_of_escaped {words : List String} (none : w.pending = none)
    (h : read form true w words = .ok u) : u = { w with plain := w.plain ++ words } := by
  induction words generalizing w with
  | nil =>
    rw [read, settle_of_none none] at h
    cases h
    rw [List.append_nil]
  | cons word rest ih =>
    rw [read, if_pos rfl, Words.takePlain, settle_of_none none] at h
    split at h
    · have later : read form true { w with plain := w.plain ++ [word] } rest = .ok u := h
      rw [ih (w := { w with plain := w.plain ++ [word] }) none later, List.append_assoc]
      rfl
    · cases h

/-- Words behind two hyphens are refused only where they are too many. -/
lemma full_of_escaped {words : List String} (none : w.pending = none)
    (h : read form true w words = .error fault) :
    fault.exitCode = 2 ∧ form.arity < w.plain.length + words.length := by
  induction words generalizing w with
  | nil =>
    rw [read, settle_of_none none] at h
    cases h
  | cons word rest ih =>
    rw [read, if_pos rfl, Words.takePlain, settle_of_none none] at h
    rw [List.length_cons]
    split at h
    · have later : read form true { w with plain := w.plain ++ [word] } rest = .error fault := h
      obtain ⟨code, full⟩ := ih (w := { w with plain := w.plain ++ [word] }) none later
      simp only [List.length_append, List.length_cons, List.length_nil] at full
      exact ⟨code, by omega⟩
    · cases h
      exact ⟨rfl, by omega⟩

/-! ## Whole lines -/

/-- The line asks for a set: it has a key and a value, at most one name of a kind, which is one that
there is, and asks at most once for a durable write. -/
structure Line.Sets (l : Line) (key value : String) (kind : ValueKind) (sync : Bool) : Prop where
  plain : l.plain = [key, value]
  kind : l.kindNames = [] ∧ kind = .string ∨ l.kindNames = [kind.name]
  sync : l.syncs = sync.toNat

/-- The words that the parts of a line for a set add up to. -/
lemma Line.Sets.added {l : Line} {key value : String} {kind : ValueKind} {sync : Bool}
    (sets : l.Sets key value kind sync) :
    ∃ u : Words, Adds l.parts {} u ∧ u.plain.length + (l.behind.getD []).length = 2 := by
  refine ⟨{ plain := l.parts.filterMap Part.plain?
            kind := if l.kindNames = [] then none else some kind
            sync := sync }, ⟨rfl, ?_, ?_, rfl⟩, ?_⟩
  · show Words.kindNames _ = l.kindNames
    rcases sets.kind with ⟨given, -⟩ | given
    · simp [Words.kindNames, given]
    · simp [Words.kindNames, given]
  · show sync.toNat = 0 + l.syncs
    rw [sets.sync, Nat.zero_add]
  · have size := congrArg List.length sets.plain
    rw [Line.plain, List.length_append] at size
    exact size

/-- The words that a line adds up to. -/
lemma words_of_read (takes : form.takesKind = true ∧ form.takesSync = true) {l : Line}
    (h : read form false {} l.words = .ok u) :
    u.plain = l.plain ∧ u.kindNames = l.kindNames ∧ u.sync.toNat = l.syncs := by
  have same : takeAll form {} l.parts >>= (fun v => read form false v l.tail) = .ok u := by
    rcases alike_takeAll takes l.parts (w := {}) rfl l.tail with same | ⟨⟨_, refused, _⟩, _⟩
    · exact same.symm.trans h
    · cases h.symm.trans refused
  cases first : takeAll form {} l.parts with
  | error fault =>
    rw [first] at same
    cases same
  | ok v =>
    rw [first] at same
    obtain ⟨plain, kind, sync, settled⟩ := adds_takeAll rfl first
    have rest : read form false v l.tail = .ok u := same
    rw [read_tail] at rest
    rw [plain_of_escaped settled rest]
    refine ⟨?_, kind, ?_⟩
    · rw [plain]
      rfl
    · rw [sync, Bool.toNat_false, Nat.zero_add]
      rfl

/-- A line that asks for a set is refused only where there is no place for two positionals. -/
lemma fault_of_read (takes : form.takesKind = true ∧ form.takesSync = true) {l : Line}
    (h : read form false {} l.words = .error fault) : fault.exitCode = 2 ∧
      ∀ key value kind sync, l.Sets key value kind sync → form.arity < 2 := by
  have same : ∃ other, takeAll form {} l.parts >>= (fun v => read form false v l.tail) =
      .error other ∧ (other.exitCode = 2 → fault.exitCode = 2) := by
    rcases alike_takeAll takes l.parts (w := {}) rfl l.tail with
      same | ⟨⟨_, refused, code⟩, other, refused', -⟩
    · exact ⟨fault, same.symm.trans h, id⟩
    · cases h.symm.trans refused
      exact ⟨other, refused', fun _ => code⟩
  obtain ⟨other, same, code⟩ := same
  cases first : takeAll form {} l.parts with
  | error earlier =>
    rw [first] at same
    cases same
    obtain ⟨code', full⟩ := not_adds_of_takeAll rfl first
    refine ⟨code code', fun key value kind sync sets => ?_⟩
    obtain ⟨whole, added, size⟩ := sets.added
    have long := full whole added
    omega
  | ok v =>
    rw [first] at same
    obtain ⟨plain, -, -, settled⟩ := adds_takeAll rfl first
    have rest : read form false v l.tail = .error other := same
    rw [read_tail] at rest
    obtain ⟨code', full⟩ := full_of_escaped settled rest
    refine ⟨code code', fun key value kind sync sets => ?_⟩
    have size := congrArg List.length sets.plain
    have whole : v.plain.length = (l.parts.filterMap Part.plain?).length :=
      congrArg List.length plain
    rw [Line.plain, List.length_append, List.length_cons, List.length_cons, List.length_nil] at size
    omega

end Arguments

open Arguments

namespace Command

/-- A set is read by its form and then made into a command. -/
lemma parse_set (rest : List String) :
    parse ("set" :: rest) = (read Subcommand.set.form false {} rest).bind Subcommand.set.command :=
  rfl

/-- A set needs a key and a value, and is made of them, of the kind and of the durability asked for.
-/
lemma command_eq_ok {u : Words} {key value : String} (plain : u.plain = [key, value]) :
    Subcommand.set.command u = .ok (.set key value (u.kind.getD .string) u.sync) := by
  obtain ⟨_, kind, sync, pending⟩ := u
  cases plain
  rfl

/-- With fewer words, or more, no set is made. -/
lemma command_eq_error {u : Words} (size : u.plain.length ≠ 2) :
    Subcommand.set.command u = .error .missingArgument := by
  obtain ⟨plain, kind, sync, pending⟩ := u
  rcases plain with _ | ⟨key, _ | ⟨value, _ | ⟨word, rest⟩⟩⟩
  · rfl
  · rfl
  · exact absurd rfl size
  · rfl

/-- A line that asks for a set is read as that set. -/
lemma parse_of_sets {l : Line} {key value : String} {kind : ValueKind} {sync : Bool}
    (sets : l.Sets key value kind sync) :
    parse ("set" :: l.words) = .ok (.set key value kind sync) := by
  rw [parse_set]
  cases h : read Subcommand.set.form false {} l.words with
  | error fault =>
    obtain ⟨-, full⟩ := fault_of_read ⟨rfl, rfl⟩ h
    exact absurd (full key value kind sync sets) (Nat.lt_irrefl 2)
  | ok u =>
    obtain ⟨plain, kindNames, syncs⟩ := words_of_read ⟨rfl, rfl⟩ h
    have asked : ∀ a b : Bool, a.toNat = b.toNat → a = b := by decide
    have sync' : u.sync = sync := asked _ _ (syncs.trans sets.sync)
    have kind' : u.kind.getD .string = kind := by
      rw [Words.kindNames] at kindNames
      rcases sets.kind with ⟨given, rfl⟩ | given
      · rw [given, Option.toList_eq_nil_iff, Option.map_eq_none_iff] at kindNames
        rw [kindNames, Option.getD_none]
      · rw [given, Option.toList_eq_singleton_iff, Option.map_eq_some_iff] at kindNames
        obtain ⟨taken, same, named⟩ := kindNames
        rw [same, Option.getD_some, name_inj named]
    show Subcommand.set.command u = _
    rw [command_eq_ok (plain.trans sets.plain), kind', sync']

example : parse ["set", "--sync", "k", "--kind=int", "--", "-1"] =
    .ok (.set "k" "-1" .int true) := by
  cbv

/-- A line that does not ask for a set is refused, whichever of these is wrong with it. -/
lemma refused_of_misfit {l : Line} (wrong : l.plain.length ≠ 2 ∨ 1 < l.kindNames.length ∨
    1 < l.syncs ∨ ∃ name ∈ l.kindNames, ∀ kind : ValueKind, kind.name ≠ name) :
    Refused (parse ("set" :: l.words)) := by
  rw [parse_set]
  cases h : read Subcommand.set.form false {} l.words with
  | error fault => exact ⟨fault, rfl, (fault_of_read ⟨rfl, rfl⟩ h).1⟩
  | ok u =>
    obtain ⟨plain, kindNames, syncs⟩ := words_of_read ⟨rfl, rfl⟩ h
    have size : u.plain.length ≠ 2 := by
      rw [plain]
      rcases wrong with size | names | twice | ⟨name, given, unknown⟩
      · exact size
      · rw [← kindNames] at names
        exact absurd (length_kindNames u) (Nat.not_le.2 names)
      · rw [← syncs] at twice
        exact absurd (Bool.toNat_le u.sync) (Nat.not_le.2 twice)
      · rw [← kindNames] at given
        obtain ⟨kind, known⟩ := ofName?_of_mem_kindNames given
        exact absurd (name_ofName? known) (unknown kind)
    exact ⟨.missingArgument, command_eq_error size, rfl⟩

end Command

/-- A line of positionals and options for a set, with its options in any places, is read for what
its parts add up to: the key and the value, to the letter where they stand behind the word that ends
the options, the kind that is given or else that of texts, and whether a durable write is asked for.
With a positional too few or too many, an option repeated or a kind that there is not, it is
refused. -/
theorem set_is_read_wherever_options_stand (l : Line) :
    (∀ key value kind sync, l.Sets key value kind sync →
      Command.parse ("set" :: l.words) = .ok (.set key value kind sync)) ∧
    (l.plain.length ≠ 2 ∨ 1 < l.kindNames.length ∨ 1 < l.syncs ∨
      (∃ name ∈ l.kindNames, ∀ kind : ValueKind, kind.name ≠ name) →
      ∃ fault, Command.parse ("set" :: l.words) = .error fault ∧ fault.exitCode = 2) :=
  ⟨fun _ _ _ _ sets => Command.parse_of_sets sets, fun wrong => Command.refused_of_misfit wrong⟩

/-- Empty and hyphened words are set where no option is looked for. An unknown kind is refused, and
so is a third positional. -/
theorem odd_words_are_set_behind_options :
    let line : Line :=
      { parts := [.joinedKind "json", .plain "" (by decide), .sync], behind := some ["--"] }
    let unknown : Line :=
      { parts := [.plain "k" (by decide), .kind "--sync", .plain "v" (by decide)] }
    let crowded : Line :=
      { parts := [.kind "int", .plain "k" (by decide), .plain "v" (by decide)]
        behind := some ["w"] }
    line.words = ["--kind=json", "", "--sync", "--", "--"] ∧
      Command.parse ("set" :: line.words) = .ok (.set "" "--" .json true) ∧
      unknown.words = ["k", "--kind", "--sync", "v"] ∧
      (∃ fault, Command.parse ("set" :: unknown.words) = .error fault ∧ fault.exitCode = 2) ∧
      crowded.words = ["--kind", "int", "k", "v", "--", "w"] ∧
      ∃ fault, Command.parse ("set" :: crowded.words) = .error fault ∧ fault.exitCode = 2 := by
  intro line unknown crowded
  refine ⟨rfl, (set_is_read_wherever_options_stand line).1 "" "--" .json true ⟨rfl, .inr rfl, rfl⟩,
    rfl, (set_is_read_wherever_options_stand unknown).2 ?_, rfl,
    (set_is_read_wherever_options_stand crowded).2 (.inl (by decide))⟩
  exact .inr (.inr (.inr ⟨"--sync", List.mem_singleton_self _, by rintro ⟨⟩ <;> decide⟩))

end Preferences
