import Mathlib.Data.List.Flatten
import Mathlib.Tactic.Lemma
import Preferences.Files.Disk
import Preferences.Proofs.Text.Utf8

/-!
# Paths and their texts

A path that has a directory above it is the path of that directory and one more name. A name that is
joined to a text is the last name of the path that the whole text writes. And a path is as long as
its text, of which nothing is lost: what is passed over is counted. Main statements:
`parent?_eq_some`, `ofString_joinPath` and `size_ofString`.
-/

namespace Preferences.Path

variable {p q : Path}

/-- A path is the one of its directory and one more name, with what is looked up behind it. -/
lemma parent?_eq_some (above : p.parent? = some q) :
    ∃ last, p.names = q.names ++ [last] ∧ q.absolute = p.absolute ∧ q.ending = .name ∧
      p.steps = q.steps ++ last :: p.trailing := by
  rw [parent?] at above
  split at above
  · cases above
  next names =>
    cases above
    have whole := (List.dropLast_concat_getLast names).symm
    refine ⟨_, whole, rfl, rfl, ?_⟩
    rw [Path.steps, Path.steps, List.append_cons]
    exact congrArg (· ++ p.trailing) (whole.trans (congrArg (· ++ _) (List.append_nil _).symm))

/-- The directory above is looked for from the same place on. -/
lemma start_parent (above : p.parent? = some q) (cwd : List String) :
    q.start cwd = p.start cwd := by
  obtain ⟨last, -, absolute, -⟩ := parent?_eq_some above
  rw [start, start, absolute]

/-- The path of a directory above a path is not empty where it has a name. -/
lemma isEmpty_of_parent? (above : p.parent? = some q) : p.isEmpty = false := by
  obtain ⟨last, names, -⟩ := parent?_eq_some above
  have named : p.names ≠ [] := by
    rw [names]
    exact List.append_ne_nil_of_right_ne_nil _ (List.cons_ne_nil _ _)
  rw [isEmpty, Bool.and_eq_false_iff, List.isEmpty_eq_false_iff]
  exact .inr named

/-- All that is passed over on the way to the directory above is passed over. -/
lemma passedOver_parent (above : p.parent? = some q) :
    q.passedOver.Sublist p.passedOver := by
  rw [parent?] at above
  split at above
  · cases above
  · cases above
    exact List.filter_sublist

/-- Where the system takes a path, it takes that of the directory above. -/
lemma fault?_parent (above : p.parent? = some q) (fits : p.fault? = none) : q.fault? = none := by
  obtain ⟨last, names, absolute, -⟩ := parent?_eq_some above
  have fewer := ((passedOver_parent above).map fun e => utf8 e.2).flatten.length_le
  have shorter : q.size ≤ p.size := by
    rw [← List.flatMap_def, ← List.flatMap_def] at fewer
    rw [size, size, names, List.flatMap_append, List.length_append, absolute]
    omega
  rw [fault?] at fits ⊢
  split at fits
  · cases fits
  next clean =>
    split at fits
    · cases fits
    next short =>
      rw [names, List.any_append, Bool.or_eq_true, not_or] at clean
      rw [if_neg clean.1, if_neg fun long => short (Nat.lt_of_lt_of_le long shorter)]

/-- What a path has to end in, for a file to have its name. -/
lemma isNamed_iff : p.isNamed = true ↔
    p.trailing = [] ∧ ∃ front last, p.names = front ++ [last] ∧ last ≠ "." ∧ last ≠ ".." := by
  have ending : p.ending ≠ .dot ↔ p.trailing = [] := by
    rw [trailing]
    split
    next dot => exact iff_of_false (fun other => other dot) (List.cons_ne_nil _ _)
    next other => exact iff_of_true other rfl
  simp only [isNamed, Bool.and_eq_true, bne_iff_ne, Option.any_eq_true, List.getLast?_eq_some_iff,
    ending]
  constructor
  · rintro ⟨plain, last, ⟨front, names⟩, named⟩
    exact ⟨plain, front, last, names, named⟩
  · rintro ⟨plain, front, last, names, named⟩
    exact ⟨plain, last, ⟨front, names⟩, named⟩

/-- A path that a file can have has a directory above it. -/
lemma parent?_of_isNamed (named : p.isNamed = true) : ∃ q, p.parent? = some q := by
  obtain ⟨-, front, last, names, -⟩ := isNamed_iff.1 named
  refine ⟨_, if_neg ?_⟩
  rw [names]
  exact List.append_ne_nil_of_right_ne_nil _ (List.cons_ne_nil _ _)

/-- The path of a directory above a path has nothing behind its last name. -/
lemma trailing_parent (above : p.parent? = some q) : q.trailing = [] := by
  obtain ⟨-, -, -, ending, -⟩ := parent?_eq_some above
  rw [trailing, ending]
  rfl

/-! ## The path that a text writes -/

/-- The parts of a text before and behind a slash are those of each. -/
lemma parts_append (cs ds : List Char) : parts (cs ++ '/' :: ds) = parts cs ++ parts ds := by
  induction cs with
  | nil => rfl
  | cons c cs ih =>
    rw [parts, parts, List.cons_append, List.cons.injEq] at ih
    obtain ⟨first, rest⟩ := ih
    rw [parts, parts, List.cons_append, segments, segments]
    dsimp only
    rw [String.ofList_inj.1 first, rest]
    split <;> rfl

/-- A text without slashes is one part. -/
lemma parts_of_not_mem {cs : List Char} (single : '/' ∉ cs) : parts cs = [String.ofList cs] := by
  induction cs with
  | nil => rfl
  | cons c cs ih =>
    rw [List.mem_cons, not_or] at single
    have ih := ih single.2
    rw [parts, List.cons.injEq] at ih
    rw [parts, segments]
    dsimp only
    rw [if_neg (Ne.symm single.1), String.ofList_inj.1 ih.1, ih.2]

/-- A name other than `.` stays the last one. -/
lemma splitLead_concat (absolute : Bool) (first : String) (before : List String) (name : String) :
    ∃ lead behind, splitLead absolute (first :: before ++ [name]) = (lead, behind ++ [name]) := by
  rw [splitLead.eq_def]
  split
  next => exact ⟨[], before, rfl⟩
  next rest e =>
    obtain ⟨-, rfl⟩ := List.cons.inj e
    exact ⟨["."], before, rfl⟩
  next => exact ⟨[], first :: before, rfl⟩

/-- Behind a slash a text has its last name. -/
lemma ofString_slash {s name : String} {cs : List Char} (text : s.toList = cs ++ '/' :: name.toList)
    (single : '/' ∉ name.toList) (nonempty : name ≠ "") (named : name ≠ ".") :
    (∃ front, (ofString s).names = front ++ [name]) ∧ (ofString s).ending = .name := by
  have filled : name.toList ≠ [] := fun empty => nonempty (String.toList_inj.1 empty)
  have unslashed : s.toList.getLast? ≠ some '/' := by
    rw [text, List.append_cons, List.getLast?_append, List.getLast?_eq_some_getLast filled]
    intro slash
    exact single (List.mem_of_getLast? ((List.getLast?_eq_some_getLast filled).trans slash))
  have all : parts s.toList = parts cs ++ [name] := by
    rw [text, parts_append, parts_of_not_mem single, String.ofList_toList]
  obtain ⟨lead, behind, split⟩ : ∃ lead behind, splitLead (s.toList.head? == some '/')
      (parts s.toList) = (lead, behind ++ [name]) := by
    rw [all]
    exact splitLead_concat ..
  have kept : [name].filter isName = [name] :=
    List.filter_cons_of_pos (by simp [isName, nonempty, named])
  have last : [name].filter (· ≠ "") = [name] := List.filter_cons_of_pos (decide_eq_true nonempty)
  have undotted : ((behind ++ [name]).filter (· ≠ "")).getLast? ≠ some "." := by
    rw [List.filter_append, last, List.getLast?_concat]
    exact fun same => named (Option.some.inj same)
  rw [ofString]
  simp only [split, if_neg undotted, if_neg unslashed, and_true]
  rw [List.filter_append, kept, ← List.append_assoc]
  exact ⟨_, rfl⟩

/-- A name that is joined to a text is the last name of the path that the whole text writes. -/
lemma ofString_joinPath (base : String) {name : String} (single : '/' ∉ name.toList)
    (nonempty : name ≠ "") (named : name ≠ ".") :
    (∃ front, (ofString (joinPath base name)).names = front ++ [name]) ∧
      (ofString (joinPath base name)).ending = .name := by
  have text : ∃ cs, (joinPath base name).toList = cs ++ '/' :: name.toList := by
    rw [joinPath]
    split
    next slash =>
      obtain ⟨cs, e⟩ := List.getLast?_eq_some_iff.1 slash
      refine ⟨cs, ?_⟩
      rw [String.toList_append, e, List.append_assoc]
      rfl
    next =>
      refine ⟨base.toList, ?_⟩
      rw [String.toList_append, String.toList_append, List.append_assoc]
      rfl
  obtain ⟨cs, text⟩ := text
  exact ofString_slash text single nonempty named

/-! ## The length of a path -/

/-- The bytes of texts with a slash behind each. -/
def slashed (parts : List String) : Bytes := parts.flatMap fun part => utf8 (part ++ "/")

/-- The bytes of one more text are before those of the others. -/
lemma slashed_cons (part : String) (parts : List String) :
    slashed (part :: parts) = utf8 (part ++ "/") ++ slashed parts := List.flatMap_cons

/-- The bytes of texts in two rows are those of each row. -/
lemma slashed_append (parts more : List String) :
    slashed (parts ++ more) = slashed parts ++ slashed more := List.flatMap_append

/-- The bytes between the slashes of a text, with the slashes, are those of the text and one slash
more. -/
lemma slashed_parts (cs : List Char) : slashed (parts cs) = utf8 (String.ofList cs ++ "/") := by
  have first (c : Char) (cs : List Char) : utf8 (String.ofList (c :: cs) ++ "/") =
      String.utf8EncodeChar c ++ utf8 (String.ofList cs ++ "/") := by
    simp only [utf8_eq_flatMap, String.toList_append, String.toList_ofList, List.cons_append,
      List.flatMap_cons]
  induction cs with
  | nil => rfl
  | cons c cs ih =>
    rw [parts, slashed_cons] at ih
    rw [first, ← ih, parts, segments]
    dsimp only
    split
    next slash =>
      subst slash
      rfl
    next => rw [slashed_cons, first, List.append_assoc]

/-- Names and what is passed over are all that is between slashes. -/
lemma length_passOver (n : Nat) (parts : List String) :
    (slashed (parts.filter isName)).length +
      ((passOver n parts).flatMap fun e => utf8 e.2).length = (slashed parts).length := by
  induction parts generalizing n with
  | nil => rfl
  | cons part parts ih =>
    rw [passOver, slashed_cons, List.length_append]
    split
    next name =>
      rw [List.filter_cons_of_pos name, slashed_cons, List.length_append, ← ih (n + 1),
        Nat.add_assoc]
    next other =>
      rw [List.filter_cons_of_neg other, List.flatMap_cons, List.length_append, ← ih n,
        Nat.add_left_comm]

/-- What leads and what is behind it are all there is between slashes, but for the root. -/
lemma length_splitLead (cs : List Char) :
    (slashed (splitLead (cs.head? == some '/') (parts cs)).1).length +
      (slashed (splitLead (cs.head? == some '/') (parts cs)).2).length +
      (if cs.head? == some '/' then 1 else 0) = (slashed (parts cs)).length := by
  split
  next root =>
    obtain ⟨ds, rfl⟩ := List.head?_eq_some_iff.1 (beq_iff_eq.1 root)
    have split : parts ('/' :: ds) = "" :: parts ds := parts_append [] ds
    rw [root, split, slashed_cons, List.length_append]
    exact (congrArg (· + 1) (Nat.zero_add _)).trans (Nat.add_comm _ 1)
  next relative =>
    rw [Bool.eq_false_iff.2 relative, splitLead.eq_def, Nat.add_zero]
    split
    next => contradiction
    next rest split =>
      rw [split]
      exact List.length_append.symm
    next => exact Nat.zero_add _

/-- The path that a text writes is as long as the text with a zero byte behind it. -/
theorem size_ofString (s : String) : (ofString s).size = (utf8 s).length + 1 := by
  have whole := congrArg List.length (slashed_parts s.toList)
  rw [String.ofList_toList, utf8_append, List.length_append] at whole
  have one : (utf8 "/").length = 1 := rfl
  rw [← one, ← whole, ← length_splitLead, size, ofString]
  dsimp only
  rw [← slashed, slashed_append, List.length_append, Nat.add_assoc (slashed _).length,
    length_passOver]

end Preferences.Path
