import Mathlib.Data.List.Infix
import Preferences.Proofs.Files.Disk
import Preferences.Proofs.Store.Document

/-!
# Places on the way along a path

To write a file, with the directories above it, concerns only the places that are passed on the way
along its path. Another file whose place is not among them is found if and only if it was found
before. That takes a disk on which everything is in a directory, and a path without steps up: such a
step can lead through a directory that is still to be made. Main statement:
`Disk.Wrote.lookup_eq_ok_iff`.
-/

namespace Preferences

/-- Without steps up, names lead down. -/
lemma resolve_of_down {names start : List String} (down : ".." ∉ names) :
    resolve start names = start ++ names.filter (· ≠ ".") := by
  induction names generalizing start with
  | nil => exact (List.append_nil start).symm
  | cons name names ih =>
    rw [List.mem_cons, not_or] at down
    rw [resolve, List.foldl_cons, ← resolve, ih down.2, Disk.entered]
    split
    next here =>
      rw [List.filter_cons_of_neg (by simp only [here, ne_eq, not_true, decide_false,
        Bool.false_eq_true, not_false_eq_true])]
    next notHere =>
      rw [if_neg (Ne.symm down.1), List.filter_cons_of_pos (by simp [notHere]), List.append_assoc]
      rfl

/-- Without steps up, names lead below every place that their front leads to. -/
lemma prefix_resolve {front names start : List String} (down : ".." ∉ names)
    (before : front <+: names) : resolve start front <+: resolve start names := by
  have down' : ".." ∉ front := fun up => down (before.subset up)
  rw [resolve_of_down down, resolve_of_down down', List.prefix_append_right_inj]
  exact before.filter _

namespace Path

/-- Where the path leads, if there are directories all along. -/
def place (cwd : List String) (p : Path) : List String := resolve (p.start cwd) p.steps

/-- The places that are passed along the path, its end among them. -/
def way (cwd : List String) (p : Path) : List (List String) :=
  p.steps.inits.map (resolve (p.start cwd))

variable {p q : Path}

/-- What is on the way is where a front of the path leads. -/
lemma mem_way {cwd place : List String} :
    place ∈ p.way cwd ↔ ∃ front, front <+: p.steps ∧ resolve (p.start cwd) front = place := by
  simp only [way, List.mem_map, List.mem_inits]

/-- The place of a path is on the way along it. -/
lemma place_mem_way (cwd : List String) (p : Path) : p.place cwd ∈ p.way cwd :=
  mem_way.2 ⟨_, List.prefix_refl _, rfl⟩

/-- The way to the directory above is part of the way. -/
lemma way_parent (above : p.parent? = some q) (cwd : List String) : q.way cwd ⊆ p.way cwd := by
  obtain ⟨last, -, -, -, whole⟩ := parent?_eq_some above
  intro place there
  obtain ⟨names, passed, rfl⟩ := mem_way.1 there
  refine mem_way.2 ⟨names, ?_, by rw [start_parent above]⟩
  rw [whole]
  exact passed.trans (List.prefix_append _ _)

/-- Without steps up, a path with a name is not passed on the way to its directory. -/
lemma place_not_mem_way (above : p.parent? = some q) (named : p.isNamed = true)
    (down : ".." ∉ p.steps) (cwd : List String) : p.place cwd ∉ q.way cwd := by
  obtain ⟨plain, front, last, names, ordinary, -⟩ := isNamed_iff.1 named
  obtain ⟨last', names', -, -, whole⟩ := parent?_eq_some above
  obtain ⟨-, same⟩ := List.append_inj' (names.symm.trans names') rfl
  cases same
  rw [plain] at whole
  intro passed
  obtain ⟨before, short, same⟩ := mem_way.1 passed
  have longer : before <+: q.steps ++ [last] := short.trans (List.prefix_append _ _)
  rw [whole] at down
  have down' : ".." ∉ before := fun up => down (longer.subset up)
  rw [place, whole, start_parent above, resolve_of_down down, resolve_of_down down'] at same
  have lengths := congrArg List.length (List.append_cancel_left same)
  have fewer := (short.filter (· ≠ ".")).length_le
  -- the last name is one more than all names before it
  have kept : [last].filter (· ≠ ".") = [last] := List.filter_cons_of_pos (decide_eq_true ordinary)
  rw [List.filter_append, kept, List.length_append, List.length_singleton] at lengths
  omega

end Path

namespace Disk

variable {d d' : Disk} {p q : Path} {place : List String}

/-- A path leads nowhere but to its place. -/
lemma locate_eq_place (h : d.locate p = .ok place) : place = p.place d.cwd :=
  (follow_eq_ok.1 (locate_eq_ok.1 h).2.2).2.2

/-- Names without steps up lead to the same place wherever the directories above it are. -/
lemma follow_of_above {names start : List String} (down : ".." ∉ names)
    (h : d'.follow start names = .ok place)
    (above : ∀ q, q <+: place → d'.Passes q → d.Passes q) : d.follow start names = .ok place := by
  obtain ⟨fitting, through, rfl⟩ := follow_eq_ok.1 h
  refine follow_eq_ok.2 ⟨fitting, fun front before apart => ?_, rfl⟩
  exact above _ (prefix_resolve down before) (through front before apart)

/-- Whatever there is, is in a directory. -/
def Rooted (d : Disk) : Prop :=
  ∀ place name, d.node? (place ++ [name]) ≠ none → d.node? place = some .directory

/-- What has something below it is a directory. -/
lemma Rooted.directory (rooted : d.Rooted) {above : List String} (below : above <+: place)
    (apart : above ≠ place) (there : d.node? place ≠ none) :
    d.node? above = some .directory := by
  induction place using List.reverseRecOn with
  | nil => exact absurd (List.prefix_nil.1 below) apart
  | append_singleton front last ih =>
    have inside : d.node? front = some .directory := rooted front last there
    rcases List.prefix_concat_iff.1 below with same | before
    · exact absurd same apart
    · by_cases same : above = front
      · rw [same, inside]
      · exact ih before same (by rw [inside]; nofun)

/-! ## What is not on the way -/

/-- The second disk has all directories of the first one, and what differs is on the way along the
path. -/
structure Wrote (p : Path) (d d' : Disk) : Prop where
  cwd : d'.cwd = d.cwd
  rights : d'.rights = d.rights
  directory : ∀ q, d.node? q = some .directory → d'.node? q = some .directory
  off : ∀ q, q ∉ p.way d.cwd → d'.node? q = d.node? q

namespace Wrote

/-- Nothing was written from a disk to itself. -/
lemma refl (p : Path) (d : Disk) : Wrote p d d := ⟨rfl, rfl, fun _ => id, fun _ _ => rfl⟩

/-- What was written twice along a path was written along it. -/
lemma trans {d'' : Disk} (h : Wrote p d d') (h' : Wrote p d' d'') : Wrote p d d'' where
  cwd := h'.cwd.trans h.cwd
  rights := h'.rights.trans h.rights
  directory q there := h'.directory q (h.directory q there)
  off q away := (h'.off q (h.cwd ▸ away)).trans (h.off q away)

/-- What is on the way to the directory above is on the way. -/
lemma of_parent (above : p.parent? = some q) (h : Wrote q d d') : Wrote p d d' where
  cwd := h.cwd
  rights := h.rights
  directory := h.directory
  off place away := h.off place fun there => away (Path.way_parent above d.cwd there)

/-- What could be passed can still be passed. -/
lemma passes (h : Wrote p d d') (before : d.Passes place) : d'.Passes place :=
  ⟨h.directory place before.1, h.rights.symm ▸ before.2⟩

/-- A directory that is made is written along its path. -/
lemma makeDirectory (h : d.makeDirectory p = .ok d') : Wrote p d d' := by
  have grown := Grown.makeDirectory h
  refine ⟨grown.cwd, grown.rights, fun q there => grown.node? there, fun q away => ?_⟩
  obtain ⟨dir, located, -, -, rfl⟩ := makeDirectory_eq_ok.1 h
  have other : q ≠ dir := by
    rintro rfl
    exact away (locate_eq_place located ▸ p.place_mem_way d.cwd)
  rw [Disk.node?, Disk.node?, Table.get?_insert_of_ne _ _ other]

/-- So is one that is made if it is missing. -/
lemma ensureDirectory (h : d.ensureDirectory p = .ok d') : Wrote p d d' := by
  obtain made | ⟨-, rfl⟩ := ensureDirectory_eq_ok h
  · exact makeDirectory made
  · exact refl p _

/-- So are the directories above, even where one of them cannot be made. -/
lemma left_ensureAbove (n : Nat) : Wrote p d (left (d.ensureAbove p n)) :=
  left_ensureAbove_of refl trans of_parent ensureDirectory n

/-- Also making directories in vain concerns no other place. -/
lemma left_ensureDirectories (d : Disk) (p : Path) :
    Wrote p d (left (d.ensureDirectories p)) := by
  rw [Disk.ensureDirectories]
  split
  · exact refl p d
  · exact left_ensureAbove _

/-- So are all directories of a path. -/
lemma ensureDirectories (h : d.ensureDirectories p = .ok d') : Wrote p d d' := by
  have wrote := left_ensureDirectories d p
  rw [h] at wrote
  exact wrote

/-- A file that is put at the place of a path concerns that place only. -/
lemma putFile {content : Bytes} (aims : d.Aims p place) : Wrote p d (d.putFile place content) := by
  refine ⟨rfl, rfl, fun q there => node?_putFile_directory aims.free there, fun q away => ?_⟩
  refine node?_putFile_of_ne ?_
  rintro rfl
  exact away (locate_eq_place aims.located ▸ p.place_mem_way d.cwd)

/-- A preference file that is saved concerns the places on its way only. -/
lemma save {values : Table String Value} (h : PreferenceFile.save d p values = .ok d') :
    Wrote p d d' := by
  obtain ⟨parent, e, above, made, -, written⟩ := PreferenceFile.save_eq_ok.1 h
  obtain ⟨place, aims, -, rfl⟩ := replaceFile_eq_ok.1 written
  exact ((ensureDirectories made).of_parent above).trans (putFile aims)

/-- A path whose place is off the way, and that still leads there, has there what it had. -/
lemma node?_place (h : Wrote p d d') (away : q.place d.cwd ∉ p.way d.cwd)
    (located : d'.locate q = .ok place) : d'.node? place = d.node? place := by
  rw [locate_eq_place located, h.cwd]
  exact h.off _ away

/-- What is there and not on the way was at the end of its path before. -/
lemma locate_eq_ok (h : Wrote p d d') (rooted : d.Rooted) (down : ".." ∉ q.steps)
    (away : q.place d.cwd ∉ p.way d.cwd) (located : d'.locate q = .ok place)
    (there : d'.node? place ≠ none) : d.locate q = .ok place := by
  have same := h.node?_place away located
  obtain ⟨fits, nonempty, reached⟩ := Disk.locate_eq_ok.1 located
  rw [h.cwd] at reached
  refine Disk.locate_eq_ok.2 ⟨fits, nonempty, ?_⟩
  refine follow_of_above down reached fun above below pass => ⟨?_, h.rights ▸ pass.2⟩
  by_cases last : above = place
  · subst last
    rw [← same, pass.1]
  · exact rooted.directory below last (same ▸ there)

/-- What is not on the way along the path is found if and only if it was found before. -/
theorem lookup_eq_ok_iff (h : Wrote p d d') (rooted : d.Rooted) (down : ".." ∉ q.steps)
    (away : q.place d.cwd ∉ p.way d.cwd) {node : Node} :
    d'.lookup q = .ok node ↔ d.lookup q = .ok node := by
  rw [lookup_eq_ok, lookup_eq_ok]
  constructor
  case mp =>
    rintro ⟨place, located, found, sort⟩
    have there : d'.node? place ≠ none := by
      rw [found]
      nofun
    exact ⟨place, h.locate_eq_ok rooted down away located there,
      (h.node?_place away located).symm.trans found, sort⟩
  case mpr =>
    rintro ⟨place, located, found, sort⟩
    have located' := locate_of_passes h.cwd (fun _ => h.passes) located
    exact ⟨place, located', (h.node?_place away located').trans found, sort⟩

end Wrote

end Disk

end Preferences
