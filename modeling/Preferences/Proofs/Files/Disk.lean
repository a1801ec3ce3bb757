import Preferences.Proofs.Files.Path
import Preferences.Proofs.Outcome
import Preferences.Proofs.Table
import Preferences.Proofs.Text.Utf8

/-!
# Files written and read again

A path leads to a place exactly if all directories on it let it through. A file that was written
holds what was written, the directories on the way to it stay what they were, and so it can be
written again. Making directories, also in vain, leaves every file as it was.
-/

namespace Preferences

/-- Where names lead from a place, if there are directories all along. -/
def resolve (place names : List String) : List String := names.foldl Disk.entered place

/-- All names are short enough for a directory. -/
def Fitting (names : List String) : Prop := ∀ name ∈ names, utf8Size name.toList ≤ longestName

instance (names : List String) : Decidable (Fitting names) :=
  inferInstanceAs (Decidable (∀ name ∈ names, utf8Size name.toList ≤ longestName))

/-- Names in a row fit where each part of them does. -/
lemma fitting_append {names more : List String} :
    Fitting (names ++ more) ↔ Fitting names ∧ Fitting more := List.forall_mem_append

namespace Disk

variable {d d' : Disk} {p q : Path} {content : Bytes} {place start names : List String}

/-! ## Following names -/

/-- A directory that lets paths through. -/
def Passes (d : Disk) (place : List String) : Prop :=
  d.node? place = some .directory ∧ d.rights.barred place = false

/-- What it takes to look up a name. -/
lemma enter_eq_ok {name : String} {next : List String} : d.enter place name = .ok next ↔
    d.Passes place ∧ utf8Size name.toList ≤ longestName ∧ next = entered place name := by
  rw [enter, Passes]
  split
  next missing => simp only [missing, reduceCtorEq, false_and]
  next there =>
    split
    next barred => simp only [barred, reduceCtorEq, Bool.true_eq_false, and_false, false_and]
    next open_ =>
      have open_ := Bool.eq_false_iff.2 open_
      split
      next long =>
        refine iff_of_false nofun fun enters => ?_
        exact absurd enters.2.1 (Nat.not_le.2 long)
      next short =>
        simp only [there, open_, Nat.not_lt.1 short, Except.ok.injEq, true_and, eq_comm]
  next node other there =>
    refine iff_of_false nofun fun enters => ?_
    exact other (Option.some.inj (there.symm.trans enters.1.1))

/-- To follow names is to enter the first one and to follow the others from there. -/
lemma follow_cons (name : String) : d.follow start (name :: names) =
    (d.enter start name).bind fun next => d.follow next names := List.foldlM_cons

/-- To follow names in a row is to follow one part and then the other. -/
lemma follow_append (d : Disk) (start names more : List String) :
    d.follow start (names ++ more) = (d.follow start names).bind fun q => d.follow q more :=
  List.foldlM_append

/-- Names lead somewhere exactly if all places before the last one let them through. -/
lemma follow_eq_ok : d.follow start names = .ok place ↔
    Fitting names ∧ (∀ front, front <+: names → front ≠ names → d.Passes (resolve start front)) ∧
      place = resolve start names := by
  induction names generalizing start with
  | nil =>
    have none_ : ∀ front, front <+: [] → front ≠ [] → d.Passes (resolve start front) :=
      fun front before apart => absurd (List.prefix_nil.1 before) apart
    have same : d.follow start [] = .ok start := rfl
    rw [same, Except.ok.injEq, eq_comm]
    exact ⟨fun here => ⟨nofun, none_, here⟩, fun leads => leads.2.2⟩
  | cons name names ih =>
    rw [follow_cons]
    constructor
    case mp =>
      intro h
      obtain ⟨next, entered, h⟩ := bind_eq_ok.1 h
      obtain ⟨passes, short, rfl⟩ := enter_eq_ok.1 entered
      obtain ⟨fitting, behind, rfl⟩ := ih.1 h
      refine ⟨List.forall_mem_cons.2 ⟨short, fitting⟩, fun front before apart => ?_, rfl⟩
      rcases List.prefix_cons_iff.1 before with rfl | ⟨rest, rfl, before⟩
      · exact passes
      · exact behind rest (List.prefix_cons_inj name |>.1 before) fun same =>
          apart (congrArg _ same)
    case mpr =>
      rintro ⟨fitting, through, rfl⟩
      obtain ⟨short, fitting⟩ := List.forall_mem_cons.1 fitting
      have passes : d.Passes start := through [] List.nil_prefix nofun
      rw [enter_eq_ok.2 ⟨passes, short, rfl⟩]
      refine ih.2 ⟨fitting, fun front before apart => ?_, rfl⟩
      exact through (name :: front) (List.prefix_cons_inj name |>.2 before)
        fun same => apart (List.cons.inj same).2

/-- Where no directory is lost, names lead to where they led before. -/
lemma follow_of_passes (kept : ∀ place, d.Passes place → d'.Passes place)
    (h : d.follow start names = .ok place) : d'.follow start names = .ok place := by
  obtain ⟨fitting, through, rfl⟩ := follow_eq_ok.1 h
  exact follow_eq_ok.2 ⟨fitting, fun front before apart => kept _ (through front before apart), rfl⟩

/-- What it takes that a path leads somewhere. -/
lemma locate_eq_ok : d.locate p = .ok place ↔
    p.fault? = none ∧ p.isEmpty = false ∧ d.follow (p.start d.cwd) p.steps = .ok place := by
  rw [locate]
  cases p.isEmpty <;> cases p.fault? <;> simp

/-- A path leads to the same place on a disk that can be passed where the first one can. -/
lemma locate_of_passes (cwd : d'.cwd = d.cwd) (kept : ∀ place, d.Passes place → d'.Passes place)
    (h : d.locate p = .ok place) : d'.locate p = .ok place := by
  obtain ⟨fits, nonempty, reached⟩ := locate_eq_ok.1 h
  exact locate_eq_ok.2 ⟨fits, nonempty, cwd.symm ▸ follow_of_passes kept reached⟩

/-! ## Files -/

/-- Where there was no directory, the file is there afterwards. -/
lemma node?_putFile_self (free : d.node? place ≠ some .directory) :
    (d.putFile place content).node? place = some (.file content) := by
  have nonempty : place ≠ [] := by
    rintro rfl
    exact free rfl
  rw [node?, if_neg nonempty, putFile, Table.get?_insert_self]

/-- At all other places the disk is as it was. -/
lemma node?_putFile_of_ne {other : List String} (apart : other ≠ place) :
    (d.putFile place content).node? other = d.node? other := by
  rw [node?, node?, putFile, Table.get?_insert_of_ne _ _ apart]

/-- A directory is still one after a file is put elsewhere. -/
lemma node?_putFile_directory (free : d.node? place ≠ some .directory) {other : List String}
    (there : d.node? other = some .directory) :
    (d.putFile place content).node? other = some .directory := by
  have apart : other ≠ place := by
    rintro rfl
    exact free there
  rw [node?_putFile_of_ne apart, there]

/-- A path whose place a file can have. -/
structure Aims (d : Disk) (p : Path) (place : List String) : Prop where
  located : d.locate p = .ok place
  named : p.isNamed = true
  unslashed : p.ending ≠ .slash
  free : d.node? place ≠ some .directory

namespace Aims

/-- After a file was put at its place, the path still leads there. -/
lemma locate_putFile (aims : d.Aims p place) {other : List String} (h : d.locate q = .ok other) :
    (d.putFile place content).locate q = .ok other := by
  refine locate_of_passes ?_ (fun _ passes => ?_) h
  · rfl
  · exact ⟨node?_putFile_directory aims.free passes.1, passes.2⟩

/-- A file can be put there again. -/
lemma putFile (aims : d.Aims p place) : (d.putFile place content).Aims p place where
  located := aims.locate_putFile aims.located
  named := aims.named
  unslashed := aims.unslashed
  free := by
    rw [node?_putFile_self aims.free]
    exact nofun

end Aims

/-- A file that may be written is written as a whole, unless that breaks off. -/
lemma Aims.writeFile (aims : d.Aims p place) (granted : d.writeRefusal? place = none) :
    d.writeFile p content = match d.rights.breaks place with
      | some n => .error (.refused .noSpace, d.putFile place (content.take n))
      | none => .ok (d.putFile place content) := by
  cases whole : d.rights.breaks place <;>
    simp only [Disk.writeFile, aims.located, aims.named, aims.unslashed, aims.free, granted, whole,
      Bool.not_true, decide_false, Bool.or_false, Bool.false_eq_true, if_false]

/-- Where no file may be written, nothing is. -/
lemma writeFile_of_refused (content : Bytes)
    (refused : ∀ place, d.Aims p place → d.writeRefusal? place ≠ none) :
    ∃ e, d.writeFile p content = .error (e, d) := by
  rw [writeFile]
  cases located : d.locate p with
  | error e => exact ⟨e, rfl⟩
  | ok place =>
    dsimp only
    split
    next => exact ⟨_, rfl⟩
    next fine =>
      simp only [Bool.or_eq_true, Bool.not_eq_true', decide_eq_true_eq, not_or,
        Bool.not_eq_false] at fine
      cases why : d.writeRefusal? place with
      | some why => exact ⟨_, rfl⟩
      | none => exact absurd why (refused place ⟨located, fine.1.1, fine.1.2, fine.2⟩)

/-- What it takes to write a file, and what comes of it. -/
lemma writeFile_eq_ok : d.writeFile p content = .ok d' ↔ ∃ place, d.Aims p place ∧
    d.writeRefusal? place = none ∧ d.rights.breaks place = none ∧
      d' = d.putFile place content := by
  constructor
  case mp =>
    intro h
    by_cases free : ∃ place, d.Aims p place ∧ d.writeRefusal? place = none
    · obtain ⟨place, aims, granted⟩ := free
      rw [aims.writeFile granted] at h
      split at h
      next => cases h
      next whole =>
        cases h
        exact ⟨place, aims, granted, whole, rfl⟩
    · obtain ⟨e, failed⟩ := writeFile_of_refused content fun place aims granted =>
        free ⟨place, aims, granted⟩
      cases h.symm.trans failed
  case mpr =>
    rintro ⟨place, aims, granted, whole, rfl⟩
    rw [aims.writeFile granted, whole]

/-- What it takes to replace a file, and what comes of it. -/
lemma replaceFile_eq_ok : d.replaceFile p content = .ok d' ↔
    ∃ place, d.Aims p place ∧ d.replaceRefusal? place = none ∧ d' = d.putFile place content := by
  rw [replaceFile]
  constructor
  case mp =>
    intro h
    obtain ⟨place, located, h⟩ := bind_eq_ok.1 h
    simp only [bind, Except.bind] at h
    split at h
    next => cases h
    next named =>
      split at h
      next => cases h
      next unslashed =>
        split at h
        next => cases h
        next free =>
          cases refused : d.replaceRefusal? place with
          | some why =>
            rw [refused] at h
            cases h
          | none =>
            rw [refused] at h
            cases h
            exact ⟨place, ⟨located, by simpa using named, unslashed, free⟩, refused, rfl⟩
  case mpr =>
    rintro ⟨place, aims, granted, rfl⟩
    simp only [bind, Except.bind, aims.located, aims.named, aims.unslashed, aims.free, granted,
      Bool.not_true, Bool.false_eq_true, if_false]
    rfl

/-- What it takes that a path leads to something. -/
lemma lookup_eq_ok {node : Node} : d.lookup p = .ok node ↔ ∃ place, d.locate p = .ok place ∧
    d.node? place = some node ∧ (p.ending = .slash → node = .directory) := by
  rw [lookup]
  cases d.locate p with
  | error e => simp [bind, Except.bind]
  | ok place =>
    simp only [bind, Except.bind, Except.ok.injEq, exists_eq_left']
    split
    next missing => simp [missing]
    next directory => cases node <;> simp [directory, pure, Except.pure]
    next found other there =>
      rw [there, Option.some.injEq]
      split
      next slash =>
        refine iff_of_false nofun fun same => other ?_
        exact same.1.trans (same.2 slash)
      next plain => simp only [plain, pure, Except.pure, Except.ok.injEq, false_implies, and_true]

/-- A file that can be read is at a place. -/
lemma readBytes_eq_ok : d.readBytes p = .ok content ↔ ∃ place node, d.locate p = .ok place ∧
    p.ending ≠ .slash ∧ d.node? place = some node ∧ node.content? = some content := by
  rw [readBytes]
  constructor
  case mp =>
    intro h
    obtain ⟨node, found, h⟩ := bind_eq_ok.1 h
    obtain ⟨place, located, there, sort⟩ := lookup_eq_ok.1 found
    refine ⟨place, node, located, fun slash => ?_, there, ?_⟩
    · cases sort slash
      cases h
    · split at h
      · cases h
      · split at h
        next read =>
          cases h
          exact read
        next => cases h
  case mpr =>
    rintro ⟨place, node, located, plain, there, read⟩
    have found : d.lookup p = .ok node :=
      lookup_eq_ok.2 ⟨place, located, there, fun slash => absurd slash plain⟩
    rw [found]
    cases node with
    | directory => cases read
    | file bytes =>
      cases read
      rfl
    | guarded bytes why =>
      cases read
      rfl

/-- A file that was put at the place of a path holds what was put there. -/
lemma Aims.readBytes (aims : d.Aims p place) :
    (d.putFile place content).readBytes p = .ok content :=
  readBytes_eq_ok.2 ⟨place, .file content, aims.putFile.located, aims.unslashed,
    node?_putFile_self aims.free, rfl⟩

/-- A file is read as a text if its bytes are that text. -/
lemma readText_eq_ok {s : String} : d.readText p = .ok s ↔ d.readBytes p = .ok (utf8 s) := by
  rw [readText]
  constructor
  case mp =>
    intro h
    obtain ⟨bs, read, h⟩ := bind_eq_ok.1 h
    split at h
    next decoded =>
      cases h
      rw [read, Utf8.eq_utf8_of_decode decoded]
    next => cases h
  case mpr =>
    intro read
    rw [read]
    simp only [bind, Except.bind, Utf8.decode_utf8]
    rfl

/-- A written text is read again. -/
lemma readText_writeFile {s : String} (h : d.writeFile p (utf8 s) = .ok d') :
    d'.readText p = .ok s := by
  obtain ⟨place, aims, -, -, rfl⟩ := writeFile_eq_ok.1 h
  exact readText_eq_ok.2 aims.readBytes

/-- A text that replaced a file is read again. -/
lemma readText_replaceFile {s : String} (h : d.replaceFile p (utf8 s) = .ok d') :
    d'.readText p = .ok s := by
  obtain ⟨place, aims, -, rfl⟩ := replaceFile_eq_ok.1 h
  exact readText_eq_ok.2 aims.readBytes

/-! ## Writing again -/

/-- A path that leads somewhere passes a directory before its last name. -/
lemma follow_parent (located : d.locate p = .ok place) (above : p.parent? = some q) :
    ∃ dir, d.follow (q.start d.cwd) q.steps = .ok dir ∧ d.Passes dir := by
  obtain ⟨last, -, -, -, whole⟩ := Path.parent?_eq_some above
  obtain ⟨-, -, passed⟩ := locate_eq_ok.1 located
  rw [whole, follow_append] at passed
  obtain ⟨dir, reached, behind⟩ := bind_eq_ok.1 passed
  rw [follow_cons] at behind
  obtain ⟨next, entered, -⟩ := bind_eq_ok.1 behind
  exact ⟨dir, Path.start_parent above d.cwd ▸ reached, (enter_eq_ok.1 entered).1⟩

/-- A path that leads somewhere has a directory above it. -/
lemma locate_parent (located : d.locate p = .ok place) (above : p.parent? = some q)
    (nonempty : q.isEmpty = false) : ∃ dir, d.locate q = .ok dir ∧ d.Passes dir := by
  obtain ⟨dir, reached, passes⟩ := follow_parent located above
  have fits := Path.fault?_parent above (locate_eq_ok.1 located).1
  exact ⟨dir, locate_eq_ok.2 ⟨fits, nonempty, reached⟩, passes⟩

/-- A path leads to a directory exactly if its place holds one. -/
lemma isDirectory_iff : d.isDirectory p = true ↔
    ∃ place, d.locate p = .ok place ∧ d.node? place = some .directory := by
  have look : d.isDirectory p = true ↔ d.lookup p = .ok .directory := by
    rw [isDirectory]
    split
    next found => simp only [found]
    next other => exact iff_of_false Bool.false_ne_true other
  rw [look, lookup_eq_ok]
  exact exists_congr fun place => and_congr_right fun _ => and_iff_left fun _ => rfl

/-- A directory that is there is not made again. -/
lemma ensureDirectories_of_there (there : d.isDirectory p = true) :
    d.ensureDirectories p = .ok d := by
  obtain ⟨dir, located, directory⟩ := isDirectory_iff.1 there
  have made : d.makeDirectory p = .error .alreadyExists := by
    rw [makeDirectory, located]
    simp only [bind, Except.bind, directory]
  rw [ensureDirectories]
  split
  · rfl
  next =>
    rw [ensureAbove, ensureDirectory, made]
    simp only [there, if_true]

/-- Above a path that leads somewhere no directory is missing. -/
lemma ensureDirectories_parent (located : d.locate p = .ok place) (above : p.parent? = some q) :
    d.ensureDirectories q = .ok d := by
  cases empty : q.isEmpty with
  | true => rw [ensureDirectories, empty, if_pos rfl]
  | false =>
    obtain ⟨dir, found, passes⟩ := locate_parent located above empty
    exact ensureDirectories_of_there (isDirectory_iff.2 ⟨dir, found, passes.1⟩)

/-- Once a file was put at the place of a path, nothing is in the way of replacing it. -/
lemma Aims.replaceFile (aims : d.Aims p place) (granted : d.replaceRefusal? place = none)
    (other : Bytes) : ∃ e, (d.putFile place content).replaceFile p other = .ok e :=
  ⟨_, replaceFile_eq_ok.2 ⟨place, aims.putFile, granted, rfl⟩⟩

/-- A scratch file can be made wherever it could be made before. -/
lemma Aims.tryScratch (aims : d.Aims p place) (tried : d.tryScratch q = .ok ()) :
    (d.putFile place content).tryScratch q = .ok () := by
  rw [Disk.tryScratch] at tried ⊢
  obtain ⟨scratch, located, granted⟩ := bind_eq_ok.1 tried
  have located' : (d.putFile place content).locate ((d.putFile place content).scratchPath q) =
      .ok scratch := aims.locate_putFile located
  rw [located']
  exact granted

/-! ## Directories made on the way -/

/-- The disk that is left, also by a failure. -/
def left {ε : Type} : Except (ε × Disk) Disk → Disk
  | .ok d => d
  | .error (_, d) => d

/-- What holds of every directory that is made, and goes on holding from one to the next, holds of a
disk and what an attempt to make a directory and those above it leaves. -/
lemma left_ensureAbove_of {R : Path → Disk → Disk → Prop} (refl : ∀ p d, R p d d)
    (trans : ∀ {p d d' d''}, R p d d' → R p d' d'' → R p d d'')
    (parent : ∀ {p q d d'}, p.parent? = some q → R q d d' → R p d d')
    (step : ∀ {p d d'}, d.ensureDirectory p = .ok d' → R p d d') (n : Nat) :
    R p d (left (d.ensureAbove p n)) := by
  induction n generalizing p with
  | zero => exact refl p d
  | succ n ih =>
    rw [ensureAbove]
    split
    next made => exact step made
    next =>
      split
      · exact refl p d
      next q above =>
        -- whatever came of the directories above, the relation holds up to there
        have before := parent above (ih (p := q))
        split
        next failed =>
          rw [failed] at before
          exact before
        next e made =>
          rw [made] at before
          cases last : e.ensureDirectory p with
          | error => exact before
          | ok => exact trans before (step last)
    next => exact refl p d

/-- The second disk has all that the first one has, and beyond that only directories, where those
could be put. -/
structure Grown (d d' : Disk) : Prop where
  cwd : d'.cwd = d.cwd
  rights : d'.rights = d.rights
  nodes : ∀ place, d'.node? place = d.node? place ∨
    d.node? place = none ∧ d.refusal? place = none ∧ d'.node? place = some .directory

/-- What it takes to make a directory, and what comes of it. -/
lemma makeDirectory_eq_ok : d.makeDirectory p = .ok d' ↔
    ∃ place, d.locate p = .ok place ∧ d.node? place = none ∧ d.refusal? place = none ∧
      d' = { d with nodes := d.nodes.insert place .directory } := by
  rw [makeDirectory]
  constructor
  case mp =>
    intro h
    obtain ⟨place, located, h⟩ := bind_eq_ok.1 h
    split at h
    next => cases h
    next missing =>
      split at h
      next => cases h
      next granted =>
        cases h
        exact ⟨place, located, missing, granted, rfl⟩
  case mpr =>
    rintro ⟨place, located, missing, granted, rfl⟩
    simp only [bind, Except.bind, located, missing, granted]
    rfl

/-- A directory that is ensured was made, or was there. -/
lemma ensureDirectory_eq_ok (h : d.ensureDirectory p = .ok d') :
    d.makeDirectory p = .ok d' ∨ d.isDirectory p = true ∧ d' = d := by
  rw [ensureDirectory] at h
  split at h
  next made =>
    cases h
    exact .inl made
  next =>
    split at h
    next there =>
      cases h
      exact .inr ⟨there, rfl⟩
    next => cases h

namespace Grown

/-- A disk has grown from itself, by nothing. -/
lemma refl (d : Disk) : Grown d d := ⟨rfl, rfl, fun _ => .inl rfl⟩

/-- What could be put somewhere can still be put there. -/
lemma refusal? (h : Grown d d') (place : List String) : d'.refusal? place = d.refusal? place := by
  rw [Disk.refusal?, Disk.refusal?, h.rights]

/-- What has grown twice has grown. -/
lemma trans {d'' : Disk} (h : Grown d d') (h' : Grown d' d'') : Grown d d'' := by
  refine ⟨h'.cwd.trans h.cwd, h'.rights.trans h.rights, fun place => ?_⟩
  rcases h'.nodes place with same | ⟨missing, granted, made⟩
  · rw [same]
    exact h.nodes place
  · rcases h.nodes place with same | ⟨_, _, before⟩
    · exact .inr ⟨same ▸ missing, h.refusal? place ▸ granted, made⟩
    · cases missing.symm.trans before

/-- What was there is still there. -/
lemma node? (h : Grown d d') {node : Node} (there : d.node? place = some node) :
    d'.node? place = some node := by
  rcases h.nodes place with same | ⟨missing, _, _⟩
  · rw [same, there]
  · cases missing.symm.trans there

/-- What could be passed can still be passed. -/
lemma passes (h : Grown d d') {place : List String} (before : d.Passes place) :
    d'.Passes place :=
  ⟨h.node? before.1, h.rights.symm ▸ before.2⟩

/-- Every path leads to where it led. -/
lemma locate (h : Grown d d') (located : d.locate p = .ok place) : d'.locate p = .ok place :=
  locate_of_passes h.cwd (fun _ => h.passes) located

/-- Every file is where it was and holds what it held. -/
lemma readBytes (h : Grown d d') (read : d.readBytes p = .ok content) :
    d'.readBytes p = .ok content := by
  obtain ⟨place, node, located, plain, there, holds⟩ := readBytes_eq_ok.1 read
  exact readBytes_eq_ok.2 ⟨place, node, h.locate located, plain, h.node? there, holds⟩

/-- Every text is where it was. -/
lemma readText (h : Grown d d') {s : String} (read : d.readText p = .ok s) :
    d'.readText p = .ok s :=
  readText_eq_ok.2 (h.readBytes (readText_eq_ok.1 read))

/-- A directory that is made lets the disk grow. -/
lemma makeDirectory (h : d.makeDirectory p = .ok d') : Grown d d' := by
  obtain ⟨dir, -, missing, granted, rfl⟩ := makeDirectory_eq_ok.1 h
  have nonempty : dir ≠ [] := by
    rintro rfl
    cases missing
  refine ⟨rfl, rfl, fun place => ?_⟩
  by_cases here : place = dir
  · subst here
    refine .inr ⟨missing, granted, ?_⟩
    rw [Disk.node?, if_neg nonempty, Table.get?_insert_self]
  · refine .inl ?_
    rw [Disk.node?, Disk.node?, Table.get?_insert_of_ne _ _ here]

/-- So does one that is made if it is missing. -/
lemma ensureDirectory (h : d.ensureDirectory p = .ok d') : Grown d d' := by
  obtain made | ⟨-, rfl⟩ := ensureDirectory_eq_ok h
  · exact makeDirectory made
  · exact refl _

/-- So do the directories above, even where one of them cannot be made. -/
lemma ensureAbove (n : Nat) : Grown d (left (d.ensureAbove p n)) :=
  left_ensureAbove_of (fun _ => refl) trans (fun _ => id) ensureDirectory n

/-- Making directories, also in vain, takes nothing away. -/
lemma left_ensureDirectories (d : Disk) (p : Path) : Grown d (left (d.ensureDirectories p)) := by
  rw [Disk.ensureDirectories]
  split
  · exact refl d
  · exact ensureAbove _

/-- So do all directories of a path. -/
lemma ensureDirectories (h : d.ensureDirectories p = .ok d') : Grown d d' := by
  have grown := left_ensureDirectories d p
  rw [h] at grown
  exact grown

end Grown

end Disk

end Preferences
