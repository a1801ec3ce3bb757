import Preferences.Proofs.Files.Way

/-!
# Making directories for a file

When the directories above a file can be made, and what is left when they cannot. A disk takes a
file at a path exactly if every place on the way to its directory lets paths through or takes a
directory, and its own place takes a file. Where a directory could not be made, nothing is found
below it afterwards. Main statements: `takes_iff`, `not_isThere_of_ensureDirectories`.
-/

namespace Preferences.Disk

variable {d d' : Disk} {p q : Path} {place : List String} {content : Bytes}

/-- Something is at a path where the path leads to it. -/
lemma isThere_iff : d.isThere p = true ↔ ∃ node, d.lookup p = .ok node := by
  rw [isThere]
  cases d.lookup p with
  | error e => exact iff_of_false Bool.false_ne_true nofun
  | ok node => exact iff_of_true rfl ⟨node, rfl⟩

/-- A file that can be read is there. -/
lemma isThere_of_readBytes (read : d.readBytes p = .ok content) : d.isThere p = true := by
  obtain ⟨place, node, located, plain, there, -⟩ := readBytes_eq_ok.1 read
  refine isThere_iff.2 ⟨node, lookup_eq_ok.2 ⟨place, located, there, ?_⟩⟩
  exact fun slash => absurd slash plain

/-! ## What a failure leaves -/

/-- What is at a path may not be written over: it is a directory, or a file that is guarded. -/
def Occupied (d : Disk) (p : Path) : Prop :=
  d.isThere p = true ∧ ∀ place, d.Aims p place → d.writeRefusal? place ≠ none

/-- What was put at the place of a path may be written over. -/
lemma Aims.not_occupied (aims : d.Aims p place) : ¬ (d.putFile place content).Occupied p := by
  rintro ⟨-, refused⟩
  refine refused place aims.putFile ?_
  rw [writeRefusal?, node?_putFile_self aims.free]

/-- A write that failed broke off, with what was written at the place of the path, or changed
nothing: then the path leads nowhere or is occupied. -/
lemma writeFile_eq_error {e : FileError} (h : d.writeFile p content = .error (e, d')) :
    (∃ place n, d.Aims p place ∧ d.rights.breaks place = some n ∧
      d' = d.putFile place (content.take n)) ∨
    d' = d ∧ (¬ d.Occupied p → d.isThere p = false) := by
  by_cases free : ∃ place, d.Aims p place ∧ d.writeRefusal? place = none
  · obtain ⟨place, aims, granted⟩ := free
    rw [aims.writeFile granted] at h
    split at h
    next n breaks =>
      cases h
      exact .inl ⟨place, n, aims, breaks, rfl⟩
    next => cases h
  · have refused (place) (aims : d.Aims p place) : d.writeRefusal? place ≠ none :=
      fun granted => free ⟨place, aims, granted⟩
    obtain ⟨e', failed⟩ := writeFile_of_refused content refused
    cases h.symm.trans failed
    exact .inr ⟨rfl, fun other => Bool.eq_false_iff.2 fun there => other ⟨there, refused⟩⟩

/-- A write concerns the place of its path only, also one that breaks off. -/
lemma Wrote.left_writeFile (d : Disk) (p : Path) (content : Bytes) :
    Wrote p d (left (d.writeFile p content)) := by
  cases written : d.writeFile p content with
  | ok d' =>
    obtain ⟨place, aims, -, -, rfl⟩ := writeFile_eq_ok.1 written
    exact putFile aims
  | error failure =>
    obtain ⟨e, d'⟩ := failure
    rcases writeFile_eq_error written with ⟨place, n, aims, -, rfl⟩ | ⟨rfl, -⟩
    · exact putFile aims
    · exact refl p d'

/-- What was written may be written over. -/
lemma not_occupied_of_written (h : d.writeFile p content = .ok d') : ¬ d'.Occupied p := by
  obtain ⟨place, aims, -, -, rfl⟩ := writeFile_eq_ok.1 h
  exact aims.not_occupied

/-- A directory that could not be ensured is not there. -/
lemma not_isDirectory_of_ensureDirectory {e : FileError} (h : d.ensureDirectory p = .error e) :
    d.isDirectory p = false := by
  rw [ensureDirectory] at h
  split at h
  · cases h
  · split at h
    · cases h
    next missing => exact Bool.eq_false_iff.2 missing

/-- Where something above is missing, a directory cannot be made. -/
lemma ensureDirectory_of_missing (missing : d.locate p = .error .notFound) :
    d.ensureDirectory p = .error .notFound := by
  have known : d.isDirectory p = false := by
    rw [isDirectory, lookup, missing]
    rfl
  rw [ensureDirectory, makeDirectory, missing]
  simp only [bind, Except.bind, known, Bool.false_eq_true, if_false]

/-- The empty path leads nowhere. -/
lemma locate_of_isEmpty (empty : p.isEmpty = true) : d.locate p = .error .notFound := if_pos empty

/-- Nothing is made for the empty path: no directory is above it. -/
lemma eq_of_ensureAbove_empty {n : Nat} {e : FileError} (empty : p.isEmpty = true)
    (failed : d.ensureAbove p n = .error (e, d')) : d' = d := by
  cases n with
  | zero => cases failed
  | succ n =>
    have root : p.parent? = none := by
      rw [Path.isEmpty, Bool.and_eq_true, List.isEmpty_iff] at empty
      rw [Path.parent?, if_pos empty.2]
    rw [ensureAbove, ensureDirectory_of_missing (locate_of_isEmpty empty)] at failed
    simp only [root] at failed
    cases failed
    rfl

/-- Where a directory could not be made, there is none afterwards: else it would have one above it,
which could then be made. -/
lemma not_isDirectory_of_ensureAbove {n : Nat} {e : FileError}
    (h : d.ensureAbove p n = .error (e, d')) : d'.isDirectory p = false := by
  induction n generalizing p e with
  | zero => cases h
  | succ n ih =>
    rw [ensureAbove] at h
    split at h
    next => cases h
    next missing =>
      split at h
      next =>
        cases h
        exact not_isDirectory_of_ensureDirectory missing
      next q above =>
        split at h
        next failed =>
          cases h
          refine Bool.eq_false_iff.2 fun there => ?_
          obtain ⟨place, located, -⟩ := isDirectory_iff.1 there
          cases empty : q.isEmpty with
          | true =>
            -- above a single name is the working directory, and without it nothing was made
            cases eq_of_ensureAbove_empty empty failed
            cases there.symm.trans (not_isDirectory_of_ensureDirectory missing)
          | false =>
            obtain ⟨dir, found, passes⟩ := locate_parent located above empty
            cases (ih failed).symm.trans (isDirectory_iff.2 ⟨dir, found, passes.1⟩)
        next made =>
          cases last : Disk.ensureDirectory _ p with
          | ok =>
            rw [last] at h
            cases h
          | error =>
            rw [last] at h
            cases h
            exact not_isDirectory_of_ensureDirectory last
    next failed =>
      cases h
      exact not_isDirectory_of_ensureDirectory failed

/-- Where the directory of a path could not be made, the path leads nowhere afterwards. -/
lemma not_isThere_of_ensureDirectories {e : FileError} (above : p.parent? = some q)
    (h : d.ensureDirectories q = .error (e, d')) : d'.isThere p = false := by
  rw [ensureDirectories] at h
  split at h
  · cases h
  next nonempty =>
    refine Bool.eq_false_iff.2 fun there => ?_
    obtain ⟨node, found⟩ := isThere_iff.1 there
    obtain ⟨place, located, -⟩ := lookup_eq_ok.1 found
    obtain ⟨dir, found, passes⟩ := locate_parent located above (Bool.eq_false_iff.2 nonempty)
    cases (not_isDirectory_of_ensureAbove h).symm.trans
      (isDirectory_iff.2 ⟨dir, found, passes.1⟩)

/-! ## When directories can be made -/

/-- The place lets paths through, or will when a directory is made there, and that can be done. -/
structure Clear (d : Disk) (place : List String) : Prop where
  unbarred : d.rights.barred place = false
  there : d.node? place = some .directory ∨ d.node? place = none ∧ d.refusal? place = none

/-- All places that are passed along the path are clear. -/
def Unblocked (d : Disk) (p : Path) : Prop := ∀ place ∈ p.way d.cwd, d.Clear place

/-- A path that does not start at the root starts at the working directory, which is there. -/
def Based (d : Disk) (p : Path) : Prop := p.absolute = false → d.node? d.cwd = some .directory

/-- The system takes the path and each of its names. -/
structure Spelled (p : Path) : Prop where
  fits : p.fault? = none
  fitting : Fitting p.steps
  plain : p.trailing = []

/-- The path of the directory above is no worse. -/
lemma Spelled.parent (h : Spelled p) (above : p.parent? = some q) : Spelled q := by
  obtain ⟨last, -, -, -, whole⟩ := Path.parent?_eq_some above
  refine ⟨Path.fault?_parent above h.fits, ?_, Path.trailing_parent above⟩
  have fitting := h.fitting
  rw [whole, fitting_append] at fitting
  exact fitting.1

namespace Unblocked

/-- Where nothing blocks a path nothing blocks the one above. -/
lemma parent (h : d.Unblocked p) (above : p.parent? = some q) : d.Unblocked q :=
  fun place passed => h place (Path.way_parent above d.cwd passed)

/-- Directories that are made do not get into the way. -/
lemma grown (h : d.Unblocked p) (grown : Grown d d') : d'.Unblocked p := by
  intro place passed
  rw [grown.cwd] at passed
  have clear := h place passed
  refine ⟨grown.rights.symm ▸ clear.unbarred, ?_⟩
  rcases grown.nodes place with same | ⟨-, -, made⟩
  · rw [same, grown.refusal? place]
    exact clear.there
  · exact .inl made

/-- Where nothing blocks a path its place is clear. -/
lemma at_place (h : d.Unblocked p) (located : d.locate p = .ok place) : d.Clear place :=
  h place (locate_eq_place located ▸ p.place_mem_way d.cwd)

/-- Where a directory is at the end of the path, it lets paths through. -/
lemma passes (h : d.Unblocked p) (located : d.locate p = .ok place)
    (there : d.node? place = some .directory) : d.Passes place :=
  ⟨there, (h.at_place located).unbarred⟩

end Unblocked

/-- The working directory of a path is also that of the path above. -/
lemma Based.parent (h : d.Based p) (above : p.parent? = some q) : d.Based q := fun relative =>
  have ⟨_, _, same, _⟩ := Path.parent?_eq_some above
  h (same.symm.trans relative)

/-- At a clear place a name can only be missing. -/
lemma Clear.enter_eq_error {name : String} {e : FileError} (clear : d.Clear place)
    (short : utf8Size name.toList ≤ longestName) (h : d.enter place name = .error e) :
    e = .notFound := by
  rcases clear.there with there | ⟨missing, -⟩
  · cases h.symm.trans (enter_eq_ok.2 ⟨⟨there, clear.unbarred⟩, short, rfl⟩)
  · rw [enter, missing] at h
    cases h
    rfl

/-- Where all is clear, names lead nowhere only because something is missing. -/
lemma follow_eq_error {names start : List String} {e : FileError} (fitting : Fitting names)
    (clear : ∀ front, front <+: names → d.Clear (resolve start front))
    (h : d.follow start names = .error e) : e = .notFound := by
  induction names generalizing start with
  | nil => cases h
  | cons name names ih =>
    obtain ⟨short, fitting⟩ := List.forall_mem_cons.1 fitting
    rw [follow_cons] at h
    cases entered : d.enter start name with
    | error e' =>
      rw [entered] at h
      cases h
      exact (clear [] List.nil_prefix).enter_eq_error short entered
    | ok next =>
      rw [entered] at h
      obtain ⟨-, -, rfl⟩ := enter_eq_ok.1 entered
      refine ih fitting (fun front before => ?_) h
      exact clear (name :: front) (List.prefix_cons_inj name |>.2 before)

/-- A path that can be spelled, and that nothing blocks, leads nowhere only for a directory that is
missing. -/
lemma locate_eq_error {e : FileError} (spelled : Spelled p) (unblocked : d.Unblocked p)
    (h : d.locate p = .error e) : e = .notFound := by
  rw [locate] at h
  split at h
  · cases h
    rfl
  · rw [spelled.fits] at h
    refine follow_eq_error spelled.fitting (fun front before => ?_) h
    exact unblocked _ (Path.mem_way.2 ⟨front, before, rfl⟩)

/-- Behind a directory that lets it through a path leads somewhere. -/
lemma locate_child (spelled : Spelled p) (above : p.parent? = some q)
    (reached : d.follow (q.start d.cwd) q.steps = .ok place) (passes : d.Passes place) :
    ∃ place, d.locate p = .ok place := by
  obtain ⟨last, -, -, -, whole⟩ := Path.parent?_eq_some above
  have fitting := spelled.fitting
  rw [spelled.plain] at whole
  rw [whole, fitting_append] at fitting
  have short := fitting.2 last List.mem_cons_self
  rw [Path.start_parent above] at reached
  refine ⟨entered place last, locate_eq_ok.2 ⟨spelled.fits, Path.isEmpty_of_parent? above, ?_⟩⟩
  rw [whole, follow_append, reached, Except.bind, follow_cons,
    enter_eq_ok.2 ⟨passes, short, rfl⟩]
  rfl

/-- A single name leads somewhere in the working directory. -/
lemma locate_of_single (spelled : Spelled p) (above : p.parent? = some q)
    (empty : q.isEmpty = true) (unblocked : d.Unblocked q) (based : d.Based p) :
    ∃ place, d.locate p = .ok place := by
  rw [Path.isEmpty, Bool.and_eq_true, Bool.not_eq_true', List.isEmpty_iff] at empty
  have steps : q.steps = [] := by
    rw [Path.steps, empty.2, Path.trailing_parent above]
    rfl
  have start : q.start d.cwd = d.cwd := by
    rw [Path.start, empty.1]
    rfl
  have clear : d.Clear d.cwd := by
    refine unblocked d.cwd (Path.mem_way.2 ⟨[], List.nil_prefix, ?_⟩)
    rw [start]
    rfl
  refine locate_child spelled above ?_ ⟨based.parent above empty.1, clear.unbarred⟩
  rw [start, steps]
  rfl

/-- Where the place of a path is clear, a directory can be made there. -/
lemma ensureDirectory_of_located (located : d.locate p = .ok place) (clear : d.Clear place) :
    ∃ d', d.ensureDirectory p = .ok d' ∧ d'.isDirectory p = true := by
  rcases clear.there with there | ⟨missing, granted⟩
  · have known := isDirectory_iff.2 ⟨place, located, there⟩
    have made : d.makeDirectory p = .error .alreadyExists := by
      rw [makeDirectory, located]
      simp only [bind, Except.bind, there]
    exact ⟨d, by rw [ensureDirectory, made]; exact if_pos known, known⟩
  · have made := makeDirectory_eq_ok.2 ⟨place, located, missing, granted, rfl⟩
    have nonempty : place ≠ [] := by
      rintro rfl
      cases missing
    refine ⟨_, by rw [ensureDirectory, made], isDirectory_iff.2 ⟨place, ?_, ?_⟩⟩
    · exact (Grown.makeDirectory made).locate located
    · rw [node?, if_neg nonempty, Table.get?_insert_self]

/-- A path with nothing above it is that of the root. -/
lemma locate_of_no_parent (spelled : Spelled p) (above : p.parent? = none)
    (nonempty : p.isEmpty = false) : ∃ place, d.locate p = .ok place := by
  have root : p.names = [] := by
    rw [Path.parent?] at above
    split at above
    next root => exact root
    next => cases above
  refine ⟨p.start d.cwd, locate_eq_ok.2 ⟨spelled.fits, nonempty, ?_⟩⟩
  rw [Path.steps, root, spelled.plain]
  rfl

/-- All directories up to the end of a path can be made where nothing is in the way. -/
lemma ensureAbove_of_unblocked {n : Nat} (spelled : Spelled p) (unblocked : d.Unblocked p)
    (based : d.Based p) (nonempty : p.isEmpty = false) (enough : p.names.length < n) :
    ∃ d', d.ensureAbove p n = .ok d' ∧ d'.isDirectory p = true := by
  induction n generalizing p with
  | zero => exact absurd enough (Nat.not_lt_zero _)
  | succ n ih =>
    rw [ensureAbove]
    cases located : d.locate p with
    | ok place =>
      obtain ⟨d', made, there⟩ := ensureDirectory_of_located located (unblocked.at_place located)
      exact ⟨d', by rw [made], there⟩
    | error e =>
      cases locate_eq_error spelled unblocked located
      rw [ensureDirectory_of_missing located]
      dsimp only
      cases above : p.parent? with
      | none =>
        obtain ⟨place, found⟩ := locate_of_no_parent (d := d) spelled above nonempty
        cases located.symm.trans found
      | some q =>
        have unblocked' := unblocked.parent above
        have nonempty' : q.isEmpty = false := by
          refine Bool.eq_false_iff.2 fun empty => ?_
          obtain ⟨place, found⟩ := locate_of_single spelled above empty unblocked' based
          cases located.symm.trans found
        obtain ⟨last, names, -⟩ := Path.parent?_eq_some above
        rw [names, List.length_append, List.length_singleton] at enough
        obtain ⟨d₁, made, there⟩ := ih (spelled.parent above) unblocked' (based.parent above)
          nonempty' (Nat.lt_of_succ_lt_succ enough)
        have grown : Grown d d₁ := by
          have grown := Grown.ensureAbove (d := d) (p := q) n
          rw [made] at grown
          exact grown
        obtain ⟨dir, found, directory⟩ := isDirectory_iff.1 there
        have passes := (unblocked'.grown grown).passes found directory
        obtain ⟨place, found⟩ := locate_child spelled above (locate_eq_ok.1 found).2.2 passes
        obtain ⟨d', made', there'⟩ :=
          ensureDirectory_of_located found ((unblocked.grown grown).at_place found)
        exact ⟨d', by simp only [made, made']; rfl, there'⟩

/-- Where nothing is in the way, all directories above a path can be made, and then it leads
somewhere. -/
lemma ensureDirectories_of_unblocked (spelled : Spelled p) (above : p.parent? = some q)
    (unblocked : d.Unblocked q) (based : d.Based p) :
    ∃ d₁ place, d.ensureDirectories q = .ok d₁ ∧ d₁.locate p = .ok place := by
  cases empty : q.isEmpty with
  | true =>
    rw [ensureDirectories, if_pos empty]
    obtain ⟨place, found⟩ := locate_of_single spelled above empty unblocked based
    exact ⟨d, place, rfl, found⟩
  | false =>
    obtain ⟨d₁, made, there⟩ := ensureAbove_of_unblocked (spelled.parent above) unblocked
      (based.parent above) empty (Nat.lt_succ_self _)
    have made' : d.ensureDirectories q = .ok d₁ := by
      rw [ensureDirectories, empty]
      exact made
    obtain ⟨dir, found, directory⟩ := isDirectory_iff.1 there
    have passes := (unblocked.grown (Grown.ensureDirectories made')).passes found directory
    obtain ⟨place, found⟩ := locate_child spelled above (locate_eq_ok.1 found).2.2 passes
    exact ⟨d₁, place, made', found⟩

/-! ## When a file can be written -/

/-- The path has a name for a file that the system takes, its place holds no directory, can be
written at as a whole and is not passed on the way to its directory, and that way is clear. -/
structure Takes (d : Disk) (p : Path) : Prop where
  fits : p.fault? = none
  fitting : Fitting p.steps
  named : p.isNamed = true
  unslashed : p.ending ≠ .slash
  free : d.node? (p.place d.cwd) ≠ some .directory
  granted : d.writeRefusal? (p.place d.cwd) = none
  whole : d.rights.breaks (p.place d.cwd) = none
  above : ∃ q, p.parent? = some q ∧ d.Unblocked q ∧ p.place d.cwd ∉ q.way d.cwd

/-- What a path passes on the way to its directory lets it through. -/
lemma passes_of_locate (located : d.locate p = .ok place) (above : p.parent? = some q) :
    ∀ passed ∈ q.way d.cwd, d.Passes passed := by
  obtain ⟨last, -, -, -, whole⟩ := Path.parent?_eq_some above
  obtain ⟨-, through, -⟩ := follow_eq_ok.1 (locate_eq_ok.1 located).2.2
  intro passed mem
  obtain ⟨front, before, rfl⟩ := Path.mem_way.1 mem
  rw [Path.start_parent above]
  refine through front ?_ fun same => ?_
  · rw [whole]
    exact before.trans (List.prefix_append _ _)
  · have longer := before.length_le
    rw [same, whole, List.length_append, List.length_cons] at longer
    omega

/-- Where all is as it was at a place, it can be written at as it could. -/
lemma writeRefusal?_congr (rights : d'.rights = d.rights)
    (same : d'.node? place = d.node? place) : d'.writeRefusal? place = d.writeRefusal? place := by
  rw [writeRefusal?, writeRefusal?, same, refusal?, refusal?, rights]

/-- A file can be written to a path, with the directories above it, exactly if the disk takes it. -/
theorem takes_iff (based : d.Based p) (content : Bytes) :
    d.Takes p ↔ ∃ q d₁ d', p.parent? = some q ∧ d.ensureDirectories q = .ok d₁ ∧
      d₁.writeFile p content = .ok d' := by
  constructor
  case mp =>
    rintro ⟨fits, fitting, named, unslashed, free, granted, whole, q, above, unblocked, own⟩
    have spelled : Spelled p := ⟨fits, fitting, (Path.isNamed_iff.1 named).1⟩
    obtain ⟨d₁, place, made, located⟩ :=
      ensureDirectories_of_unblocked spelled above unblocked based
    have wrote := Wrote.ensureDirectories made
    have here : place = p.place d.cwd := wrote.cwd ▸ locate_eq_place located
    have same : d₁.node? place = d.node? place := wrote.off _ (here ▸ own)
    rw [← here] at free granted whole
    have aims : d₁.Aims p place := ⟨located, named, unslashed, same ▸ free⟩
    have granted' := (writeRefusal?_congr wrote.rights same).trans granted
    have whole' : d₁.rights.breaks place = none := wrote.rights.symm ▸ whole
    exact ⟨q, d₁, _, above, made, writeFile_eq_ok.2 ⟨place, aims, granted', whole', rfl⟩⟩
  case mpr =>
    rintro ⟨q, d₁, d', above, made, written⟩
    obtain ⟨place, ⟨located, named, unslashed, free⟩, granted, whole, -⟩ :=
      writeFile_eq_ok.1 written
    obtain ⟨fits, -, reached⟩ := locate_eq_ok.1 located
    have grown := Grown.ensureDirectories made
    have here : place = p.place d.cwd := grown.cwd ▸ locate_eq_place located
    have same : d₁.node? place = d.node? place := by
      rcases grown.nodes place with same | ⟨-, -, directory⟩
      · exact same
      · exact absurd directory free
    -- the place was reached, so that all above it lets paths through by now
    have passed := passes_of_locate located above
    rw [grown.cwd] at passed
    rw [writeRefusal?_congr grown.rights same] at granted
    rw [grown.rights] at whole
    refine ⟨fits, (follow_eq_ok.1 reached).1, named, unslashed, here ▸ same ▸ free,
      here ▸ granted, here ▸ whole, q, above, fun place mem => ⟨?_, ?_⟩, fun mem => ?_⟩
    · exact grown.rights ▸ (passed place mem).2
    · rcases grown.nodes place with same | ⟨missing, granted, -⟩
      · exact .inl (same ▸ (passed place mem).1)
      · exact .inr ⟨missing, granted⟩
    · exact free (here ▸ (passed _ mem).1)

end Preferences.Disk
