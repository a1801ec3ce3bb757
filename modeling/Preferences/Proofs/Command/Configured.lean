import Preferences.Proofs.Command.Stored
import Preferences.Proofs.Files.Making
import Preferences.Proofs.Toml.Lines

/-!
# What the configuration file says

A configuration that is written is read back as it was, whatever its texts are. A run that is to
write the configuration file writes down what was in force, defaults included, and only where
nothing is. So however many such runs there are, also runs that fail, the next one finds in force
what was in force before the first. There are two ways out. A write of the file can break off and
leave its beginning. And if the path of the file has steps up, making its directories can make a
directory of the very file, or uncover a file that cannot be written over. Main statement:
`config_init_changes_nothing`.
-/

namespace Preferences

namespace Config

/-! ## Written and read -/

/-- The keys that are set, with their texts. -/
def settings (c : Config) : List (String × String) :=
  let fields := [("data_file", c.dataFile), ("alias", c.keyAlias),
    ("keyring_service", c.keyringService)]
  fields.filterMap fun e => e.2.map fun s => (e.1, s)

/-- The keys that are set are those of a configuration, in their order. -/
lemma settings_sublist (c : Config) :
    (c.settings.map (·.1)).Sublist ["data_file", "alias", "keyring_service"] := by
  rcases c with ⟨_ | _, _ | _, _ | _⟩ <;> exact of_decide_eq_true rfl

/-- The text of a configuration has a line for every key that is set. -/
lemma render_eq (c : Config) : c.render = String.ofList (Toml.linesFor c.settings) := by
  rcases c with ⟨_ | _, _ | _, _ | _⟩ <;>
    simp [render, lineOf, settings, Toml.linesFor, ← String.toList_inj]

/-- A configuration is made of the entries that it sets. -/
lemma ofEntries_settings (c : Config) :
    ofEntries (c.settings.map fun e => (e.1, Toml.string e.2)) = .ok c := by
  rcases c with ⟨_ | _, _ | _, _ | _⟩ <;> rfl

/-- A configuration that sets nothing is the empty one. -/
lemma eq_empty_of_settings {c : Config} (h : c.settings = []) : c = {} := by
  rcases c with ⟨_ | _, _ | _, _ | _⟩ <;> first | rfl | cases h

/-- The text of a configuration that sets something is not blank. -/
lemma allBlank_render {c : Config} {e : String × String} {es : List (String × String)}
    (h : c.settings = e :: es) : allBlank c.render = false := by
  have known : e.1 ∈ ["data_file", "alias", "keyring_service"] :=
    (settings_sublist c).subset (by rw [h]; exact List.mem_cons_self)
  have word : ∀ k ∈ ["data_file", "alias", "keyring_service"], k.toList.all isBlank = false := by
    decide
  rw [allBlank, render_eq, String.toList_ofList, h, Toml.linesFor, List.flatMap_cons,
    Toml.toList_lineFor, List.append_assoc, List.all_append, word e.1 known, Bool.false_and]

/-- A configuration is read back from its text. -/
theorem parse_render (c : Config) : parse c.render = .ok c := by
  cases h : c.settings with
  | nil =>
    cases eq_empty_of_settings h
    rfl
  | cons e es =>
    have bare : ∀ e ∈ c.settings, Toml.Bare e.1 := by
      have all : ∀ k ∈ ["data_file", "alias", "keyring_service"], Toml.Bare k := by decide
      exact fun e mem => all e.1 ((settings_sublist c).subset (List.mem_map_of_mem mem))
    have distinct : (c.settings.map (·.1)).Nodup := (settings_sublist c).nodup (by decide)
    have read := Toml.parse_lines bare distinct
    rw [← render_eq] at read
    rw [parse, allBlank_render h, read]
    exact ofEntries_settings c

/-! ## What an attempt to write leaves -/

variable {d d' : Disk} {path : String} {c : Config}

/-- Where nothing is at the path the configuration is empty. -/
lemma load_of_missing (missing : d.isThere (.ofString path) = false) : load d path = .ok {} := by
  rw [load, missing]
  rfl

/-- Where a text can be read the configuration is that of the text. -/
lemma load_of_readText {text : String} (read : d.readText (.ofString path) = .ok text) :
    load d path = parse text := by
  rw [load, if_pos (Disk.isThere_of_readBytes (Disk.readText_eq_ok.1 read)), read]

/-- What comes of an attempt to write a configuration: something was there, or the file is there,
says what was written and could be written over, or the write broke off and left the beginning of
that, or nothing but directories on the way was made and the path leads nowhere still, unless it is
occupied by now. -/
inductive Saves (c : Config) (d : Disk) (path : String) :
    Except (ConfigFault × Disk) Disk → Prop where
  | kept (there : d.isThere (.ofString path) = true) : Saves c d path (.ok d)
  | written (d' : Disk) (missing : d.isThere (.ofString path) = false)
      (text : d'.readText (.ofString path) = .ok c.render)
      (free : ¬ d'.Occupied (.ofString path)) : Saves c d path (.ok d')
  | cut (n : ℕ) (fault : ConfigFault) (d' : Disk)
      (missing : d.isThere (.ofString path) = false)
      (breaks : d.rights.breaks ((Path.ofString path).place d.cwd) = some n)
      (beginning : d'.readBytes (.ofString path) = .ok ((utf8 c.render).take n))
      (free : ¬ d'.Occupied (.ofString path)) : Saves c d path (.error (fault, d'))
  | refused (fault : ConfigFault) (d' : Disk) (missing : d.isThere (.ofString path) = false)
      (wrote : ∀ q, (Path.ofString path).parent? = some q → Disk.Wrote q d d')
      (nowhere : ¬ d'.Occupied (.ofString path) → d'.isThere (.ofString path) = false) :
      Saves c d path (.error (fault, d'))

/-- Where nothing is at the path, to save a configuration is to make the directories above it, where
there are any, and then to write the file. -/
lemma save_cases (c : Config) (missing : d.isThere (.ofString path) = false) :
    (∃ q e d', (Path.ofString path).parent? = some q ∧ d.ensureDirectories q = .error (e, d') ∧
      c.save d path = .error (.system e, d')) ∨
    ∃ d₁, (∀ q, (Path.ofString path).parent? = some q → d.ensureDirectories q = .ok d₁) ∧
      ((Path.ofString path).parent? = none → d₁ = d) ∧
      c.save d path = (d₁.writeFile (.ofString path) (utf8 c.render)).mapError
        fun (e, d) => (.system e, d) := by
  simp only [save, missing, Bool.false_eq_true, if_false]
  cases (Path.ofString path).parent? with
  | none =>
    refine .inr ⟨d, fun q above => ?_, fun _ => rfl, rfl⟩
    cases above
  | some q =>
    dsimp only
    cases made : d.ensureDirectories q with
    | error failure => exact .inl ⟨q, failure.1, failure.2, rfl, made, rfl⟩
    | ok d₁ =>
      refine .inr ⟨d₁, fun q' above => ?_, fun root => ?_, rfl⟩
      · cases above
        exact made
      · cases root

/-- Where the directories are made, to write the file is all that is left. -/
lemma saves_of_writeFile {d₁ : Disk} (missing : d.isThere (.ofString path) = false)
    (wrote : ∀ q, (Path.ofString path).parent? = some q → Disk.Wrote q d d₁) :
    Saves c d path ((d₁.writeFile (.ofString path) (utf8 c.render)).mapError
      fun (e, d) => (.system e, d)) := by
  cases written : d₁.writeFile (.ofString path) (utf8 c.render) with
  | ok d' =>
    exact .written d' missing (Disk.readText_writeFile written)
      (Disk.not_occupied_of_written written)
  | error failure =>
    obtain ⟨e, d'⟩ := failure
    rcases Disk.writeFile_eq_error written with ⟨place, n, aims, breaks, rfl⟩ | ⟨rfl, nowhere⟩
    · obtain ⟨q, above⟩ := Path.parent?_of_isNamed aims.named
      rw [Disk.locate_eq_place aims.located, (wrote q above).cwd, (wrote q above).rights] at breaks
      exact .cut n _ _ missing breaks aims.readBytes aims.not_occupied
    · exact .refused _ _ missing wrote nowhere

/-- Where something is at the path nothing is written. -/
lemma save_of_there (there : d.isThere (.ofString path) = true) : c.save d path = .ok d := by
  rw [save]
  exact if_pos there

/-- To save a configuration comes to one of these. -/
lemma saves (c : Config) (d : Disk) (path : String) : Saves c d path (c.save d path) := by
  cases there : d.isThere (.ofString path) with
  | true =>
    rw [save_of_there there]
    exact .kept there
  | false =>
    rcases c.save_cases there with ⟨q, e, d', above, made, saved⟩ | ⟨d₁, made, -, saved⟩
    · have wrote := Disk.Wrote.left_ensureDirectories d q
      rw [made] at wrote
      rw [saved]
      refine .refused _ _ there (fun q' above' => ?_) fun _ =>
        Disk.not_isThere_of_ensureDirectories above made
      cases above.symm.trans above'
      exact wrote
    · rw [saved]
      exact saves_of_writeFile there fun q above => .ensureDirectories (made q above)

/-- To save a configuration concerns the places on the way along the path only. -/
lemma left_save (c : Config) (d : Disk) (path : String) :
    Disk.Wrote (.ofString path) d (Disk.left (c.save d path)) := by
  cases there : d.isThere (.ofString path) with
  | true =>
    rw [save_of_there there]
    exact .refl _ d
  | false =>
    rcases c.save_cases there with ⟨q, e, d', above, made, saved⟩ | ⟨d₁, made, root, saved⟩
    · have wrote := (Disk.Wrote.left_ensureDirectories d q).of_parent above
      rw [made] at wrote
      rw [saved]
      exact wrote
    · have before : Disk.Wrote (.ofString path) d d₁ := by
        cases above : (Path.ofString path).parent? with
        | none =>
          cases root above
          exact .refl _ d
        | some q => exact (Disk.Wrote.ensureDirectories (made q above)).of_parent above
      have last := Disk.Wrote.left_writeFile d₁ (.ofString path) (utf8 c.render)
      rw [saved]
      refine before.trans ?_
      cases written : d₁.writeFile (.ofString path) (utf8 c.render) <;>
        · rw [written] at last
          exact last

/-- Where nothing is at the path, a configuration that is written can be loaded again. -/
lemma load_of_written (missing : d.isThere (.ofString path) = false)
    (saved : c.save d path = .ok d') : load d' path = .ok c := by
  have spec := saves c d path
  rw [saved] at spec
  cases spec with
  | kept there => cases missing.symm.trans there
  | written _ _ text _ => exact (load_of_readText text).trans (parse_render c)

/-- What it takes to write a configuration where nothing is at the path. -/
lemma save_eq_ok (missing : d.isThere (.ofString path) = false) :
    c.save d path = .ok d' ↔ ∃ q d₁, (Path.ofString path).parent? = some q ∧
      d.ensureDirectories q = .ok d₁ ∧
      d₁.writeFile (.ofString path) (utf8 c.render) = .ok d' := by
  rcases c.save_cases missing with ⟨q, e, d₂, above, made, saved⟩ | ⟨d₁, made, -, saved⟩
  · rw [saved]
    refine iff_of_false nofun ?_
    rintro ⟨q', d₁, above', made', -⟩
    cases above.symm.trans above'
    cases made.symm.trans made'
  · rw [saved, mapError_eq_ok_iff]
    constructor
    · intro written
      -- without a directory above it the path has no name for a file
      obtain ⟨place, aims, -⟩ := Disk.writeFile_eq_ok.1 written
      obtain ⟨q, above⟩ := Path.parent?_of_isNamed aims.named
      exact ⟨q, d₁, above, made q above, written⟩
    · rintro ⟨q, d₂, above, made', written⟩
      cases (made q above).symm.trans made'
      exact written

/-- Where nothing is at the path, a configuration can be written exactly if the disk takes a file
there. -/
lemma save_iff_takes (missing : d.isThere (.ofString path) = false)
    (based : d.Based (.ofString path)) :
    (∃ d', c.save d path = .ok d') ↔ d.Takes (.ofString path) := by
  rw [Disk.takes_iff based (utf8 c.render)]
  constructor
  · rintro ⟨d', saved⟩
    obtain ⟨q, d₁, above, made, written⟩ := (save_eq_ok missing).1 saved
    exact ⟨q, d₁, d', above, made, written⟩
  · rintro ⟨q, d₁, d', above, made, written⟩
    exact ⟨d', (save_eq_ok missing).2 ⟨q, d₁, above, made, written⟩⟩

/-! ## What is in force -/

/-- Writing down what is in force changes nothing in it. -/
lemma resolved_resolved (c : Config) (env : Environment) :
    (c.resolved env).resolved env = c.resolved env := rfl

/-- A configuration is in force as it is written down. -/
lemma resolved_eq_iff {c c' : Config} {env : Environment} :
    c'.resolved env = c.resolved env ↔
      c'.effectiveDataFile env = c.effectiveDataFile env ∧
        c'.effectiveAlias = c.effectiveAlias ∧ c'.effectiveService = c.effectiveService := by
  simp only [resolved, Config.mk.injEq, Option.some.injEq]

end Config

/-- The configuration file is a named file in some directory. -/
lemma Environment.configFile_spec (env : Environment) :
    ∃ q, (Path.ofString env.configFile).parent? = some q ∧
      ∀ cwd, ".." ∉ (Path.ofString env.configFile).steps →
        (Path.ofString env.configFile).place cwd ∉ q.way cwd := by
  have single : '/' ∉ "config.toml".toList := by decide
  obtain ⟨⟨front, names⟩, ending⟩ := Path.ofString_joinPath
    (joinPath (baseOr env.configHome (joinPath env.home ".config")) "prefs") single (by decide)
    (by decide)
  have named : (Path.ofString env.configFile).isNamed = true :=
    Path.isNamed_iff.2 ⟨if_neg (ending ▸ nofun), front, _, names, by decide, by decide⟩
  obtain ⟨q, above⟩ := Path.parent?_of_isNamed named
  exact ⟨q, above, fun cwd down => Path.place_not_mem_way above named down cwd⟩

namespace World

variable {w : World} {env : Environment} {config config' : Config} {words : List String}

/-! ## Runs under a configuration -/

/-- What resolves alike opens the same store. -/
lemma openTyped_congr (same : config'.resolved env = config.resolved env) :
    w.openTyped env config' = w.openTyped env config := by
  obtain ⟨dataFile, keyAlias, service⟩ := Config.resolved_eq_iff.1 same
  rw [openTyped, openTyped, dataFile, keyAlias, service]

/-- What resolves alike does the same with it. -/
lemma withTyped_congr (same : config'.resolved env = config.resolved env)
    (f : TypedStore Mounted Keyring → Outcome × TypedStore Mounted Keyring) :
    w.withTyped env config' f = w.withTyped env config f := by
  unfold withTyped
  rw [openTyped_congr same]

/-- What resolves alike has the same health. -/
lemma checkHealth_congr (same : config'.resolved env = config.resolved env) :
    w.checkHealth config' = w.checkHealth config := by
  rw [checkHealth, checkHealth, (Config.resolved_eq_iff.1 same).2.1]

/-- What resolves alike is written down alike. -/
lemma initConfig_congr (same : config'.resolved env = config.resolved env) :
    w.initConfig env config' = w.initConfig env config := by
  unfold initConfig
  rw [same]

/-- What a command does depends on what is in force only. -/
lemma perform_congr (same : config'.resolved env = config.resolved env) (command : Command) :
    w.perform env config' command = w.perform env config command := by
  cases command with
  | version => rw [perform, perform]
  | health => rw [perform, perform, checkHealth_congr same]
  | configInit => rw [perform, perform, initConfig_congr same]
  | get => rw [perform, perform, withTyped_congr same]
  | set => rw [perform, perform, withTyped_congr same]
  | contains => rw [perform, perform, withTyped_congr same]
  | encryptSet => rw [perform, perform, withTyped_congr same]
  | encryptGet => rw [perform, perform, withTyped_congr same]

/-- A run finds in force what the configuration sets: from its file it learns the same data file,
alias and keyring service, and so any command does what it does under the configuration. -/
structure Finds (w : World) (env : Environment) (config : Config) : Prop where
  loads : ∃ found, Config.load w.disk env.configFile = .ok found ∧
    found.effectiveDataFile env = config.effectiveDataFile env ∧
    found.effectiveAlias = config.effectiveAlias ∧
    found.effectiveService = config.effectiveService
  runs : ∀ words command, Command.parse words = .ok command →
    w.run env words = w.perform env config command

/-- A configuration that is loaded is in force, and so is any that resolves alike. -/
lemma Finds.of_load (loaded : Config.load w.disk env.configFile = .ok config')
    (same : config'.resolved env = config.resolved env) : w.Finds env config where
  loads := ⟨config', loaded, Config.resolved_eq_iff.1 same⟩
  runs _ command parsed := (run_of_parse parsed loaded).trans (perform_congr same command)

/-! ## Runs that write the configuration file -/

/-- What is left after some runs. -/
def afterRuns (w : World) (env : Environment) (runs : List (List String)) : World :=
  runs.foldl (fun w words => (w.run env words).2) w

/-- Writes of a configuration to a path break off on the first disk, and the second one has no more
than the beginning of its text there. -/
def CutShort (config : Config) (path : String) (d d' : Disk) : Prop :=
  ∃ n < (utf8 config.render).length,
    d.rights.breaks ((Path.ofString path).place d.cwd) = some n ∧
      d'.readBytes (.ofString path) = .ok ((utf8 config.render).take n)

/-- What is at the path on the second disk is the beginning of a configuration whose writes break
off, or cannot be written over. -/
def Spoilt (config : Config) (path : String) (d d' : Disk) : Prop :=
  CutShort config path d d' ∨ d'.Occupied (.ofString path)

namespace Spoilt

variable {path : String} {d d₁ d' : Disk}

/-- Something is there. -/
lemma isThere (h : Spoilt config path d d') : d'.isThere (.ofString path) = true := by
  rcases h with ⟨n, -, -, beginning⟩ | occupied
  · exact Disk.isThere_of_readBytes beginning
  · exact occupied.1

/-- It breaks off on any disk that differs on the way along the path only. -/
lemma of_wrote (wrote : Disk.Wrote (.ofString path) d d₁) (h : Spoilt config path d₁ d') :
    Spoilt config path d d' := by
  refine h.imp_left fun ⟨n, short, breaks, beginning⟩ => ⟨n, short, ?_, beginning⟩
  rwa [wrote.cwd, wrote.rights] at breaks

end Spoilt

/-- To write down what is in force concerns the places on the way to the configuration file only. -/
lemma wrote_initConfig (w : World) (env : Environment) (config : Config) :
    Disk.Wrote (.ofString env.configFile) w.disk (w.initConfig env config).2.disk := by
  have wrote := (config.resolved env).left_save w.disk env.configFile
  unfold initConfig
  cases saved : (config.resolved env).save w.disk env.configFile <;>
    · rw [saved] at wrote
      exact wrote

/-- One run leaves in force what was in force, unless it has spoilt the configuration file. -/
lemma load_initConfig (loaded : Config.load w.disk env.configFile = .ok config) :
    w.disk.isThere (.ofString env.configFile) = false ∧
        Spoilt (config.resolved env) env.configFile w.disk (w.initConfig env config).2.disk ∨
      ∃ found, Config.load (w.initConfig env config).2.disk env.configFile = .ok found ∧
        found.resolved env = config.resolved env := by
  have spec := (config.resolved env).saves w.disk env.configFile
  unfold initConfig
  generalize (config.resolved env).save w.disk env.configFile = r at spec
  cases spec with
  | kept there => exact .inr ⟨config, loaded, rfl⟩
  | written d' missing text _ =>
    exact .inr ⟨_, (Config.load_of_readText text).trans (Config.parse_render _),
      config.resolved_resolved env⟩
  | cut n fault d' missing breaks beginning _ =>
    by_cases short : n < (utf8 (config.resolved env).render).length
    · exact .inl ⟨missing, .inl ⟨n, short, breaks, beginning⟩⟩
    · -- the write broke off at the very end
      rw [List.take_of_length_le (Nat.le_of_not_lt short), ← Disk.readText_eq_ok] at beginning
      exact .inr ⟨_, (Config.load_of_readText beginning).trans (Config.parse_render _),
        config.resolved_resolved env⟩
  | refused fault d' missing wrote nowhere =>
    cases (Config.load_of_missing missing).symm.trans loaded
    by_cases occupied : d'.Occupied (.ofString env.configFile)
    · exact .inl ⟨missing, .inr occupied⟩
    · exact .inr ⟨{}, Config.load_of_missing (nowhere occupied), rfl⟩

/-- Where something is at the path of the configuration file, no run changes the disk. -/
lemma disk_run_of_there (there : w.disk.isThere (.ofString env.configFile) = true)
    (parsed : Command.parse words = .ok .configInit) : (w.run env words).2.disk = w.disk := by
  cases loaded : Config.load w.disk env.configFile with
  | error fault =>
    rw [run, parsed, loaded]
  | ok config =>
    rw [run_of_parse parsed loaded, perform]
    unfold initConfig
    rw [Config.save_of_there there]

/-- Nor do several runs. -/
lemma disk_afterRuns_of_there {runs : List (List String)}
    (there : w.disk.isThere (.ofString env.configFile) = true)
    (inits : ∀ words ∈ runs, Command.parse words = .ok .configInit) :
    (w.afterRuns env runs).disk = w.disk := by
  induction runs generalizing w with
  | nil => rfl
  | cons words runs ih =>
    have same := disk_run_of_there there (inits words List.mem_cons_self)
    rw [afterRuns, List.foldl_cons, ← afterRuns, ih (same.symm ▸ there)
      fun words mem => inits words (List.mem_cons_of_mem _ mem), same]

/-- Any number of runs leaves in force what was in force, unless one has spoilt the configuration
file. -/
lemma load_afterRuns {runs : List (List String)}
    (loaded : Config.load w.disk env.configFile = .ok config)
    (inits : ∀ words ∈ runs, Command.parse words = .ok .configInit) :
    w.disk.isThere (.ofString env.configFile) = false ∧
        Spoilt (config.resolved env) env.configFile w.disk (w.afterRuns env runs).disk ∨
      ∃ found, Config.load (w.afterRuns env runs).disk env.configFile = .ok found ∧
        found.resolved env = config.resolved env := by
  induction runs generalizing w config with
  | nil => exact .inr ⟨config, loaded, rfl⟩
  | cons words runs ih =>
    have inits' : ∀ words ∈ runs, Command.parse words = .ok .configInit :=
      fun words mem => inits words (List.mem_cons_of_mem _ mem)
    have first : (w.run env words).2 = (w.initConfig env config).2 := by
      rw [run_of_parse (inits words List.mem_cons_self) loaded, perform]
    rw [afterRuns, List.foldl_cons, first, ← afterRuns]
    rcases load_initConfig loaded with ⟨missing, spoilt⟩ | ⟨found, loaded', same⟩
    · rw [disk_afterRuns_of_there spoilt.isThere inits']
      exact .inl ⟨missing, spoilt⟩
    · rcases ih loaded' inits' with ⟨absent, spoilt⟩ | ⟨found', loaded'', same'⟩
      · rw [same] at spoilt
        refine .inl ⟨Bool.eq_false_iff.2 fun there => ?_, spoilt.of_wrote (wrote_initConfig ..)⟩
        -- what is there before a run is there after it
        rw [← first, disk_run_of_there there (inits words List.mem_cons_self), there] at absent
        cases absent
      · exact .inr ⟨found', loaded'', same'.trans same⟩

/-- How the disk can look after runs that write the configuration file, which was missing from the
start: it is there and could be written over, or what has changed is on the way to its directory. -/
inductive Underway (start : Disk) (q p : Path) (d : Disk) : Prop where
  | file (there : d.isThere p = true) (free : ¬ d.Occupied p)
  | missing (wrote : Disk.Wrote q start d)

section

variable {start : Disk} {q : Path} (above : (Path.ofString env.configFile).parent? = some q)
  (kept : ∀ d, Disk.Wrote q start d → d.isThere (.ofString env.configFile) = false)

include above kept

/-- A run that is to write the configuration file leaves the disk on its way. -/
lemma underway_run (parsed : Command.parse words = .ok .configInit)
    (underway : Underway start q (.ofString env.configFile) w.disk) :
    Underway start q (.ofString env.configFile) (w.run env words).2.disk := by
  cases underway with
  | file there free =>
    rw [disk_run_of_there there parsed]
    exact .file there free
  | missing wrote =>
    have missing := kept w.disk wrote
    have spec := (Config.resolved {} env).saves w.disk env.configFile
    rw [run_of_parse parsed (Config.load_of_missing missing), perform]
    unfold initConfig
    generalize (Config.resolved {} env).save w.disk env.configFile = r at spec
    cases spec with
    | kept there => cases missing.symm.trans there
    | written d' _ text free =>
      exact .file (Disk.isThere_of_readBytes (Disk.readText_eq_ok.1 text)) free
    | cut n fault d' _ _ beginning free => exact .file (Disk.isThere_of_readBytes beginning) free
    | refused fault d' _ wrote' _ => exact .missing (wrote.trans (wrote' q above))

/-- So do any number of such runs. -/
lemma underway_afterRuns {runs : List (List String)}
    (inits : ∀ words ∈ runs, Command.parse words = .ok .configInit)
    (underway : Underway start q (.ofString env.configFile) w.disk) :
    Underway start q (.ofString env.configFile) (w.afterRuns env runs).disk := by
  induction runs generalizing w with
  | nil => exact underway
  | cons words runs ih =>
    exact ih (fun words mem => inits words (List.mem_cons_of_mem _ mem))
      (underway_run above kept (inits words List.mem_cons_self) underway)

end

/-- Without steps up in its path, nothing comes to occupy the path of the configuration file. -/
lemma not_occupied_afterRuns {runs : List (List String)} (rooted : w.disk.Rooted)
    (down : ".." ∉ (Path.ofString env.configFile).steps)
    (missing : w.disk.isThere (.ofString env.configFile) = false)
    (inits : ∀ words ∈ runs, Command.parse words = .ok .configInit) :
    ¬ (w.afterRuns env runs).disk.Occupied (.ofString env.configFile) := by
  obtain ⟨q, above, apart⟩ := env.configFile_spec
  have kept (d : Disk) (wrote : Disk.Wrote q w.disk d) :
      d.isThere (.ofString env.configFile) = false := by
    rw [← missing, Bool.eq_iff_iff, Disk.isThere_iff, Disk.isThere_iff]
    exact exists_congr fun node => wrote.lookup_eq_ok_iff rooted down (apart _ down)
  cases underway_afterRuns above kept inits (.missing (.refl q w.disk)) with
  | file there free => exact free
  | missing wrote => exact fun occupied => by cases (kept _ wrote).symm.trans occupied.1

/-! ## Nothing changes -/

/-- A configuration whose file is written where nothing was is loaded again as it is, and where the
working directory is there, it can be written exactly if the disk takes a file at its path. Where
something is, nothing is written. Writing down what is in force changes nothing in it. And after any
number of runs that are to write the configuration file, each of which may fail, any run finds in
force what was in force before them, whether the configuration file was missing, blank or set
something. The one exception takes a path with steps up: making its directories has made a directory
where the file was to be, or has uncovered something there that cannot be written over. -/
theorem config_init_changes_nothing :
    (∀ (c : Config) (d : Disk) (path : String), d.isThere (.ofString path) = false →
      (∀ d', c.writeIfMissing d path = .ok d' → Config.load d' path = .ok c) ∧
      (d.Based (.ofString path) →
        ((∃ d', c.writeIfMissing d path = .ok d') ↔ d.Takes (.ofString path)))) ∧
    (∀ (c : Config) (d : Disk) (path : String), d.isThere (.ofString path) = true →
      c.writeIfMissing d path = .ok d) ∧
    (∀ (c : Config) (env : Environment),
      (c.resolved env).effectiveDataFile env = c.effectiveDataFile env ∧
      (c.resolved env).effectiveAlias = c.effectiveAlias ∧
      (c.resolved env).effectiveService = c.effectiveService ∧
      (c.resolved env).resolved env = c.resolved env) ∧
    (∀ (w : World) (env : Environment) (config : Config) (runs : List (List String)),
      w.disk.Rooted → Config.load w.disk env.configFile = .ok config →
      (∀ words ∈ runs, Command.parse words = .ok .configInit) →
      (w.afterRuns env runs).Finds env config ∨
        w.disk.isThere (.ofString env.configFile) = false ∧
          (CutShort (config.resolved env) env.configFile w.disk (w.afterRuns env runs).disk ∨
            ".." ∈ (Path.ofString env.configFile).steps ∧
              (w.afterRuns env runs).disk.Occupied (.ofString env.configFile))) := by
  refine ⟨fun c d path missing => ⟨fun d' written => ?_, fun based => ?_⟩, fun c d path there => ?_,
    fun c env => ⟨rfl, rfl, rfl, c.resolved_resolved env⟩,
    fun w env config runs rooted loaded inits => ?_⟩
  · exact Config.load_of_written missing (ok_of_mapError written)
  · rw [← Config.save_iff_takes (c := c) missing based]
    exact exists_congr fun d' => mapError_eq_ok_iff
  · rw [Config.writeIfMissing, Config.save_of_there there]
    rfl
  · rcases load_afterRuns loaded inits with ⟨missing, spoilt⟩ | ⟨found, loaded', same⟩
    · refine .inr ⟨missing, spoilt.imp_right fun occupied => ⟨?_, occupied⟩⟩
      by_contra down
      exact not_occupied_afterRuns rooted down missing inits occupied
    · exact .inl (.of_load loaded' same)

/-- Texts with all kinds of quotes and control characters are written and loaded again, and two runs
leave in force what was in force, without a file and with one that sets an alias. -/
theorem odd_texts_survive_config_init :
    let odd : Config := ⟨some "it's \"odd\"\\\n\t\x01", none, some "\"\"\"''' '"⟩
    let mine : Config := { keyAlias := some "my\nown" }
    let init := ["config", "init"]
    (∃ d', odd.writeIfMissing (.fresh []) atRoot.configFile = .ok d' ∧
      Config.load d' atRoot.configFile = .ok odd) ∧
    odd.writeIfMissing (configuredDisk mine.render) atRoot.configFile =
      .ok (configuredDisk mine.render) ∧
    ((sample (.fresh [])).afterRuns atRoot [init, init]).Finds atRoot {} ∧
    ((sample (configuredDisk mine.render)).afterRuns atRoot [init, init]).Finds atRoot mine := by
  intro odd mine init
  obtain ⟨written, kept, -, runs⟩ := config_init_changes_nothing
  have missing : (Disk.fresh []).isThere (.ofString atRoot.configFile) = false := by
    rw [configFile_atRoot]
    rfl
  have there : (configuredDisk mine.render).isThere (.ofString atRoot.configFile) = true := by
    rw [configFile_atRoot]
    rfl
  have based : (Disk.fresh []).Based (.ofString atRoot.configFile) := by
    rw [configFile_atRoot]
    exact fun relative => by cases relative
  have takes : (Disk.fresh []).Takes (.ofString atRoot.configFile) := by
    rw [configFile_atRoot]
    refine ⟨rfl, by decide, rfl, nofun, by decide, rfl, rfl, _, rfl, fun place _ => ⟨rfl, ?_⟩,
      by decide⟩
    by_cases root : place = []
    · exact .inl (if_pos root)
    · exact .inr ⟨if_neg root, rfl⟩
  have rooted : (Disk.fresh []).Rooted := by
    intro place name there
    have below : place ++ [name] ≠ [] := by simp
    exact absurd (if_neg below) there
  have inits : ∀ words ∈ [init, init], Command.parse words = .ok .configInit := by
    intro words mem
    rw [List.eq_of_mem_replicate (n := 2) mem]
    rfl
  -- nothing breaks off on these disks, and there is no step up in the path
  have down : ".." ∉ (Path.ofString atRoot.configFile).steps := by
    rw [configFile_atRoot]
    decide
  obtain ⟨d', saved⟩ := ((written odd _ _ missing).2 based).2 takes
  refine ⟨⟨d', saved, (written odd _ _ missing).1 d' saved⟩, kept odd _ _ there, ?_, ?_⟩
  · refine (runs (sample (.fresh [])) atRoot {} [init, init] rooted (Config.load_of_missing missing)
      inits).resolve_right ?_
    rintro ⟨-, ⟨n, -, breaks, -⟩ | ⟨up, -⟩⟩
    · cases breaks
    · exact down up
  · refine (runs (sample (configuredDisk mine.render)) atRoot mine [init, init]
      (rooted_configuredDisk _) ((load_configuredDisk _).trans (Config.parse_render mine))
      inits).resolve_right ?_
    rintro ⟨-, ⟨n, -, breaks, -⟩ | ⟨up, -⟩⟩
    · cases breaks
    · exact down up

/-- A disk with a file where the directory of the configuration file was to be. -/
def blockedDisk : Disk where
  nodes := (Table.insert ∅ [".config"] .directory).insert [".config", "prefs"] (.file [])
  cwd := []

/-- A disk with room for one byte of a file. -/
def tightDisk : Disk := { Disk.fresh [] with rights := { breaks := fun _ => some 1 } }

/-- A configuration need not be written where nothing is: a file can stand in the way of its
directory. And a run that is to write it can keep all later ones from getting as far as their
command. Where the write breaks off, its first letter is no configuration. And where the path leads
to the very file by steps up, a directory is made of that. -/
theorem config_init_fails_or_harms :
    let init := ["config", "init"]
    let env : Environment := { home := "/", configHome := some "/x/prefs/config.toml/../.." }
    let fresh := sample (.fresh [])
    let tight := sample tightDisk
    (blockedDisk.isThere (.ofString atRoot.configFile) = false ∧
      ∀ c : Config,
        c.writeIfMissing blockedDisk atRoot.configFile = .error (.system .alreadyExists)) ∧
    (Config.load fresh.disk env.configFile = .ok {} ∧
      ∀ words command, Command.parse words = .ok command →
        ((fresh.run env init).2.run env words).1 = .failed (.config (.system .isDirectory))) ∧
    Config.load tight.disk atRoot.configFile = .ok {} ∧
      ∀ words command, Command.parse words = .ok command →
        ((tight.run atRoot init).2.run atRoot words).1 = .failed (.config .malformed) := by
  intro init env fresh tight
  have parsedInit : Command.parse init = .ok .configInit := rfl
  have path : Path.ofString env.configFile =
      ⟨true, ["x", "prefs", "config.toml", "..", "..", "prefs", "config.toml"], .name, []⟩ := by
    decide +kernel
  have loaded : Config.load fresh.disk env.configFile = .ok {} := by
    rw [Config.load, path]
    rfl
  have loadedTight : Config.load tight.disk atRoot.configFile = .ok {} := by
    rw [Config.load, configFile_atRoot]
    rfl
  refine ⟨⟨?_, fun c => ?_⟩, ⟨loaded, fun words command parsed => ?_⟩, loadedTight,
    fun words command parsed => ?_⟩
  · rw [configFile_atRoot]
    rfl
  · rw [Config.writeIfMissing, Config.save, configFile_atRoot]
    rfl
  · let harmed : Disk := {
      nodes := ((Table.insert ∅ ["x"] .directory).insert ["x", "prefs"] .directory).insert
        ["x", "prefs", "config.toml"] .directory
      cwd := [] }
    have missing : fresh.disk.isThere (.ofString env.configFile) = false := by
      rw [path]
      rfl
    have made : fresh.disk.ensureDirectories
        ⟨true, ["x", "prefs", "config.toml", "..", "..", "prefs"], .name, []⟩ = .ok harmed := rfl
    have refused (content : Bytes) : harmed.writeFile (.ofString env.configFile) content =
        .error (.isDirectory, harmed) := by
      rw [path]
      rfl
    have saved : (Config.resolved {} env).save fresh.disk env.configFile =
        .error (.system .isDirectory, harmed) := by
      have above : (Path.ofString env.configFile).parent? =
          some ⟨true, ["x", "prefs", "config.toml", "..", "..", "prefs"], .name, []⟩ := by
        rw [path]
        rfl
      simp only [Config.save, missing, above, made, refused, Bool.false_eq_true, if_false]
      rfl
    have reloaded : Config.load harmed env.configFile = .error (.system .isDirectory) := by
      rw [Config.load, path]
      rfl
    rw [run_of_parse parsedInit loaded, perform]
    unfold initConfig
    rw [saved, run, parsed, reloaded]
  · let left : Disk := { tightDisk with nodes := (configuredDisk "d").nodes }
    have saved : (Config.resolved {} atRoot).save tight.disk atRoot.configFile =
        .error (.system (.refused .noSpace), left) := by
      rw [Config.save, configFile_atRoot]
      rfl
    have reloaded : Config.load left atRoot.configFile = .error .malformed := by
      rw [Config.load, configFile_atRoot]
      rfl
    rw [run_of_parse parsedInit loadedTight, perform]
    unfold initConfig
    rw [saved, run, parsed, reloaded]

end World

end Preferences
