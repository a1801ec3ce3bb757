import Preferences.Command.Program
import Preferences.Proofs.Command.Values
import Preferences.Proofs.Envelope.Sealed
import Preferences.Proofs.Files.Way
import Preferences.Proofs.Keys.Keyring

/-!
# What a successful run has stored

A run of the program that sets a value hands it to the background writer of the preference file,
unless it is to be durable, and ends when the writer is done. Whether the writer could write is not
told. So the next run shows the value wherever the disk takes the file, and otherwise finds every
file as it was. A durable set that succeeds has written. All this is void where the preference file
is, or comes to lie below, the file from which the next run is to learn where it is. Main statement:
`set_value_is_shown_where_disk_takes_file`.
-/

namespace Preferences

/-! ## What closing leaves on the disk -/

/-- The second disk is what an attempt to write the values to the preference file leaves, and unless
that was left to the background writer, the attempt succeeded. -/
structure Handed (d d' : Disk) (path : Path) (values : Table String Value) (mode : SyncMode) :
    Prop where
  disk : d' = (PreferenceFile.write d path values).2
  durable : mode = .commit → (PreferenceFile.write d path values).1 = .ok ()

namespace Handed

variable {d d' : Disk} {path : Path} {values : Table String Value} {mode : SyncMode}

/-- A commit that was handed over has been taken by the disk. -/
lemma writable (handed : Handed d d' path values mode) (commit : mode = .commit) :
    Writable d path := by
  have done := handed.durable commit
  rw [PreferenceFile.write] at done
  cases saved : PreferenceFile.save d path values with
  | error fault =>
    rw [saved] at done
    cases done
  | ok d'' => exact PreferenceFile.save_other saved ∅

/-- What was handed over, durably or not, is saved where the disk takes it. -/
lemma saved (handed : Handed d d' path values mode) (writable : Writable d path) :
    PreferenceFile.save d path values = .ok d' := by
  obtain ⟨d'', saved, -⟩ := writable.save values
  rw [handed.disk, PreferenceFile.write, saved]

/-- Where the disk does not take it, there are at most new directories. -/
lemma grown (handed : Handed d d' path values mode) (refused : ¬ Writable d path) :
    d.Grown d' := by
  rcases written : PreferenceFile.write d path values with ⟨e | _, d''⟩
  · rw [handed.disk, written]
    exact PreferenceFile.grown_of_write written
  · have both : Handed d d'' path values .commit := ⟨by rw [written], fun _ => by rw [written]⟩
    exact absurd (both.writable rfl) refused

end Handed

/-- A store in a file that has just been opened, and is closed after one write. -/
lemma FileStore.drain_write {d : Disk} {path : Path} {values : Table String Value} {key : String}
    {v : Value} {mode : SyncMode} {m : Mounted}
    (done : Store.write (⟨{ path, cache := ⟨0, values⟩ }, d⟩ : Mounted) key v mode = (.ok (), m)) :
    Handed d (m.store.drain m.disk).2 path (values.insert key v) mode := by
  cases mode with
  | apply =>
    cases done
    refine ⟨?_, nofun⟩
    -- the one snapshot is tried once, and closing is over whatever comes of it
    simp only [drain, workOff, work, persist, persistAs, nextSnapshot, List.nil_append,
      List.length_singleton]
    rcases PreferenceFile.write d path (values.insert key v) with ⟨e | _, d'⟩
    · rfl
    · rfl
  | commit =>
    simp only [Store.write, FileStore.write, persist, persistAs, nextSnapshot, update] at done
    rcases written : PreferenceFile.write d path (values.insert key v) with ⟨e | _, d'⟩
    · rw [written] at done
      cases done
    · rw [written] at done
      cases done
      refine ⟨?_, fun _ => ?_⟩
      · rw [written]
        rfl
      · rw [written]

/-! ## The configuration stays -/

/-- The path of the preference file. -/
def Config.dataPath (config : Config) (env : Environment) : Path :=
  .ofString (config.effectiveDataFile env)

/-- The configuration file is found without steps up, and not passed on the way along the path. -/
def Environment.Apart (env : Environment) (cwd : List String) (path : Path) : Prop :=
  ".." ∉ (Path.ofString env.configFile).steps ∧
    (Path.ofString env.configFile).place cwd ∉ path.way cwd

/-- A preference file that is saved elsewhere leaves the configuration as it was. -/
lemma Config.load_of_save {env : Environment} {d d' : Disk} {path : Path}
    {values : Table String Value} (rooted : d.Rooted) (apart : env.Apart d.cwd path)
    (saved : PreferenceFile.save d path values = .ok d') :
    Config.load d' env.configFile = Config.load d env.configFile := by
  have kept (node : Node) : d'.lookup (.ofString env.configFile) = .ok node ↔
      d.lookup (.ofString env.configFile) = .ok node :=
    (Disk.Wrote.save saved).lookup_eq_ok_iff rooted apart.1 apart.2
  rw [load, load, Disk.isThere, Disk.isThere]
  cases found : d.lookup (.ofString env.configFile) with
  | ok node => simp only [Disk.readText, Disk.readBytes, found, (kept node).2 found]
  | error e =>
    cases found' : d'.lookup (.ofString env.configFile) with
    | ok node => cases found.symm.trans ((kept node).1 found')
    | error e' => simp only [Except.isOk, Except.toBool, Bool.false_eq_true, if_false]

/-- A configuration file that is found with a text is loaded as that text. -/
lemma Config.load_of_lookup {env : Environment} {d : Disk} {text : String}
    (found : d.lookup (.ofString env.configFile) = .ok (.file (utf8 text))) :
    load d env.configFile = parse text := by
  have read : d.readText (.ofString env.configFile) = .ok text := by
    rw [Disk.readText_eq_ok, Disk.readBytes, found]
    rfl
  rw [load, Disk.isThere, found, read]
  rfl

/-- The text of a preference file is no configuration. -/
lemma Config.parse_preferences (values : Table String Value) :
    parse (PreferenceFile.render values) = .error .malformed := by
  have read : Toml.parse (PreferenceFile.render values) = none := by
    rw [Toml.parse, PreferenceFile.render, Json.pretty, String.toList_ofList, PreferenceFile.toJson,
      Json.render]
    rfl
  rw [parse, PreferenceFile.allBlank_render, read]
  rfl

/-! ## Runs of the program -/

namespace TypedStore

variable {σ φ : Type} [Store σ] {s s' : TypedStore σ φ} {key text : String} {mode : SyncMode}

/-- A set that succeeds names its key, leaves the facility and has written what its value is stored
as. -/
lemma set_eq_ok {t : PrefType} {v : t.Val} (done : s.set t key v mode = (.ok (), s')) :
    key ≠ "" ∧ s'.facility = s.facility ∧ ∃ stored, (toStored s.registry t v).1 = .ok stored ∧
      Store.write s.store key stored mode = (.ok (), s'.store) := by
  rw [set] at done
  by_cases named : key = ""
  · rw [requireKey, if_pos named] at done
    cases done
  · rw [requireKey, if_neg named] at done
    rcases encoded : toStored s.registry t v with ⟨fault | stored, calls⟩
    · rw [encoded] at done
      cases done
    · rw [encoded] at done
      dsimp only [PendingWrite.finish] at done
      rcases written : Store.write s.store key stored mode with ⟨fault | _, store⟩
      · rw [written] at done
        cases done
      · rw [written] at done
        cases done
        exact ⟨named, rfl, stored, rfl, written⟩

/-- A text that was set sealed has been sealed and left to the background writer. -/
lemma setSealed_eq_ok [KeyFacility φ] (done : s.setSealed key text = (.ok (), s')) :
    key ≠ "" ∧ ∃ sealedText e,
      s.envelope.encrypt s.suite (s.supply.chance s.supply.used) s.facility text =
        (.ok sealedText, e, s'.facility) ∧
      Store.write s.store key (.string sealedText) .apply = (.ok (), s'.store) := by
  rw [setSealed] at done
  cases required : requireKey key with
  | error fault =>
    rw [required] at done
    cases done
  | ok _ =>
    rw [required] at done
    dsimp only [TypedStore.encrypt, Supply.next] at done
    rcases encrypted : s.envelope.encrypt s.suite (s.supply.chance s.supply.used) s.facility text
      with ⟨stop | sealedText, e, f⟩
    · rw [encrypted] at done
      cases done
    · rw [encrypted] at done
      dsimp only at done
      generalize before : ({ s with envelope := e, facility := f, supply := _ } :
        TypedStore σ φ) = s₁ at done
      rcases out : s₁.set (.primitive .string) key sealedText .apply with ⟨fault | _, s₂⟩
      · rw [out] at done
        cases done
      · rw [out] at done
        cases done
        obtain ⟨named, facility, stored, encoded, written⟩ := set_eq_ok out
        cases before
        cases encoded
        exact ⟨named, sealedText, e, facility ▸ rfl, written⟩

end TypedStore

namespace World

variable {w w' : World} {env : Environment} {config : Config} {values : Table String Value}
  {key raw text : String} {kind : ValueKind} {sync : Bool} {o : Outcome}

/-- The typed store over a preference file with these values. -/
def typed (w : World) (env : Environment) (config : Config) (values : Table String Value) :
    TypedStore Mounted Keyring where
  store := ⟨{ path := config.dataPath env, cache := ⟨0, values⟩ }, w.disk⟩
  facility := ⟨config.effectiveService, w.credentials⟩
  envelope := ⟨some config.effectiveAlias, none, false⟩
  supply := w.supply
  suite := w.suite

/-- Where the values can be loaded and an alias is chosen, the store is opened with them. -/
lemma openTyped_of_load (loaded : PreferenceFile.load w.disk (config.dataPath env) = .ok values)
    (chosen : config.effectiveAlias ≠ "") :
    w.openTyped env config = .ok (w.typed env config values) := by
  rw [Config.dataPath] at loaded
  rw [openTyped, FileStore.openAt, loaded]
  simp only [bind, Except.bind, pure, Except.pure, Except.mapError, TypedStore.setAlias,
    Envelope.setAlias, if_neg chosen]
  rfl

/-- A store that was opened has an alias and the values that were loaded. -/
lemma openTyped_eq_ok {t : TypedStore Mounted Keyring} (h : w.openTyped env config = .ok t) :
    config.effectiveAlias ≠ "" ∧ ∃ values,
      PreferenceFile.load w.disk (config.dataPath env) = .ok values ∧
      t = w.typed env config values := by
  cases loaded : PreferenceFile.load w.disk (config.dataPath env) with
  | error e =>
    rw [Config.dataPath] at loaded
    rw [openTyped, FileStore.openAt, loaded] at h
    cases h
  | ok values =>
    by_cases chosen : config.effectiveAlias = ""
    · rw [Config.dataPath] at loaded
      rw [openTyped, FileStore.openAt, loaded] at h
      simp only [bind, Except.bind, pure, Except.pure, Except.mapError, TypedStore.setAlias,
        Envelope.setAlias, if_pos chosen] at h
      cases h
    · rw [openTyped_of_load loaded chosen] at h
      cases h
      exact ⟨chosen, values, rfl, rfl⟩

section

variable {f : TypedStore Mounted Keyring → Outcome × TypedStore Mounted Keyring}

/-- What is done with a store that can be opened is done with these values. -/
lemma withTyped_of_load (loaded : PreferenceFile.load w.disk (config.dataPath env) = .ok values)
    (chosen : config.effectiveAlias ≠ "") :
    (w.withTyped env config f).1 = (f (w.typed env config values)).1 := by
  unfold withTyped
  rw [openTyped_of_load loaded chosen]

/-- A run that succeeds has opened the preference file. -/
lemma withTyped_done (h : w.withTyped env config f = (o, w')) (done : o.exitCode = 0) :
    config.effectiveAlias ≠ "" ∧ ∃ values t,
      PreferenceFile.load w.disk (config.dataPath env) = .ok values ∧
      f (w.typed env config values) = (o, t) ∧ w' = w.afterClosing t := by
  unfold withTyped at h
  cases opened : w.openTyped env config with
  | error r =>
    rw [opened] at h
    cases h
    cases done
  | ok t =>
    rw [opened] at h
    obtain ⟨chosen, values, loaded, rfl⟩ := openTyped_eq_ok opened
    dsimp only at h
    rcases out : f (w.typed env config values) with ⟨o', t'⟩
    rw [out] at h
    cases h
    exact ⟨chosen, values, t', loaded, out, rfl⟩

end

/-- What a set that succeeds has done. -/
lemma perform_set (h : w.perform env config (.set key raw kind sync) = (o, w'))
    (done : o.exitCode = 0) :
    key ≠ "" ∧ config.effectiveAlias ≠ "" ∧
      ∃ (values : Table String Value) (p : ParsedValue) (stored : Value),
        kind.parse raw = .ok p ∧ (toStored {} p.type p.value).1 = .ok stored ∧
        Handed w.disk w'.disk (config.dataPath env) (values.insert key stored)
          (if sync then .commit else .apply) := by
  dsimp only [perform] at h
  obtain ⟨chosen, values, t, loaded, entered, rfl⟩ := withTyped_done h done
  dsimp only [TypedStore.enter] at entered
  rcases parsed : kind.parse raw with fault | p
  · rw [parsed] at entered
    cases entered
    cases done
  · rw [parsed] at entered
    dsimp only at entered
    rcases out : (w.typed env config values).set p.type key p.value
      (if sync then .commit else .apply) with ⟨fault | _, t'⟩
    · rw [out] at entered
      cases entered
      cases done
    · rw [out] at entered
      cases entered
      obtain ⟨named, -, stored, encoded, written⟩ := TypedStore.set_eq_ok out
      exact ⟨named, chosen, values, p, stored, rfl, encoded, FileStore.drain_write written⟩

/-- What a sealed set that succeeds has done. -/
lemma perform_encryptSet (h : w.perform env config (.encryptSet key text) = (o, w'))
    (done : o.exitCode = 0) :
    key ≠ "" ∧ config.effectiveAlias ≠ "" ∧ w'.suite = w.suite ∧
      ∃ (values : Table String Value) (handle : KeyHandle) (k : Keyring),
        provision w.suite (w.supply.chance w.supply.used) config.effectiveAlias
          (⟨config.effectiveService, w.credentials⟩ : Keyring) = (.ok handle, k) ∧
        w'.credentials = k.credentials ∧
        Handed w.disk w'.disk (config.dataPath env) (values.insert key (.string
          (w.suite.sealFor handle.pair.publicKey (w.supply.chance w.supply.used).ephemeral
            (w.supply.chance w.supply.used).nonce text).render)) .apply := by
  dsimp only [perform] at h
  obtain ⟨chosen, values, t, loaded, entered, rfl⟩ := withTyped_done h done
  rcases out : (w.typed env config values).setSealed key text with ⟨stop | _, t'⟩
  · rw [out] at entered
    cases entered
    rcases stop with fault | _ <;> cases done
  · rw [out] at entered
    cases entered
    obtain ⟨named, sealedText, e, encrypted, written⟩ := TypedStore.setSealed_eq_ok out
    obtain ⟨handle, provided, rfl⟩ := Envelope.encrypt_new encrypted
    exact ⟨named, chosen, rfl, values, handle, t'.facility, provided, rfl,
      FileStore.drain_write written⟩

/-- A run shows what the preference file has. -/
lemma perform_get {stored : Value} {shown : String} (chosen : config.effectiveAlias ≠ "")
    (loaded : PreferenceFile.load w.disk (config.dataPath env) = .ok (values.insert key stored))
    (displays : ∀ s : TypedStore Mounted Keyring, s.registry = {} →
      Store.read s.store key = .ok (some stored) → (s.display key kind).1 = .ok shown) :
    (w.perform env config (.get key kind)).1 = .line shown := by
  have found : Store.read (w.typed env config (values.insert key stored)).store key =
      .ok (some stored) := congrArg Except.ok (Table.get?_insert_self _ _ _)
  dsimp only [perform]
  rw [withTyped_of_load loaded chosen]
  dsimp only
  rw [displays _ rfl found]
  rfl

/-- A run opens a sealed text in the preference file with the keypair that the keyring keeps. -/
lemma perform_encryptGet {pair : Keypair} {ephemeral : SecretKey} {nonce : Nonce}
    (agrees : w.suite.Agrees) (chosen : config.effectiveAlias ≠ "") (named : key ≠ "")
    (gives : Keyring.Gives ⟨config.effectiveService, w.credentials⟩ config.effectiveAlias pair)
    (own : pair = w.suite.keypair pair.secretKey)
    (loaded : PreferenceFile.load w.disk (config.dataPath env) = .ok (values.insert key
      (.string (w.suite.sealFor pair.publicKey ephemeral nonce text).render))) :
    (w.perform env config (.encryptGet key)).1 = .line text := by
  have nonempty : (w.suite.sealFor pair.publicKey ephemeral nonce text).render ≠ "" :=
    Sealed.render_ne_empty (w.suite.sealText_ne_nil _ _ _)
  have opened : Envelope.openWith w.suite pair
      (w.suite.sealFor pair.publicKey ephemeral nonce text).render = .ok text := by
    rw [own]
    exact Suite.openWith_own agrees
  have provided := Keyring.provision_of_gives gives w.suite (w.supply.chance w.supply.used)
  dsimp only [perform]
  rw [withTyped_of_load loaded chosen]
  dsimp only
  rw [TypedStore.getSealed_of_read named (congrArg Except.ok (Table.get?_insert_self _ _ _))]
  dsimp only [typed]
  rw [Envelope.decrypt_new provided nonempty, opened]
  rfl

/-- A set succeeds on any disk from which the preference file can be loaded, unless it has to be
durable. -/
lemma perform_set_of_load {p : ParsedValue} {stored : Value}
    (loaded : PreferenceFile.load w.disk (config.dataPath env) = .ok values)
    (chosen : config.effectiveAlias ≠ "") (named : key ≠ "") (parsed : kind.parse raw = .ok p)
    (encoded : (toStored {} p.type p.value).1 = .ok stored)
    (durable : sync = true → Writable w.disk (config.dataPath env)) :
    (w.perform env config (.set key raw kind sync)).1 = .done "" := by
  have stores : toStored (w.typed env config values).registry p.type p.value =
      (.ok stored, (toStored {} p.type p.value).2) := Prod.ext encoded rfl
  dsimp only [perform]
  rw [withTyped_of_load loaded chosen]
  simp only [TypedStore.enter, parsed, TypedStore.set, requireKey, if_neg named, stores]
  cases sync with
  | false => rfl
  | true =>
    obtain ⟨d', saved, -⟩ := (durable rfl).save (values.insert key stored)
    have written : PreferenceFile.write w.disk (config.dataPath env) (values.insert key stored) =
        (.ok (), d') := by
      rw [PreferenceFile.write, saved]
    simp only [if_true, PendingWrite.finish, Store.write, typed, FileStore.write, FileStore.update,
      FileStore.persist, FileStore.persistAs, FileStore.nextSnapshot, written]
    rfl

/-- A text is set sealed, without a word, where a keypair is provided. -/
lemma perform_encryptSet_of_load {handle : KeyHandle} {k : Keyring}
    (loaded : PreferenceFile.load w.disk (config.dataPath env) = .ok values)
    (chosen : config.effectiveAlias ≠ "") (named : key ≠ "") (nonempty : text ≠ "")
    (provided : provision w.suite (w.supply.chance w.supply.used) config.effectiveAlias
      (⟨config.effectiveService, w.credentials⟩ : Keyring) = (.ok handle, k)) :
    (w.perform env config (.encryptSet key text)).1 = .done "" := by
  dsimp only [perform]
  rw [withTyped_of_load loaded chosen]
  simp only [TypedStore.setSealed, requireKey, if_neg named, typed, TypedStore.encrypt, Supply.next,
    Envelope.encrypt, if_neg nonempty, Envelope.ready, provided, Bool.false_eq_true, if_false,
    TypedStore.set]
  rfl

/-- A run of words that make a command, with a configuration that can be loaded, performs the
command. -/
lemma run_of_parse {command : Command} {words : List String}
    (parsed : Command.parse words = .ok command)
    (configured : Config.load w.disk env.configFile = .ok config) :
    w.run env words = w.perform env config command := by
  rw [run, parsed]
  dsimp only
  rw [configured]

/-! ## Two runs -/

/-- What a run that has put a value leaves to the next one. -/
structure Lasts (w w' : World) (env : Environment) (config : Config) (next : Command)
    (shown : String) : Prop where
  /-- Where the disk takes the preference file, the next run shows the value, if it finds the
  same configuration. -/
  answers : Writable w.disk (config.dataPath env) →
    Config.load w'.disk env.configFile = .ok config →
    ∀ words, Command.parse words = .ok next → (w'.run env words).1 = .line shown
  /-- It does, unless the way to the preference file passes the configuration file. -/
  finds : Writable w.disk (config.dataPath env) → w.disk.Rooted →
    env.Apart w.disk.cwd (config.dataPath env) → Config.load w'.disk env.configFile = .ok config
  /-- Where the disk does not take the preference file, all files are as they were. -/
  refused : ¬ Writable w.disk (config.dataPath env) → w.disk.Grown w'.disk

/-- What was handed over lasts, if the next run answers so over the values. -/
lemma Lasts.of_handed {next : Command} {shown : String} {mode : SyncMode}
    (configured : Config.load w.disk env.configFile = .ok config)
    (handed : Handed w.disk w'.disk (config.dataPath env) values mode)
    (answers : PreferenceFile.load w'.disk (config.dataPath env) = .ok values →
      (w'.perform env config next).1 = .line shown) :
    w.Lasts w' env config next shown where
  answers writable configured' words parsed := by
    rw [run_of_parse parsed configured']
    exact answers (PreferenceFile.load_of_readText
      (PreferenceFile.readText_save (handed.saved writable)))
  finds writable rooted apart :=
    (Config.load_of_save rooted apart (handed.saved writable)).trans configured
  refused := handed.grown

/-- Let a run succeed that sets a value, in which a JSON text has no numbers but integers. If it was
to be durable, the disk took the preference file. Wherever the disk takes it, durably or not, any
run of the matching get prints the normal form of the value, as long as it finds the configuration
that the first run found. It does where everything on the disk is in a directory and the path of
the preference file does not pass the configuration file, whose own path has no steps up. Where the
disk does not take the preference file, there are at most new directories. The same holds of texts
that are set sealed, for a keyring that keeps no halves of different keypairs under the alias. -/
theorem set_value_is_shown_where_disk_takes_file
    (configured : Config.load w.disk env.configFile = .ok config) :
    (∀ words key raw kind sync, Command.parse words = .ok (.set key raw kind sync) →
      kind.Exact raw → (w.run env words).1.exitCode = 0 →
      (sync = true → Writable w.disk (config.dataPath env)) ∧
      ∃ shown, kind.normalForm? raw = some shown ∧
        w.Lasts (w.run env words).2 env config (.get key kind) shown) ∧
    (w.suite.Agrees →
      Keyring.Sound w.suite ⟨config.effectiveService, w.credentials⟩ config.effectiveAlias →
      ∀ words key text, Command.parse words = .ok (.encryptSet key text) →
      (w.run env words).1.exitCode = 0 →
      w.Lasts (w.run env words).2 env config (.encryptGet key) text) := by
  constructor
  · intro words key raw kind sync parsed exact done
    rw [run_of_parse parsed configured] at done ⊢
    rcases out : w.perform env config (.set key raw kind sync) with ⟨o, w'⟩
    rw [out] at done
    obtain ⟨named, chosen, values, p, stored, read, encoded, handed⟩ := perform_set out done
    obtain ⟨shown, normal, displays⟩ := ValueKind.display_of_parse named read exact encoded
    have durable : sync = true → Writable w.disk (config.dataPath env) :=
      fun sync => handed.writable (if_pos sync)
    exact ⟨durable, shown, normal, .of_handed configured handed fun loaded =>
      perform_get chosen loaded displays⟩
  · intro agrees sound words key text parsed done
    rw [run_of_parse parsed configured] at done ⊢
    rcases out : w.perform env config (.encryptSet key text) with ⟨o, w'⟩
    rw [out] at done
    obtain ⟨named, chosen, suite, values, handle, k, provided, kept, handed⟩ :=
      perform_encryptSet out done
    obtain ⟨service, gives, own⟩ := Keyring.gives_of_provision sound provided
    -- the next run builds its keyring from the same service and the credentials left behind
    have gives' : Keyring.Gives ⟨config.effectiveService, w'.credentials⟩ config.effectiveAlias
        handle.pair := by
      obtain ⟨_, credentials⟩ := k
      cases service
      rw [kept]
      exact gives
    rw [← suite] at agrees own handed
    exact .of_handed configured handed fun loaded =>
      perform_encryptGet agrees chosen named gives' own loaded

/-! ## Runs on small disks -/

/-- The environment of a user whose home directory is the root. -/
def atRoot : Environment where
  home := "/"

/-- A world with this disk, no credentials, and random choices that are always the same. -/
def sample (disk : Disk) : World where
  disk := disk
  supply.chance _ := .sample 5
  suite := .tagged

/-- The configuration file of a home at the root. -/
lemma configFile_atRoot : Path.ofString atRoot.configFile =
    ⟨true, [".config", "prefs", "config.toml"], .name, []⟩ := by decide +kernel

/-- The preference file of a home at the root, where the configuration sets none. -/
lemma dataPath_atRoot : Config.dataPath {} atRoot =
    ⟨true, [".local", "share", "prefs", "preferences.json"], .name, []⟩ := by decide +kernel

/-- On an empty disk a number and a sealed text are set and shown. -/
theorem set_value_is_shown_on_empty_disk :
    let w := sample (.fresh [])
    let number := ["set", "k", "+5", "--kind", "long"]
    let secret := ["encrypt-set", "k", "s"]
    (w.run atRoot number).1 = .done "" ∧
      ((w.run atRoot number).2.run atRoot ["get", "--kind", "long", "k"]).1 = .line "5" ∧
      (w.run atRoot secret).1 = .done "" ∧
      ((w.run atRoot secret).2.run atRoot ["encrypt-get", "k"]).1 = .line "s" := by
  intro w number secret
  have configured : Config.load w.disk atRoot.configFile = .ok {} := by
    rw [Config.load, configFile_atRoot]
    rfl
  have loaded : PreferenceFile.load w.disk (Config.dataPath {} atRoot) = .ok ∅ := by
    rw [dataPath_atRoot]
    rfl
  have writable : Writable w.disk (Config.dataPath {} atRoot) := by
    rw [dataPath_atRoot]
    exact ⟨_, rfl⟩
  have rooted : w.disk.Rooted := by
    intro place name there
    have below : place ++ [name] ≠ [] := by simp
    exact absurd (if_neg below) there
  have apart : atRoot.Apart w.disk.cwd (Config.dataPath {} atRoot) := by
    rw [Environment.Apart, configFile_atRoot, dataPath_atRoot]
    decide
  have chosen : Config.effectiveAlias {} ≠ "" := by decide
  have numberDone : (w.run atRoot number).1 = .done "" := by
    have parsed : Command.parse number = .ok (.set "k" "+5" .long false) := rfl
    rw [run_of_parse parsed configured]
    exact perform_set_of_load loaded chosen (by decide) rfl rfl nofun
  have secretDone : (w.run atRoot secret).1 = .done "" := by
    have parsed : Command.parse secret = .ok (.encryptSet "k" "s") := rfl
    have year : Validity.oneYearFrom? (w.supply.chance 0).now ≠ none := by decide
    obtain ⟨validity, year⟩ := Option.ne_none_iff_exists'.1 year
    have provided : ∃ k : Keyring, provision w.suite (w.supply.chance 0) (Config.effectiveAlias {})
        ⟨Config.effectiveService {}, {}⟩ = (.ok ⟨_, _⟩, k) :=
      Keyring.provision_of_absent (fun _ => rfl) rfl year
    obtain ⟨k, provided⟩ := provided
    rw [run_of_parse parsed configured]
    exact perform_encryptSet_of_load loaded chosen (by decide) (by decide) provided
  have sound : Keyring.Sound w.suite ⟨Config.effectiveService {}, w.credentials⟩
      (Config.effectiveAlias {}) := by
    rintro pair ⟨text, loaded, -⟩
    cases loaded
  have ⟨sets, seals⟩ := set_value_is_shown_where_disk_takes_file configured
  refine ⟨numberDone, ?_, secretDone, ?_⟩
  · have done : (w.run atRoot number).1.exitCode = 0 := by
      rw [numberDone]
      rfl
    obtain ⟨-, shown, normal, lasts⟩ := sets number "k" "+5" .long false rfl nofun done
    cases normal
    exact lasts.answers writable (lasts.finds writable rooted apart) _ rfl
  · have done : (w.run atRoot secret).1.exitCode = 0 := by
      rw [secretDone]
      rfl
    have lasts := seals Suite.tagged_ideal.agree_comm sound secret "k" "s" rfl done
    exact lasts.answers writable (lasts.finds writable rooted apart) _ rfl

/-- A disk with the text of a configuration. -/
def configuredDisk (text : String) : Disk where
  nodes := Table.insert (Table.insert (Table.insert ∅ [".config"] .directory)
    [".config", "prefs"] .directory) [".config", "prefs", "config.toml"] (.file (utf8 text))
  cwd := []

/-- The configuration file of the sample disk is loaded as its text. -/
lemma load_configuredDisk (text : String) :
    Config.load (sample (configuredDisk text)).disk atRoot.configFile = Config.parse text := by
  refine Config.load_of_lookup ?_
  rw [configFile_atRoot]
  rfl

/-- Everything on the sample disk is in a directory. -/
lemma rooted_configuredDisk (text : String) : (configuredDisk text).Rooted := by
  intro place name there
  have below : place ++ [name] ≠ [] := by simp
  have inside (front : List String) {last : String} (same : place ++ [name] = front ++ [last])
      (directory : (configuredDisk text).node? front = some .directory) :
      (configuredDisk text).node? place = some .directory := by
    rw [(List.append_inj' same rfl).1, directory]
  by_cases file : place ++ [name] = [".config", "prefs", "config.toml"]
  · exact inside [".config", "prefs"] file rfl
  by_cases inner : place ++ [name] = [".config", "prefs"]
  · exact inside [".config"] inner rfl
  by_cases outer : place ++ [name] = [".config"]
  · exact inside [] outer rfl
  rw [Disk.node?, if_neg below] at there
  dsimp only [configuredDisk] at there
  rw [Table.get?_insert_of_ne _ _ file, Table.get?_insert_of_ne _ _ inner,
    Table.get?_insert_of_ne _ _ outer] at there
  exact absurd rfl there

/-- A set where the preference file is still missing. -/
lemma run_of_missing {disk : Disk} {words : List String}
    (configured : Config.load (sample disk).disk atRoot.configFile = .ok config)
    (parsed : Command.parse words = .ok (.set "k" "5" .long sync))
    (loaded : PreferenceFile.load disk (config.dataPath atRoot) = .ok ∅)
    (chosen : config.effectiveAlias ≠ "")
    (durable : sync = true → Writable disk (config.dataPath atRoot)) :
    ∃ w' values, (sample disk).run atRoot words = (.done "", w') ∧
      Handed disk w'.disk (config.dataPath atRoot) values (if sync then .commit else .apply) := by
  have done : ((sample disk).perform atRoot config (.set "k" "5" .long sync)).1 = .done "" :=
    perform_set_of_load loaded chosen (by decide) rfl rfl durable
  rw [run_of_parse parsed configured]
  rcases out : (sample disk).perform atRoot config (.set "k" "5" .long sync) with ⟨o, w'⟩
  rw [out] at done
  cases done
  obtain ⟨-, -, values, -, stored, -, -, handed⟩ := perform_set out rfl
  exact ⟨w', values.insert "k" stored, rfl, handed⟩

/-- Where an attempt to write leaves the disk as it was, a set succeeds and its value is not there.
-/
lemma value_lost {disk : Disk}
    (configured : Config.load (sample disk).disk atRoot.configFile = .ok config)
    (loaded : PreferenceFile.load disk (config.dataPath atRoot) = .ok ∅)
    (chosen : config.effectiveAlias ≠ "")
    (same : ∀ values, (PreferenceFile.write disk (config.dataPath atRoot) values).2 = disk) :
    let lost := (sample disk).run atRoot ["set", "k", "5", "--kind", "long"]
    lost.1 = .done "" ∧ (lost.2.run atRoot ["get", "k", "--kind", "long"]).1 = .line "0" := by
  obtain ⟨w', values, out, handed⟩ := run_of_missing configured
    (show Command.parse ["set", "k", "5", "--kind", "long"] = .ok (.set _ _ _ false) from rfl)
    loaded chosen nofun
  have kept : w'.disk = disk := handed.disk.trans (same values)
  have configured' : Config.load w'.disk atRoot.configFile = .ok config := kept ▸ configured
  have get : Command.parse ["get", "k", "--kind", "long"] = .ok (.get "k" .long) := rfl
  rw [out]
  refine ⟨rfl, ?_⟩
  rw [run_of_parse get configured']
  dsimp only [perform]
  rw [withTyped_of_load (kept ▸ loaded) chosen]
  rfl

/-- The empty path has no directory to write into. -/
lemma value_lost_to_empty_path :
    let lost := (sample (configuredDisk "data_file = \"\"\n")).run atRoot
      ["set", "k", "5", "--kind", "long"]
    lost.1 = .done "" ∧ (lost.2.run atRoot ["get", "k", "--kind", "long"]).1 = .line "0" := by
  let config : Config := { dataFile := some "" }
  have configured : Config.parse "data_file = \"\"\n" = .ok config := by decide +kernel
  have dataAt : config.dataPath atRoot = ⟨false, [], .name, [(0, "/")]⟩ := by decide +kernel
  refine value_lost ((load_configuredDisk _).trans configured) ?_ (by decide) fun values => ?_
  · rw [dataAt]
    rfl
  · rw [dataAt]
    rfl

/-- A disk with a directory for local data that takes nothing. -/
def lockedDisk : Disk where
  nodes := Table.insert ∅ [".local"] .directory
  cwd := []
  rights := { locked := fun place => if place = [".local"] then some .denied else none }

/-- Where the directories above the preference file cannot be made, it cannot be written. -/
lemma value_lost_to_locked_directory :
    let lost := (sample lockedDisk).run atRoot ["set", "k", "5", "--kind", "long"]
    lost.1 = .done "" ∧ (lost.2.run atRoot ["get", "k", "--kind", "long"]).1 = .line "0" := by
  have configured : Config.load (sample lockedDisk).disk atRoot.configFile = .ok {} := by
    rw [Config.load, configFile_atRoot]
    rfl
  refine value_lost configured ?_ (by decide) fun values => ?_
  · rw [dataPath_atRoot]
    rfl
  · rw [dataPath_atRoot]
    rfl

/-- A durable set writes the preference file over the configuration, which is then no longer one. -/
lemma configuration_lost_to_set :
    let lost := (sample (configuredDisk "data_file = \".config/prefs/x/../config.toml\"\n")).run
      atRoot ["set", "k", "5", "--kind", "long", "--sync"]
    lost.1 = .done "" ∧ (lost.2.run atRoot ["get", "k", "--kind", "long"]).1 =
      .failed (.config .malformed) := by
  let text : String := "data_file = \".config/prefs/x/../config.toml\"\n"
  let config : Config := { dataFile := some ".config/prefs/x/../config.toml" }
  have configured : Config.parse text = .ok config := by decide +kernel
  have dataAt : config.dataPath atRoot =
      ⟨false, [".config", "prefs", "x", "..", "config.toml"], .name, []⟩ := by decide +kernel
  have loaded : PreferenceFile.load (configuredDisk text) (config.dataPath atRoot) = .ok ∅ := by
    rw [dataAt]
    rfl
  have writable : Writable (configuredDisk text) (config.dataPath atRoot) := by
    rw [dataAt]
    exact ⟨_, rfl⟩
  have chosen : config.effectiveAlias ≠ "" := by decide
  obtain ⟨w', values, out, handed⟩ := run_of_missing ((load_configuredDisk text).trans configured)
    (show Command.parse ["set", "k", "5", "--kind", "long", "--sync"] = .ok (.set _ _ _ true)
      from rfl) loaded chosen fun _ => writable
  have saved := handed.saved writable
  rw [dataAt] at saved
  obtain ⟨parent, e, above, made, -, written⟩ := PreferenceFile.save_eq_ok.1 saved
  obtain ⟨place, aims, -, same⟩ := Disk.replaceFile_eq_ok.1 written
  have found : w'.disk.lookup (.ofString atRoot.configFile) =
      .ok (.file (utf8 (PreferenceFile.render values))) := by
    rw [same, configFile_atRoot]
    cases above
    cases made
    cases aims.located
    rfl
  have get : Command.parse ["get", "k", "--kind", "long"] = .ok (.get "k" .long) := rfl
  rw [out]
  refine ⟨rfl, ?_⟩
  rw [run, get]
  dsimp only
  rw [Config.load_of_lookup found, Config.parse_preferences]

/-- A set that succeeds need not have stored its value, because there is no directory to write into
or because that one takes nothing; and a durable one need not have left the configuration under
which it did. -/
theorem set_succeeds_and_get_does_not_show :
    let nowhere := sample (configuredDisk "data_file = \"\"\n")
    let locked := sample lockedDisk
    let itself := sample (configuredDisk "data_file = \".config/prefs/x/../config.toml\"\n")
    let set := ["set", "k", "5", "--kind", "long"]
    let durable := ["set", "k", "5", "--kind", "long", "--sync"]
    let get := ["get", "k", "--kind", "long"]
    ((nowhere.run atRoot set).1 = .done "" ∧
      ((nowhere.run atRoot set).2.run atRoot get).1 = .line "0") ∧
    ((locked.run atRoot set).1 = .done "" ∧
      ((locked.run atRoot set).2.run atRoot get).1 = .line "0") ∧
    (itself.run atRoot durable).1 = .done "" ∧
      ((itself.run atRoot durable).2.run atRoot get).1 = .failed (.config .malformed) :=
  ⟨value_lost_to_empty_path, value_lost_to_locked_directory, configuration_lost_to_set⟩

end World

end Preferences
