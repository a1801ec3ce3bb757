import Preferences.Proofs.Typed.History

/-!
# What a failed set leaves behind

A set that fails leaves a store in memory as it was, and so does one that leaves its value to the
background writer of a file, or that fails before it comes to the store. A commit that the disk
refuses is different: its value is in the copy in memory by then, and stays there. Even so, no other
key is concerned and every file is as it was. Main statement: `failed_set_leaves_files_and_readers`.
-/

namespace Preferences

open Interleaving

variable {σ φ : Type}

namespace TypedStore

/-- Sealing does not come to the store. -/
lemma encrypt_frame [KeyFacility φ] (s : TypedStore σ φ) (text : String) :
    (s.encrypt text).2.store = s.store ∧ (s.encrypt text).2.registry = s.registry :=
  ⟨rfl, rfl⟩

variable [Store σ] {s s' : TypedStore σ φ} {t : PrefType} {v : t.Val} {key : String}
  {mode : SyncMode}

/-- No reader of the key, as whatever type and with whatever default, can tell the two apart. -/
structure AlikeAt (s s' : TypedStore σ φ) (key : String) : Prop where
  contains : s'.contains key = s.contains key
  get : ∀ t default, (s'.get t key default).1 = (s.get t key default).1

/-- Stores with the same value under a key, and the same adapters, are alike at the key. -/
lemma AlikeAt.of_read (registry : s'.registry = s.registry)
    (read : Store.read s'.store key = Store.read s.store key) : s.AlikeAt s' key := by
  have native (k : Primitive) (fallback : k.Carrier) :
      Store.get s'.store k key fallback = Store.get s.store k key fallback := by
    rw [Store.get, Store.get, read]
  constructor
  case contains =>
    rw [TypedStore.contains, TypedStore.contains, Store.contains, Store.contains, read]
  case get =>
    intro t default
    rw [TypedStore.get, TypedStore.get]
    cases requireKey key with
    | error e => rfl
    | ok _ =>
      cases t with
      | primitive k => simp only [readAs, native]
      | structured m =>
        cases default with
        | none => rfl
        | some default => simp only [readAs, native, registry]

/-- A set that fails has not come to the store, or the store has failed to write. -/
lemma set_error {e : Error} (failed : s.set t key v mode = (.error e, s')) :
    s'.registry = s.registry ∧ (s'.store = s.store ∨ ∃ stored fault,
      (toStored s.registry t v).1 = .ok stored ∧ e = .store fault ∧
        Store.write s.store key stored mode = (.error fault, s'.store)) := by
  rw [set] at failed
  cases required : requireKey key with
  | error fault =>
    rw [required] at failed
    cases failed
    exact ⟨rfl, .inl rfl⟩
  | ok _ =>
    rw [required] at failed
    rcases encoded : toStored s.registry t v with ⟨fault | stored, calls⟩
    · rw [encoded] at failed
      cases failed
      exact ⟨rfl, .inl rfl⟩
    · rw [encoded] at failed
      dsimp only [PendingWrite.finish] at failed
      rcases written : Store.write s.store key stored mode with ⟨fault | _, store⟩
      · rw [written] at failed
        cases failed
        exact ⟨rfl, .inr ⟨stored, fault, rfl, rfl, written⟩⟩
      · rw [written] at failed
        cases failed

variable [KeyFacility φ]

/-- A sealed text that could not be set was left to the background writer in vain, if it came to the
store at all. -/
lemma setSealed_error {text : String} {stop : Halt Error}
    (failed : s.setSealed key text = (.error stop, s')) :
    s'.registry = s.registry ∧ (s'.store = s.store ∨ ∃ stored fault,
      Store.write s.store key stored .apply = (.error fault, s'.store)) := by
  rw [setSealed] at failed
  cases required : requireKey key with
  | error fault =>
    rw [required] at failed
    cases failed
    exact ⟨rfl, .inl rfl⟩
  | ok _ =>
    rw [required] at failed
    obtain ⟨store, registry⟩ := encrypt_frame s text
    rcases encrypted : s.encrypt text with ⟨fault | sealedText, s₁⟩
    · rw [encrypted] at failed store registry
      cases failed
      exact ⟨registry, .inl store⟩
    · rw [encrypted] at failed store registry
      rcases out : s₁.set (.primitive .string) key sealedText .apply with ⟨fault | _, s₂⟩
      · simp only [out] at failed
        cases failed
        obtain ⟨registry', kept | ⟨stored, fault, -, -, written⟩⟩ := set_error out
        · exact ⟨registry'.trans registry, .inl (kept.trans store)⟩
        · exact ⟨registry'.trans registry, .inr ⟨stored, fault, store ▸ written⟩⟩
      · simp only [out] at failed
        cases failed

end TypedStore

/-! ## Stores that fail to write -/

/-- A store in memory refuses no write. -/
lemma MemoryStore.write_ne_error {m m' : MemoryStore} {key : String} {v : Value} {mode : SyncMode}
    {fault : StoreError} : Store.write m key v mode ≠ (.error fault, m') := by
  intro failed
  cases failed

namespace Mounted

variable {m m' : Mounted} {key : String} {v : Value} {mode : SyncMode} {fault : StoreError}

/-- A commit fails because the disk does, when the copy in memory already has the value. -/
lemma write_commit_error (failed : Store.write m key v .commit = (.error fault, m')) :
    PreferenceFile.write m.disk m.store.path (m.store.cache.values.insert key v) =
      (.error fault, m'.disk) ∧ m'.store = m.store.update key v := by
  have result : (m.store.write m.disk key v .commit).1 = .error fault := congrArg Prod.fst failed
  have left : (⟨(m.store.write m.disk key v .commit).2.1, (m.store.write m.disk key v .commit).2.2⟩
      : Mounted) = m' := congrArg Prod.snd failed
  subst left
  rw [FileStore.write, FileStore.persist] at result ⊢
  rcases persistAs_cases (m.store.update key v) m.disk (m.store.nextSnapshot key v)
      (PreferenceFile.write m.disk (m.store.update key v).path
        (m.store.nextSnapshot key v).values) with
    ⟨_, out⟩ | ⟨_, e, disk, refused, out⟩ | ⟨_, disk, _, out⟩
  · rw [out] at result
    cases result
  · rw [out] at result ⊢
    cases result
    exact ⟨refused, rfl⟩
  · rw [out] at result
    cases result

/-- A write that fails changes nothing, unless it is a commit that the disk refuses. -/
lemma write_error (failed : Store.write m key v mode = (.error fault, m')) :
    m' = m ∨ mode = .commit ∧
      PreferenceFile.write m.disk m.store.path (m.store.cache.values.insert key v) =
        (.error fault, m'.disk) ∧ m'.store = m.store.update key v := by
  cases mode with
  | apply =>
    simp only [Store.write, FileStore.write, FileStore.enqueue] at failed
    split at failed
    · cases failed
    · cases failed
      exact .inl rfl
  | commit => exact .inr ⟨rfl, write_commit_error failed⟩

end Mounted

namespace TypedStore

/-- Over a store in memory, a set that fails changes nothing that can be seen. Over a store in a
file, neither does one that was to be sealed, and for any other one, each file is as it was, as is
every other key; the key itself is as it was unless the set is a commit that the disk refused, and
then it has the value all the same. -/
theorem failed_set_leaves_files_and_readers [KeyFacility φ] :
    (∀ {s s' : TypedStore MemoryStore φ} {key : String},
      (∃ t v mode e, s.set t key v mode = (.error e, s')) ∨
        (∃ text stop, s.setSealed key text = (.error stop, s')) →
      s'.store = s.store ∧ ∀ k, s.AlikeAt s' k) ∧
    ∀ {s s' : TypedStore Mounted φ} {key : String},
      (∀ {text stop}, s.setSealed key text = (.error stop, s') →
        s'.store = s.store ∧ ∀ k, s.AlikeAt s' k) ∧
      ∀ {t v mode e}, s.set t key v mode = (.error e, s') →
        s.store.disk.Grown s'.store.disk ∧ (∀ k, k ≠ key → s.AlikeAt s' k) ∧
        (s'.store = s.store ∧ s.AlikeAt s' key ∨
          mode = .commit ∧ ∃ stored fault, (toStored s.registry t v).1 = .ok stored ∧
            e = .store fault ∧ PreferenceFile.write s.store.disk s.store.store.path
              (s.store.store.cache.values.insert key stored) = (.error fault, s'.store.disk) ∧
            Store.read s'.store key = .ok (some stored)) := by
  refine ⟨fun {s s' key} failed => ?_, fun {s s' key} => ⟨fun {text stop} failed => ?_,
    fun {t v mode e} failed => ?_⟩⟩
  · obtain ⟨registry, kept⟩ : s'.registry = s.registry ∧ s'.store = s.store := by
      rcases failed with ⟨t, v, mode, e, failed⟩ | ⟨text, stop, failed⟩
      · obtain ⟨registry, kept | ⟨_, _, -, -, written⟩⟩ := set_error failed
        · exact ⟨registry, kept⟩
        · exact absurd written MemoryStore.write_ne_error
      · obtain ⟨registry, kept | ⟨_, _, written⟩⟩ := setSealed_error failed
        · exact ⟨registry, kept⟩
        · exact absurd written MemoryStore.write_ne_error
    exact ⟨kept, fun k => .of_read registry (by rw [kept])⟩
  · obtain ⟨registry, kept | ⟨_, _, written⟩⟩ := setSealed_error failed
    · exact ⟨kept, fun k => .of_read registry (by rw [kept])⟩
    · rcases Mounted.write_error written with kept | ⟨commit, _⟩
      · exact ⟨kept, fun k => .of_read registry (by rw [kept])⟩
      · cases commit
  · obtain ⟨registry, outcome⟩ := set_error failed
    -- a failure that leaves the store alone is seen nowhere
    have untouched (kept : s'.store = s.store) : s.store.disk.Grown s'.store.disk ∧
        (∀ k, k ≠ key → s.AlikeAt s' k) ∧ s'.store = s.store ∧ s.AlikeAt s' key := by
      have alike (k : String) : s.AlikeAt s' k := .of_read registry (by rw [kept])
      exact ⟨by rw [kept]; exact .refl _, fun k _ => alike k, kept, alike key⟩
    rcases outcome with kept | ⟨stored, fault, encoded, rfl, written⟩
    · exact (untouched kept).imp_right (And.imp_right .inl)
    · rcases Mounted.write_error written with kept | ⟨rfl, refused, updated⟩
      · exact (untouched kept).imp_right (And.imp_right .inl)
      · have read (k : String) : Store.read s'.store k =
            .ok ((s.store.store.cache.values.insert key stored).get? k) := by
          show Except.ok (s'.store.store.cache.values.get? k) = _
          rw [updated]
          rfl
        refine ⟨PreferenceFile.grown_of_write refused, fun k other => .of_read registry ?_,
          .inr ⟨rfl, stored, fault, encoded, rfl, refused, ?_⟩⟩
        · rw [read, Table.get?_insert_of_ne _ _ other]
          rfl
        · rw [read, Table.get?_insert_self]

/-- A directory has come to be where the preference file was to be. A commit fails, and the file
next to the directory and another key are as they were. -/
theorem failed_commit_leaves_neighbours :
    let disk : Disk :=
      { nodes := (Table.insert ∅ ["prefs"] .directory).insert ["notes"] (.file [104, 105])
        cwd := [] }
    let s : TypedStore Mounted MemoryFacility :=
      { store :=
          ⟨⟨⟨true, ["prefs"], .name, []⟩, ⟨1, Table.insert ∅ "j" (.bool false)⟩, 1, [], true⟩, disk⟩
        facility := {}
        supply := .sample }
    let s' := (s.set (.primitive .bool) "k" true .commit).2
    (s.set (.primitive .bool) "k" true .commit).1 =
        .error (.store (.storage (.system .isDirectory))) ∧
      s'.store.disk.readBytes ⟨true, ["notes"], .name, []⟩ = .ok [104, 105] ∧
      (s'.get (.primitive .bool) "j" none).1 = .ok false := by
  intro disk s s'
  have failed : s.set (.primitive .bool) "k" true .commit =
    (.error (.store (.storage (.system .isDirectory))), s') := rfl
  obtain ⟨grown, others, -⟩ := (failed_set_leaves_files_and_readers.2 (s := s)).2 failed
  exact ⟨rfl, grown.readBytes rfl, (others "j" (by decide)).get _ _⟩

/-- After a commit that failed, the key is found, with the value that was not committed. -/
theorem failed_commit_shows_its_value :
    let path : Path := ⟨true, ["prefs"], .name, []⟩
    ∃ store disk, FileStore.openAt (.fresh []) path = .ok store ∧
      (Disk.fresh []).makeDirectory path = .ok disk ∧
      let s : TypedStore Mounted MemoryFacility :=
        { store := ⟨store, disk⟩, facility := {}, supply := .sample }
      let s' := (s.set (.primitive .bool) "k" true .commit).2
      (s.set (.primitive .bool) "k" true .commit).1 =
          .error (.store (.storage (.system .isDirectory))) ∧
        s.contains "k" = .ok false ∧ s'.contains "k" = .ok true ∧
        (s.get (.primitive .bool) "k" none).1 = .ok false ∧
        (s'.get (.primitive .bool) "k" none).1 = .ok true :=
  ⟨_, _, rfl, rfl, rfl, rfl, rfl, rfl, rfl⟩

end TypedStore

end Preferences
