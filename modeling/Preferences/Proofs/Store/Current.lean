import Preferences.Proofs.Store.Interleaving

/-!
# A file store used by one caller

With one caller, whole writes and whole turns of the background writer follow each other, and they
are runs of the steps that many threads would take. On a disk that takes the file, the last update
is then always on disk or in the queue, so the file has all values once the queue is worked off.
Main statements: `Current.write`, `Current.work` and `Current.load`.
-/

namespace Preferences

open Interleaving

/-! ## Calls as runs -/

namespace Interleaving

variable {s : FileStore} {d : Disk}

/-- A snapshot was taken in hand by an agent and put away: all hands are empty again. -/
lemma hand_hand_start (s s' : FileStore) (d d' : Disk) (a : Agent) (snapshot : Snapshot) :
    InUse.hand ⟨s', d', ((InUse.start s d).hand a snapshot).held⟩ a none = .start s' d' := by
  refine congrArg (InUse.mk s' d') (funext fun b => ?_)
  by_cases same : b = a
  · exact if_pos same
  · exact (if_neg same).trans (if_neg same)

/-- The only snapshot in hand is persisted. -/
lemma step_persist (s : FileStore) (d : Disk) (a : Agent) (snapshot : Snapshot) :
    Step ((InUse.start s d).hand a snapshot)
      (.persisted a (decide (snapshot.generation < s.persisted)) (s.persist d snapshot).1)
      (.start (s.persist d snapshot).2.1 (s.persist d snapshot).2.2) := by
  have inHand : ((InUse.start s d).hand a snapshot).held a = some snapshot := by
    rw [InUse.held_hand, if_pos rfl]
  rw [← hand_hand_start s (s.persist d snapshot).2.1 d (s.persist d snapshot).2.2 a snapshot]
  exact .persist inHand .done rfl rfl

/-- A write that is left to the background writer is one step. -/
lemma run_apply (s : FileStore) (d : Disk) (key : String) (v : Value) :
    Run (.start s d) [.applied key v (s.write d key v .apply).1]
      (.start (s.write d key v .apply).2.1 (s.write d key v .apply).2.2) :=
  .cons (.apply _ key v) (.nil _)

/-- A commit is a run in which a caller updates the copy in memory and persists it. -/
lemma run_commit (s : FileStore) (d : Disk) (key : String) (v : Value) :
    Run (.start s d) [.updated 0 key v, .persisted (.caller 0)
        (decide ((s.nextSnapshot key v).generation < s.persisted)) (s.write d key v .commit).1]
      (.start (s.write d key v .commit).2.1 (s.write d key v .commit).2.2) :=
  .cons (.update _ 0 key v rfl) <|
    .cons (step_persist (s.update key v) d (.caller 0) (s.nextSnapshot key v)) (.nil _)

/-- A turn of the background writer is two steps. -/
lemma run_work {snapshot : Snapshot} {rest : List Snapshot} (next : s.queue = snapshot :: rest)
    (d : Disk) :
    Run (.start s d) [.taken, .persisted .writer (decide (snapshot.generation < s.persisted))
        ({ s with queue := rest }.persist d snapshot).1]
      (.start (s.work d).1 (s.work d).2) := by
  rw [FileStore.work, next]
  exact .cons (.take _ snapshot rest rfl next) <|
    .cons (step_persist { s with queue := rest } d .writer snapshot) (.nil _)

end Interleaving

/-! ## The last update is on disk or on its way -/

/-- The disk takes a preference file at the path. -/
def Writable (disk : Disk) (path : Path) : Prop := ∃ d, PreferenceFile.save disk path ∅ = .ok d

/-- A store in a file, with the disk that takes it, has these values, and the background writer is
still to persist the last update or it is on disk. -/
structure Current (path : Path) (values : Table String Value) (m : Mounted) : Prop where
  writable : Writable m.disk path
  writing : m.store.writing = true
  holds : m.store.cache.values = values
  latest : m.store.persisted = m.store.cache.generation ∨ m.store.cache ∈ m.store.queue
  /-- What has happened since the store was opened. -/
  history : ∃ base es, Coherent path base es (.start m.store m.disk) ∧
    ((∃ e ∈ es, e.Replaces) ∨ PreferenceFile.load m.disk path = .ok base)

variable {path : Path} {values : Table String Value} {m : Mounted} {d : Disk} {s : FileStore}

/-- Whatever is saved, the disk goes on to take the file. -/
lemma Writable.save (h : Writable d path) (values : Table String Value) :
    ∃ d', PreferenceFile.save d path values = .ok d' ∧ Writable d' path := by
  obtain ⟨_, saved⟩ := h
  obtain ⟨d', other⟩ := PreferenceFile.save_other saved values
  exact ⟨d', other, PreferenceFile.save_again other ∅⟩

/-- On a disk that takes the file a snapshot is left out for its age or persisted. -/
lemma Writable.persist (h : Writable d s.path) (snapshot : Snapshot) :
    (snapshot.generation < s.persisted ∧ s.persist d snapshot = (.ok (), s, d)) ∨
    (s.persisted ≤ snapshot.generation ∧ ∃ d', Writable d' s.path ∧
      s.persist d snapshot = (.ok (), { s with persisted := snapshot.generation }, d')) := by
  obtain ⟨d', saved, writable⟩ := h.save snapshot.values
  have written : PreferenceFile.write d s.path snapshot.values = (.ok (), d') := by
    rw [PreferenceFile.write, saved]
  rcases persistAs_cases s d snapshot (PreferenceFile.write d s.path snapshot.values) with
    ⟨older, out⟩ | ⟨_, _, _, failed, _⟩ | ⟨current, _, succeeded, out⟩
  · exact .inl ⟨older, out⟩
  · cases written.symm.trans failed
  · cases written.symm.trans succeeded
    exact .inr ⟨current, d', writable, out⟩

namespace FileStore

/-- To persist a snapshot changes nothing of the store but the generation that is on disk. -/
lemma persist_eq (s : FileStore) (d : Disk) (snapshot : Snapshot) :
    ∃ n, (s.persist d snapshot).2.1 = { s with persisted := n } := by
  rw [persist]
  rcases persistAs_cases s d snapshot (PreferenceFile.write d s.path snapshot.values) with
    ⟨_, out⟩ | ⟨_, _, _, _, out⟩ | ⟨_, _, _, out⟩
  · exact ⟨s.persisted, by rw [out]⟩
  · exact ⟨s.persisted, by rw [out]⟩
  · exact ⟨snapshot.generation, by rw [out]⟩

/-- To persist leaves the queue. -/
lemma queue_persist (s : FileStore) (d : Disk) (snapshot : Snapshot) :
    (s.persist d snapshot).2.1.queue = s.queue := by
  obtain ⟨n, out⟩ := persist_eq s d snapshot
  rw [out]

/-- One turn of the background writer takes one snapshot. -/
lemma queue_work (s : FileStore) (d : Disk) : (s.work d).1.queue = s.queue.tail := by
  rw [work]
  cases next : s.queue with
  | nil => exact next
  | cons snapshot rest => exact queue_persist _ d snapshot

/-- A turn of the background writer takes one snapshot from the queue. -/
lemma queue_workOff (s : FileStore) (d : Disk) (n : Nat) :
    (s.workOff d n).1.queue = s.queue.drop n := by
  induction n generalizing s d with
  | zero => rfl
  | succ n ih =>
    rw [workOff, ih, queue_work, List.drop_tail]

/-- When the background writer is done, the queue is empty. -/
lemma queue_drain (s : FileStore) (d : Disk) : (s.drain d).1.queue = [] := by
  rw [drain, queue_workOff, List.drop_length]

/-- The copy in memory does not depend on what comes of persisting it. -/
lemma cache_persist (s : FileStore) (d : Disk) (snapshot : Snapshot) :
    (s.persist d snapshot).2.1.cache = s.cache := by
  obtain ⟨n, out⟩ := persist_eq s d snapshot
  rw [out]

/-- A turn of the background writer leaves the copy in memory. -/
lemma cache_work (s : FileStore) (d : Disk) : (s.work d).1.cache = s.cache := by
  rw [work]
  cases s.queue with
  | nil => rfl
  | cons snapshot rest => exact cache_persist { s with queue := rest } d snapshot

/-- So do any number of turns. -/
lemma cache_workOff (s : FileStore) (d : Disk) (n : Nat) : (s.workOff d n).1.cache = s.cache := by
  induction n generalizing s d with
  | zero => rfl
  | succ n ih => rw [workOff, ih, cache_work]

end FileStore

namespace Current

/-- A store that is opened from a file has its values. -/
lemma openAt (writable : Writable d path) (loaded : PreferenceFile.load d path = .ok values) :
    ∃ store, FileStore.openAt d path = .ok store ∧ Current path values ⟨store, d⟩ := by
  have opened : FileStore.openAt d path = .ok { path, cache := ⟨0, values⟩ } := by
    rw [FileStore.openAt, loaded]
    rfl
  exact ⟨_, opened, writable, rfl, rfl, .inl rfl, values, [], .start opened, .inr loaded⟩

/-- The file of a current store can be loaded. -/
lemma loads (c : Current path values m) :
    ∃ found, PreferenceFile.load m.disk path = .ok found := by
  obtain ⟨base, es, coherent, replaced | loaded⟩ := c.history
  · exact ⟨_, PreferenceFile.load_of_readText (coherent.file replaced)⟩
  · exact ⟨base, loaded⟩

/-- With an empty queue the last update is on disk. -/
lemma persisted_eq (c : Current path values m) (empty : m.store.queue = []) :
    m.store.persisted = m.store.cache.generation := by
  rcases c.latest with latest | queued
  · exact latest
  · rw [empty] at queued
    cases queued

/-- With an empty queue the file has all values. -/
lemma load (c : Current path values m) (empty : m.store.queue = []) :
    PreferenceFile.load m.disk path = .ok values := by
  obtain ⟨base, es, coherent, whole⟩ := c.history
  have cache : m.store.cache = ⟨(updates es).length, valuesAfter base (updates es)⟩ :=
    coherent.cache
  have all : m.store.persisted = (updates es).length := by rw [c.persisted_eq empty, cache]
  have held : valuesAfter base (updates es) = values := by rw [← c.holds, cache]
  by_cases replaced : ∃ e ∈ es, e.Replaces
  · have text : m.disk.readText path = .ok (PreferenceFile.render
        (valuesAfter base ((updates es).take m.store.persisted))) := coherent.file replaced
    rw [all, List.take_length, held] at text
    exact PreferenceFile.load_of_readText text
  · -- the file is as it was opened, so there was no update either
    have untouched : (updates es).length = 0 :=
      all ▸ Nat.eq_zero_of_not_pos (mt coherent.replaced replaced)
    rw [whole.resolve_left replaced, ← held, List.eq_nil_of_length_eq_zero untouched]
    rfl

/-- With an empty queue and after an update the file is as it is written for the values. -/
lemma readText (c : Current path values m) (empty : m.store.queue = [])
    (updated : 0 < m.store.cache.generation) :
    m.disk.readText path = .ok (PreferenceFile.render values) := by
  obtain ⟨base, es, coherent, -⟩ := c.history
  have latest : m.store.persisted = m.store.cache.generation := c.persisted_eq empty
  have text : m.disk.readText path = .ok (PreferenceFile.render
      (valuesAfter base ((updates es).take m.store.persisted))) :=
    coherent.file (coherent.replaced (latest ▸ updated))
  have cache : m.store.cache = ⟨(updates es).length, valuesAfter base (updates es)⟩ :=
    coherent.cache
  rw [latest, cache, List.take_length] at text
  rw [text, ← c.holds, cache]

/-- A write succeeds, either way, and the store has the value. -/
lemma write (c : Current path values m) (key : String) (v : Value) (mode : SyncMode) :
    (Store.write m key v mode).1 = .ok () ∧
      Current path (values.insert key v) (Store.write m key v mode).2 := by
  obtain ⟨base, es, coherent, whole⟩ := c.history
  cases mode with
  | apply =>
    have out : m.store.write m.disk key v .apply = (.ok (), { m.store with
        cache := m.store.nextSnapshot key v
        queue := m.store.queue ++ [m.store.nextSnapshot key v] }, m.disk) := by
      rw [FileStore.write, FileStore.enqueue, if_pos c.writing]
    have run := run_apply m.store m.disk key v
    simp only [Store.write, out] at run ⊢
    refine ⟨trivial, c.writable, c.writing, ?_, .inr ?_, base, _, coherent.run run, ?_⟩
    · rw [FileStore.nextSnapshot, c.holds]
    · exact List.mem_append_right _ (List.mem_singleton.2 rfl)
    · exact whole.imp_left (Exists.imp fun _ => And.imp_left (List.mem_append_left _))
  | commit =>
    have place : (m.store.update key v).path = path := coherent.place
    -- no later snapshot is on disk, so that this one is not passed over
    have current : ¬ (m.store.nextSnapshot key v).generation < m.store.persisted :=
      Nat.not_lt.2 (Nat.le_succ_of_le coherent.persisted_le)
    have run := run_commit m.store m.disk key v
    rcases Writable.persist (s := m.store.update key v) (place ▸ c.writable)
      (m.store.nextSnapshot key v) with ⟨older, _⟩ | ⟨_, d', writable, out⟩
    · exact absurd older current
    · have out : m.store.write m.disk key v .commit = _ := out
      rw [decide_eq_false current] at run
      simp only [Store.write, out] at run ⊢
      refine ⟨trivial, place ▸ writable, c.writing, ?_, .inl rfl, base, _, coherent.run run,
        .inl ?_⟩
      · rw [FileStore.update, FileStore.nextSnapshot, c.holds]
      · exact ⟨_, List.mem_append_right _ (.tail _ (.head _)), trivial⟩

/-- A turn of the background writer leaves the values alone. -/
lemma work (c : Current path values m) :
    Current path values ⟨(m.store.work m.disk).1, (m.store.work m.disk).2⟩ := by
  obtain ⟨base, es, coherent, whole⟩ := c.history
  cases next : m.store.queue with
  | nil =>
    rw [FileStore.work, next]
    exact c
  | cons snapshot rest =>
    have run := run_work next m.disk
    have place : ({ m.store with queue := rest } : FileStore).path = path := coherent.place
    have bound : m.store.persisted ≤ m.store.cache.generation := coherent.persisted_le
    have known : snapshot.generation ≤ m.store.cache.generation :=
      coherent.generation_le (coherent.queue snapshot (next ▸ List.mem_cons_self))
    have latest := c.latest
    rw [next] at latest
    rcases Writable.persist (s := { m.store with queue := rest }) (place ▸ c.writable) snapshot with
      ⟨older, out⟩ | ⟨current, d', writable, out⟩
    · -- a stale snapshot is not the last update
      have turn : m.store.work m.disk = ({ m.store with queue := rest }, m.disk) := by
        rw [FileStore.work, next]
        exact congrArg Prod.snd out
      rw [turn] at run ⊢
      refine ⟨c.writable, c.writing, c.holds, ?_, base, _, coherent.run run, ?_⟩
      · rcases latest with latest | queued
        · exact .inl latest
        · rcases List.mem_cons.1 queued with same | later
          · exact absurd older (Nat.not_lt.2 (same ▸ bound))
          · exact .inr later
      · exact whole.imp_left (Exists.imp fun _ => And.imp_left (List.mem_append_left _))
    · have turn : m.store.work m.disk =
          ({ m.store with queue := rest, persisted := snapshot.generation }, d') := by
        rw [FileStore.work, next]
        exact congrArg Prod.snd out
      rw [turn, out, decide_eq_false (Nat.not_lt.2 current)] at run
      rw [turn]
      refine ⟨place ▸ writable, c.writing, c.holds, ?_, base, _, coherent.run run, .inl ?_⟩
      · rcases latest with latest | queued
        · exact .inl (Nat.le_antisymm known (latest ▸ current))
        · exact (List.mem_cons.1 queued).imp_left fun same => by rw [same]
      · exact ⟨_, List.mem_append_right _ (.tail _ (.head _)), trivial⟩

/-- A store stays current while its background writer works. -/
lemma workOff (c : Current path values m) (n : Nat) :
    Current path values ⟨(m.store.workOff m.disk n).1, (m.store.workOff m.disk n).2⟩ := by
  induction n generalizing m with
  | zero => exact c
  | succ n ih => exact ih c.work

/-- A store stays current when its background writer is done. -/
lemma drain (c : Current path values m) :
    Current path values ⟨(m.store.drain m.disk).1, (m.store.drain m.disk).2⟩ :=
  c.workOff _

/-- Once the queue is worked off, the file has all values. -/
lemma load_drain (c : Current path values m) :
    PreferenceFile.load (m.store.drain m.disk).2 path = .ok values :=
  c.drain.load (FileStore.queue_drain m.store m.disk)

end Current

end Preferences
