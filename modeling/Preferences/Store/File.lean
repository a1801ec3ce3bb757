import Preferences.Store.Basic
import Preferences.Store.PreferenceFile

/-!
# Stores in a file

Reads are served from a copy in memory that every accepted write updates. Each update has a
generation, and its snapshot is persisted by the caller or by a background writer that takes
snapshots in turn; a snapshot older than the one on disk is skipped.

Each function below is one step that no other step interrupts: updating the copy, queueing a
snapshot, persisting one, and letting the writer take the next.
-/

namespace Preferences

/-- The values after an update, with the number of updates since the store was opened. -/
structure Snapshot where
  generation : Nat
  values : Table String Value

/-- A store in a file. -/
structure FileStore where
  path : Path
  /-- The copy in memory. -/
  cache : Snapshot
  /-- Generation of the snapshot on disk. -/
  persisted : Nat := 0
  /-- Snapshots that wait for the background writer, oldest first. -/
  queue : List Snapshot := []
  /-- Does the background writer still take snapshots? -/
  writing : Bool := true

namespace FileStore

/-- Opens the store of a file. -/
def openAt (disk : Disk) (path : Path) : Except StoreError FileStore := do
  let values ← PreferenceFile.load disk path
  return { path, cache := ⟨0, values⟩ }

/-- The snapshot after a value is put under a key. -/
def nextSnapshot (s : FileStore) (key : String) (v : Value) : Snapshot :=
  ⟨s.cache.generation + 1, s.cache.values.insert key v⟩

/-- Hands the write to the background writer; only then readers see it. -/
def enqueue (s : FileStore) (key : String) (v : Value) : Except StoreError Unit × FileStore :=
  if s.writing then
    let next := s.nextSnapshot key v
    (.ok (), { s with cache := next, queue := s.queue ++ [next] })
  -- a write that cannot be handed over is not seen either
  else (.error (.storage .writerStopped), s)

/-- Makes the write visible, before its snapshot is persisted. -/
def update (s : FileStore) (key : String) (v : Value) : FileStore :=
  { s with cache := s.nextSnapshot key v }

/-- What persisting a snapshot comes to, given what writing it to the file would come to. It is not
written where a later one is. -/
def persistAs (s : FileStore) (disk : Disk) (snapshot : Snapshot)
    (written : Except StoreError Unit × Disk) : Except StoreError Unit × FileStore × Disk :=
  if snapshot.generation < s.persisted then (.ok (), s, disk)
  else
    match written with
    -- the copy in memory keeps what could not be written
    | (.error e, disk) => (.error e, s, disk)
    | (.ok _, disk) => (.ok (), { s with persisted := snapshot.generation }, disk)

/-- Writes a snapshot to the file unless a later one is there. -/
def persist (s : FileStore) (disk : Disk) (snapshot : Snapshot) :
    Except StoreError Unit × FileStore × Disk :=
  s.persistAs disk snapshot (PreferenceFile.write disk s.path snapshot.values)

/-- Lets the background writer take the next snapshot of its queue and persist it. -/
def work (s : FileStore) (disk : Disk) : FileStore × Disk :=
  match s.queue with
  | [] => (s, disk)
  -- what persisting comes to is dropped, and a failed snapshot is not queued again
  | snapshot :: rest => ({ s with queue := rest }.persist disk snapshot).2

/-- Lets the background writer persist so many snapshots in turn; the failure of one does not stop
those after it. -/
def workOff (s : FileStore) (disk : Disk) : Nat → FileStore × Disk
  | 0 => (s, disk)
  | n + 1 =>
    let (s, disk) := s.work disk
    s.workOff disk n

/-- Lets the background writer work off its queue. -/
def drain (s : FileStore) (disk : Disk) : FileStore × Disk := s.workOff disk s.queue.length

/-- Persists the values as they are. -/
def flush (s : FileStore) (disk : Disk) : Except StoreError Unit × FileStore × Disk :=
  s.persist disk s.cache

/-- Stops the background writer after it has worked off its queue. -/
def stopWriter (s : FileStore) (disk : Disk) : FileStore × Disk :=
  let (s, disk) := s.drain disk
  ({ s with writing := false }, disk)

/-- Writes a value in one of the two ways. -/
def write (s : FileStore) (disk : Disk) (key : String) (v : Value) :
    SyncMode → Except StoreError Unit × FileStore × Disk
  | .apply =>
    let (result, s) := s.enqueue key v
    (result, s, disk)
  | .commit => (s.update key v).persist disk (s.nextSnapshot key v)

end FileStore

/-- A file store together with the disk it writes to. -/
structure Mounted where
  store : FileStore
  disk : Disk

instance : Store Mounted where
  read s key := .ok (s.store.cache.values.get? key)
  write s key v mode :=
    let (result, store, disk) := s.store.write s.disk key v mode
    (result, ⟨store, disk⟩)

end Preferences
