import Preferences.Proofs.Store.Current
import Preferences.Proofs.Typed.Simulation
import Preferences.Session.Deed

/-!
# Sessions over a file and over memory

A session with one typed store is answered alike over a file and over memory, wherever it is closed
and opened again and however far the background writer has come by then. The two sessions stay
mirrors of each other: the store in memory has the values of the open file store, or those that the
file has while the typed store is closed. Main statement: `file_session_answers_as_memory_session`.
-/

namespace Preferences

/-- There is no preference file at the path, or a blank one. -/
def Unwritten (disk : Disk) (path : Path) : Prop :=
  disk.readText path = .error .notFound ∨ ∃ text, disk.readText path = .ok text ∧ allBlank text

/-- A file that is missing or blank holds no values. -/
lemma Unwritten.load {disk : Disk} {path : Path} (h : Unwritten disk path) :
    PreferenceFile.load disk path = .ok ∅ := by
  rcases h with missing | ⟨text, found, blank⟩
  · rw [PreferenceFile.load, missing]
  · rw [PreferenceFile.load, found]
    exact if_pos blank

/-- A store in memory and a store in a file with the same values. -/
def Mirrors (path : Path) : Stock → Stock → Prop
  | .memory s, .file m => Current path s.values m
  | _, _ => False

/-- Reads and writes cannot tell a store in memory from its mirror in a file. -/
lemma mirrors_alike (path : Path) : Store.Alike (Mirrors path) where
  read {s t} h key := by
    cases s <;> cases t <;> try exact h.elim
    next s m =>
      show Except.ok (m.store.cache.values.get? key) = .ok (s.values.get? key)
      rw [h.holds]
  write {s t} h key v mode := by
    cases s <;> cases t <;> try exact h.elim
    next s m => exact h.write key v mode

namespace Session

variable {path : Path} {values : Table String Value} {disk : Disk} {m f : Session}

/-- A session with one typed store, over memory. -/
def inMemory (s : Session) (values : Table String Value) (seat : Option Seat) : Session :=
  { s with
    terms := { s.terms with storage := .memory }
    shelves := [.memory ⟨values⟩]
    seats := [seat] }

/-- A session with one typed store, over a file. -/
def inFile (s : Session) (path : Path) (disk : Disk) (seat : Option Seat) : Session :=
  { s with
    terms := { s.terms with storage := .file path }
    disk
    shelves := [.memory {}]
    seats := [seat] }

/-- A typed store over memory and over a file, both closed or both open. -/
inductive Seated (path : Path) (values : Table String Value) (disk : Disk) :
    Option Seat → Option Seat → Prop where
  | closed (writable : Writable disk path) (loaded : PreferenceFile.load disk path = .ok values) :
    Seated path values disk none none
  | opened (envelope : Envelope) (registry : Option Registry) {store : FileStore}
    (current : Current path values ⟨store, disk⟩) :
    Seated path values disk (some { envelope, registry })
      (some { envelope, registry, file := some store })

/-- Two sessions with one typed store that differ only in where its values are. -/
inductive Mirror (path : Path) : Session → Session → Prop where
  | mk (s : Session) {disk : Disk} {values : Table String Value} {seat seat' : Option Seat}
    (seated : Seated path values disk seat seat') :
    Mirror path (s.inMemory values seat) (s.inFile path disk seat')

/-- The file can always be read, and the disk takes it. -/
lemma Seated.loads {seat seat' : Option Seat} (h : Seated path values disk seat seat') :
    Writable disk path ∧ ∃ found, PreferenceFile.load disk path = .ok found := by
  cases h with
  | closed writable loaded => exact ⟨writable, values, loaded⟩
  | opened _ _ current => exact ⟨current.writable, current.loads⟩

/-- The first typed store uses the first shelf. -/
lemma shelf_zero (s : Session) : s.shelf 0 = 0 := ite_self 0

/-- The typed store of a session over memory. -/
def typedOver {σ : Type} (s : Session) (envelope : Envelope) (registry : Option Registry)
    (store : σ) : TypedStore σ (Trapped Vault) :=
  { store
    facility := s.vault
    envelope
    registry := registry.getD s.registry
    calls := s.calls
    supply := s.supply
    suite := s.suite }

/-- The typed store of a session over memory has the values in memory. -/
lemma typed?_inMemory (s : Session) (values : Table String Value) (envelope : Envelope)
    (registry : Option Registry) :
    (s.inMemory values (some { envelope, registry })).typed? 0 =
      some (s.typedOver envelope registry (.memory ⟨values⟩)) := by
  simp only [typed?, shelf_zero]
  rfl

/-- The typed store of a session over a file has its file store. -/
lemma typed?_inFile (s : Session) (path : Path) (disk : Disk) (envelope : Envelope)
    (registry : Option Registry) (store : FileStore) :
    (s.inFile path disk (some { envelope, registry, file := some store })).typed? 0 =
      some (s.typedOver envelope registry (.file ⟨store, disk⟩)) := rfl

/-- What a typed store has done over memory and over a file leaves mirrors behind. -/
lemma mirror_keep (s : Session) (envelope : Envelope) (registry : Option Registry)
    (store : FileStore) {t : TypedStore Stock (Trapped Vault)} {stock : Stock}
    (related : Mirrors path t.store stock) :
    Mirror path ((s.inMemory values (some { envelope, registry })).keep 0 t)
      ((s.inFile path disk (some { envelope, registry, file := some store })).keep 0
        (t.withStore stock)) := by
  obtain ⟨kept, facility, envelope', registry', calls, supply, suite⟩ := t
  cases kept with
  | faulty | file => exact related.elim
  | memory kept =>
    cases stock with
    | memory | faulty => exact related.elim
    | file mounted =>
      simp only [keep, shelf_zero]
      exact .mk { s with
        vault := facility
        calls
        supply
        registry := if registry.isSome then s.registry else registry' }
        (.opened envelope' _ related)

/-- A request has the same answer in both sessions. -/
lemma Mirror.request (h : Mirror path m f) (i : Nat) (r : Request) :
    (f.request i r).1 = (m.request i r).1 ∧ Mirror path (m.request i r).2 (f.request i r).2 := by
  obtain @⟨s, disk, values, seat, seat', seated⟩ := h
  cases i with
  | succ i => exact ⟨rfl, .mk s seated⟩
  | zero =>
    cases seated with
    | closed writable loaded => exact ⟨rfl, .mk s (.closed writable loaded)⟩
    | @opened envelope registry store current =>
      have related : Mirrors path (s.typedOver envelope registry (.memory ⟨values⟩)).store
          (.file ⟨store, disk⟩) := current
      obtain ⟨stock, related, same⟩ := TypedStore.perform_alike (mirrors_alike path) related r
      have same : (s.typedOver envelope registry (Stock.file ⟨store, disk⟩)).perform r = _ := same
      rw [Session.request, Session.request, attend, attend, typed?_inMemory, typed?_inFile]
      simp only [same]
      exact ⟨trivial, mirror_keep s envelope registry store related⟩

/-- A turn of the background writer changes nothing that can be seen. -/
lemma Mirror.work (h : Mirror path m f) (i : Nat) : Mirror path (m.work i) (f.work i) := by
  obtain @⟨s, disk, values, seat, seat', seated⟩ := h
  cases i with
  | succ i => exact .mk s seated
  | zero =>
    cases seated with
    | closed writable loaded => exact .mk s (.closed writable loaded)
    | opened envelope registry current => exact .mk s (.opened envelope registry current.work)

/-- When the typed store is closed, the file has all values. -/
lemma Mirror.close (h : Mirror path m f) (i : Nat) : Mirror path (m.close i) (f.close i) := by
  obtain @⟨s, disk, values, seat, seat', seated⟩ := h
  cases i with
  | succ i => exact .mk s seated
  | zero =>
    cases seated with
    | closed writable loaded => exact .mk s (.closed writable loaded)
    | opened envelope registry current =>
      exact .mk s (.closed current.drain.writable current.load_drain)

/-- A typed store over memory and over a file that can be read are opened alike. -/
lemma newSeat_alike (s : Session) (seat seat' : Option Seat) {found : Table String Value}
    (writable : Writable disk path) (loaded : PreferenceFile.load disk path = .ok found) :
    (∃ e, (s.inMemory values seat).newSeat = .error e ∧
      (s.inFile path disk seat').newSeat = .error e) ∨
    ∃ envelope registry store, (s.inMemory values seat).newSeat = .ok { envelope, registry } ∧
      (s.inFile path disk seat').newSeat = .ok { envelope, registry, file := some store } ∧
      Current path found ⟨store, disk⟩ := by
  obtain ⟨store, opened, current⟩ := Current.openAt writable loaded
  have memory : (s.inMemory values seat).newSeat =
      (outfit s.terms).bind fun o => .ok { envelope := o.1, registry := o.2 } := rfl
  have file : (s.inFile path disk seat').newSeat =
      (outfit s.terms).bind fun o =>
        .ok { envelope := o.1, registry := o.2, file := some store } := by
    simp only [newSeat, inFile, opened]
    rfl
  rw [memory, file]
  cases outfit s.terms with
  | error e => exact .inl ⟨e, rfl, rfl⟩
  | ok o => exact .inr ⟨o.1, o.2, store, rfl, rfl, current⟩

/-- To open the typed store goes alike in both sessions. -/
lemma openAt_alike (s : Session) (writable : Writable disk path)
    (loaded : PreferenceFile.load disk path = .ok values) :
    ((s.inFile path disk none).openAt 0).1 = ((s.inMemory values none).openAt 0).1 ∧
      Mirror path ((s.inMemory values none).openAt 0).2 ((s.inFile path disk none).openAt 0).2 := by
  rw [openAt, openAt]
  rcases newSeat_alike s none none writable loaded with
    ⟨e, memory, file⟩ | ⟨envelope, registry, store, memory, file, current⟩
  · rw [memory, file]
    exact ⟨rfl, .mk s (.closed writable loaded)⟩
  · rw [memory, file]
    exact ⟨rfl, .mk s (.opened envelope registry current)⟩

/-- To close and open again gives the same in both sessions. -/
lemma Mirror.reopen (h : Mirror path m f) (i : Nat) :
    (f.reopen i).1 = (m.reopen i).1 ∧ Mirror path (m.reopen i).2 (f.reopen i).2 := by
  rw [Session.reopen, Session.reopen]
  have closed := h.close i
  obtain @⟨s, disk, values, seat, seat', seated⟩ := h
  cases i with
  | zero =>
    cases seated with
    | closed writable loaded => exact openAt_alike s writable loaded
    | opened envelope registry current =>
      exact openAt_alike s current.drain.writable current.load_drain
  | succ i =>
    -- there is no such place, so what is opened is dropped, but how it went is still told
    obtain ⟨writable, found, loaded⟩ := seated.loads
    have memory : (s.inMemory values seat).close (i + 1) = s.inMemory values seat := rfl
    have file : (s.inFile path disk seat').close (i + 1) = s.inFile path disk seat' := rfl
    rw [memory, file, openAt, openAt]
    rcases newSeat_alike s seat seat' writable loaded with
      ⟨e, memory, file⟩ | ⟨_, _, _, memory, file, _⟩
    · rw [memory, file]
      exact ⟨rfl, .mk s seated⟩
    · rw [memory, file]
      exact ⟨rfl, .mk s seated⟩

/-- A deed has the same answer in both sessions. -/
lemma Mirror.act (h : Mirror path m f) (d : Deed) :
    (f.act d).1 = (m.act d).1 ∧ Mirror path (m.act d).2 (f.act d).2 := by
  cases d with
  | request i r =>
    obtain ⟨same, mirror⟩ := h.request i r
    exact ⟨congrArg Answer.reply same, mirror⟩
  | work i => exact ⟨rfl, h.work i⟩
  | close i => exact ⟨rfl, h.close i⟩
  | reopen i =>
    obtain ⟨same, mirror⟩ := h.reopen i
    exact ⟨congrArg Answer.opened same, mirror⟩
  | disturb d =>
    obtain ⟨s, seated⟩ := h
    exact ⟨rfl, .mk { s with vault := { s.vault with base := s.vault.base.disturb d } } seated⟩

/-- A run of deeds has the same answers in both sessions. -/
lemma Mirror.actAll (h : Mirror path m f) (ds : List Deed) :
    (f.actAll ds).1 = (m.actAll ds).1 ∧ Mirror path (m.actAll ds).2 (f.actAll ds).2 := by
  induction ds generalizing m f with
  | nil => exact ⟨rfl, h⟩
  | cons d ds ih =>
    obtain ⟨same, mirror⟩ := h.act d
    obtain ⟨rest, mirror⟩ := ih mirror
    exact ⟨congrArg₂ List.cons same rest, mirror⟩

/-- Over a file that is missing or blank a session starts as over memory. -/
lemma Mirror.start (terms : Terms) (vault : Vault) (supply : Supply) (suite : Suite)
    (unwritten : Unwritten disk path) (writable : Writable disk path) :
    (start { terms with storage := .file path } disk vault supply 1 suite).1 =
        (start { terms with storage := .memory } disk vault supply 1 suite).1 ∧
      Mirror path (start { terms with storage := .memory } disk vault supply 1 suite).2
        (start { terms with storage := .file path } disk vault supply 1 suite).2 := by
  let s : Session := { terms, disk, supply, suite, vault := ⟨vault, false⟩ }
  obtain ⟨same, mirror⟩ := openAt_alike s writable unwritten.load
  exact ⟨congrArg (fun result => [result]) same, mirror⟩

/-- A session with one typed store over a file that is missing or blank, on a disk that takes the
file, is opened as the session over memory is, and every deed of every run has the same answer in
both. -/
theorem file_session_answers_as_memory_session (terms : Terms) (path : Path) (disk : Disk)
    (vault : Vault) (supply : Supply) (suite : Suite) (unwritten : Unwritten disk path)
    (writable : Writable disk path) (ds : List Deed) :
    let memory := start { terms with storage := .memory } disk vault supply 1 suite
    let file := start { terms with storage := .file path } disk vault supply 1 suite
    file.1 = memory.1 ∧ (file.2.actAll ds).1 = (memory.2.actAll ds).1 := by
  intro memory file
  obtain ⟨same, mirror⟩ := Mirror.start terms vault supply suite unwritten writable
  exact ⟨same, (mirror.actAll ds).1⟩

/-- A value that is still queued when the typed store is closed is there when it is opened again. -/
theorem queued_write_answers_after_reopen :
    let path : Path := ⟨true, ["prefs"], .name, []⟩
    Unwritten (.fresh []) path ∧ Writable (.fresh []) path ∧
      ((start { storage := .file path } (.fresh []) (.memory {}) .sample 1).2.actAll
        [.request 0 (.set (.primitive .string) "é" "\\" .apply), .reopen 0,
          .request 0 (.get (.primitive .string) "é" none)]).1 =
        [.reply (some (.ok .done)), .opened (.ok ()),
          .reply (some (.ok (.value (.primitive .string) "\\")))] := by
  intro path
  have unwritten : Unwritten (.fresh []) path := .inl rfl
  have writable : Writable (.fresh []) path := ⟨_, rfl⟩
  obtain ⟨-, same⟩ := file_session_answers_as_memory_session {} path (.fresh []) (.memory {})
    .sample .standard unwritten writable
    [.request 0 (.set (.primitive .string) "é" "\\" .apply), .reopen 0,
      .request 0 (.get (.primitive .string) "é" none)]
  exact ⟨unwritten, writable, same.trans rfl⟩

end Session

end Preferences
