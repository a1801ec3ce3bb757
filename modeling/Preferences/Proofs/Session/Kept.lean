import Preferences.Proofs.Session.Provided
import Preferences.Proofs.Session.Refinement

/-!
# What a session leaves in its stores

A run that does not write a key leaves what the stores have under it: while a typed store stays
open, whatever its store is, and over closing and opening it again where the store is in memory, or
in a file that the disk takes and that one typed store alone uses. Main statements:
`stored?_actAll_of_open`, `OffDisk.stored?_actAll` and `Mirror.stored?_actAll`.
-/

namespace Preferences

/-! ## Requests that do not write a key -/

/-- The key that a request may write to. -/
def Request.writes? : Request → Option String
  | .set _ key _ _ => some key
  | .setSealed key _ => some key
  | .stage w (some _) => some w.key
  | _ => none

/-- A write leaves what is under every other key. -/
lemma Stock.read_write_of_ne {s : Stock} {key other : String} (apart : other ≠ key) (v : Value)
    (mode : SyncMode) : Store.read (Store.write s key v mode).2 other = Store.read s other := by
  cases s with
  | memory s => exact congrArg Except.ok (Table.get?_insert_of_ne _ _ apart)
  | faulty s =>
    show Store.read (Store.write s key v mode).2 other = Store.read s other
    simp only [Store.write]
    split
    · rfl
    · have same : ((s.base.insert key v).values).get? other = s.base.values.get? other :=
        Table.get?_insert_of_ne _ _ apart
      simp only [Store.read, FaultyStore.lie?, same]
  | file m =>
    have updated : (m.store.nextSnapshot key v).values.get? other =
        m.store.cache.values.get? other := Table.get?_insert_of_ne _ _ apart
    show Except.ok ((m.store.write m.disk key v mode).2.1.cache.values.get? other) = _
    cases mode with
    | apply =>
      show Except.ok ((m.store.enqueue key v).2.cache.values.get? other) = _
      rw [FileStore.enqueue]
      split
      · exact congrArg Except.ok updated
      · rfl
    | commit =>
      rw [FileStore.write, FileStore.cache_persist]
      exact congrArg Except.ok updated

namespace TypedStore

variable {σ φ : Type} [Store σ]

/-- To read a value leaves the store alone. -/
lemma store_get (s : TypedStore σ φ) (t : PrefType) (key : String) (default : Option t.Val) :
    (s.get t key default).2.store = s.store := by
  rw [get]
  split <;> rfl

/-- A set leaves the store as it was or has written to its key. -/
lemma store_set (s : TypedStore σ φ) (t : PrefType) (key : String) (v : t.Val) (mode : SyncMode) :
    (s.set t key v mode).2.store = s.store ∨
      ∃ stored, (s.set t key v mode).2.store = (Store.write s.store key stored mode).2 := by
  rw [set]
  split
  · exact .inl rfl
  · split
    · exact .inl rfl
    next stored calls _ => exact .inr ⟨stored, rfl⟩

variable [KeyFacility φ]

/-- So does to open a sealed text. -/
lemma store_getSealed (s : TypedStore σ φ) (key : String) :
    (s.getSealed key).2.store = s.store := by
  have before := s.store_get (.primitive .string) key none
  rw [getSealed]
  split
  next out =>
    rw [out] at before
    exact before
  next out =>
    rw [out] at before
    exact before

/-- A request leaves the store as it was or has written to its key. -/
lemma store_perform (s : TypedStore σ φ) (r : Request) :
    (s.perform r).2.store = s.store ∨ ∃ key v mode, r.writes? = some key ∧
      (s.perform r).2.store = (Store.write s.store key v mode).2 := by
  cases r with
  | set t key v mode =>
    obtain same | ⟨stored, out⟩ := s.store_set t key v mode
    · exact .inl same
    · exact .inr ⟨key, stored, mode, rfl, out⟩
  | setSealed key text =>
    show (s.setSealed key text).2.store = _ ∨ ∃ _ _ _, _ ∧ (s.setSealed key text).2.store = _
    have before : (s.encrypt text).2.store = s.store := rfl
    rw [setSealed]
    split
    · exact .inl rfl
    · split
      next out =>
        rw [out] at before
        exact .inl before
      next sealedText s' out =>
        rw [out] at before
        rw [← before]
        obtain same | ⟨stored, out⟩ := s'.store_set (.primitive .string) key sealedText .apply
        · exact .inl same
        · exact .inr ⟨key, stored, .apply, rfl, out⟩
  | stage w finish =>
    show (s.stage w finish).2.store = _ ∨ ∃ _ _ _, _ ∧ (s.stage w finish).2.store = _
    rw [stage]
    split
    · exact .inl rfl
    · cases finish with
      | none => exact .inl rfl
      | some mode => exact .inr ⟨w.key, w.value, mode, rfl, rfl⟩
  | setAlias keyAlias =>
    show (s.setAlias keyAlias).2.store = _ ∨ _
    rw [setAlias]
    split <;> exact .inl rfl
  | get t key default => exact .inl (s.store_get t key default)
  | getSealed key => exact .inl (s.store_getSealed key)
  | contains | addAdapter | hasAdapter | serialize | deserialize | activeAlias | isReady | encrypt
  | decrypt | storeRead | storeGet | storeContains => exact .inl rfl

/-- A request leaves what is under every key but its own. -/
lemma read_perform {s : TypedStore Stock φ} {key : String} {r : Request}
    (apart : r.writes? ≠ some key) :
    Store.read (s.perform r).2.store key = Store.read s.store key := by
  rcases s.store_perform r with same | ⟨written, v, mode, writes, out⟩
  · rw [same]
  · have other : key ≠ written := by
      rintro rfl
      exact apart writes
    rw [out, Stock.read_write_of_ne other]

end TypedStore

/-! ## Deeds that do not write a key -/

/-- The store is one in a file. -/
def Stock.InFile (s : Stock) : Prop := ∃ m, s = .file m

/-- A store in a file stays one when it is written to. -/
lemma Stock.InFile.write {s : Stock} (h : s.InFile) (key : String) (v : Value) (mode : SyncMode) :
    (Store.write s key v mode).2.InFile := by
  obtain ⟨m, rfl⟩ := h
  exact ⟨_, rfl⟩

/-- So does a store in memory. -/
lemma Stock.notInFile_write {s : Stock} (h : ¬ s.InFile) (key : String) (v : Value)
    (mode : SyncMode) : ¬ (Store.write s key v mode).2.InFile := by
  cases s with
  | file m => exact (h ⟨m, rfl⟩).elim
  | memory | faulty =>
    rintro ⟨m, same⟩
    cases same

/-- The key that a deed may write to. -/
def Deed.writes? : Deed → Option String
  | request _ r => r.writes?
  | _ => none

/-- Is the typed store closed, to stay so or to be opened again? -/
def Deed.Closes (j : Nat) : Deed → Prop
  | close i => i = j
  | reopen i => i = j
  | _ => False

/-- What an open typed store has in memory under a key, if its store is in a file. -/
def Seat.cached? (seat : Seat) (key : String) : Option (Option Value) :=
  seat.file.map fun file => file.cache.values.get? key

namespace Session

variable {s s' : Session} {i j : Nat} {key : String} {d : Deed} {ds : List Deed}
  {t t' : TypedStore Stock (Trapped Vault)}

/-- What the store behind a typed store has under a key. -/
def stored? (s : Session) (i : Nat) (key : String) : Option (Except StoreError (Option Value)) :=
  (s.typed? i).map fun t => Store.read t.store key

/-- What the shelf of a typed store has under a key, whether it is open or not. -/
def shelved? (s : Session) (i : Nat) (key : String) : Option (Except StoreError (Option Value)) :=
  (s.shelves[s.shelf i]?).map (Store.read · key)

/-- A store in a file has what its copy in memory has, and one in memory is on its shelf. -/
lemma stored?_eq (s : Session) (i : Nat) (key : String) : s.stored? i key =
    ((s.seats[i]?).join.map (Seat.cached? · key)).bind fun cached =>
      match cached with
      | some found => some (.ok found)
      | none => s.shelved? i key := by
  rw [stored?, typed?, shelved?]
  cases (s.seats[i]?).join with
  | none => rfl
  | some seat =>
    obtain ⟨envelope, registry, file⟩ := seat
    cases file with
    | some file => rfl
    | none =>
      show Option.map _ (Option.bind (s.shelves[s.shelf i]?) _) = (s.shelves[s.shelf i]?).map _
      cases s.shelves[s.shelf i]? <;> rfl

/-- A store has the same under a key while its copy in memory and the shelves have. -/
lemma stored?_congr (terms : s'.terms = s.terms)
    (seated : (s'.seats[i]?).join.map (Seat.cached? · key) =
      (s.seats[i]?).join.map (Seat.cached? · key))
    (shelved : ∀ k : Nat, (s'.shelves[k]?).map (Store.read · key) =
      (s.shelves[k]?).map (Store.read · key)) :
    s'.stored? i key = s.stored? i key := by
  have shelf : s'.shelf i = s.shelf i := by rw [Session.shelf, Session.shelf, terms]
  rw [stored?_eq, stored?_eq, seated, shelved?, shelf, shelved, shelved?]

/-- What a typed store leaves in its store is what the session then has. -/
lemma stored?_keep (there : s.typed? i = some t) (sort : t.store.InFile → t'.store.InFile)
    (key : String) : (s.keep i t').stored? i key = some (Store.read t'.store key) := by
  obtain ⟨seat, store, seated, behind, rfl⟩ := typed?_eq_some there
  have inSeats : i < s.seats.length := (List.getElem?_eq_some_iff.1 seated).1
  rw [stored?, Session.keep]
  split
  next mounted same =>
    simp only [typed?, List.getElem?_set_self inSeats, same]
    rfl
  next notFile =>
    rcases behind with ⟨file, -, same⟩ | ⟨-, shelved⟩
    · obtain ⟨m, same'⟩ := sort ⟨_, same⟩
      exact absurd same' (notFile m)
    · have inShelves : s.shelf i < s.shelves.length := (List.getElem?_eq_some_iff.1 shelved).1
      have taken : (s.shelves.set (s.shelf i) t'.store)[s.shelf i]? = some t'.store :=
        List.getElem?_set_self inShelves
      simp only [typed?, List.getElem?_set_self inSeats]
      show Option.map _ (Option.bind (s.shelves.set (s.shelf i) t'.store)[s.shelf i]? _) = _
      rw [taken]
      rfl

/-- A typed store that leaves a key alone leaves it alone on every shelf. -/
lemma shelves_keep (there : s.typed? i = some t) (sort : t.store.InFile → t'.store.InFile)
    (same : Store.read t'.store key = Store.read t.store key) (k : Nat) :
    ((s.keep i t').shelves[k]?).map (Store.read · key) =
      (s.shelves[k]?).map (Store.read · key) := by
  obtain ⟨seat, store, -, behind, rfl⟩ := typed?_eq_some there
  rw [Session.keep]
  split
  · rfl
  next notFile =>
    rcases behind with ⟨file, -, inFile⟩ | ⟨-, shelved⟩
    · obtain ⟨m, inFile'⟩ := sort ⟨_, inFile⟩
      exact absurd inFile' (notFile m)
    · show ((s.shelves.set (s.shelf i) t'.store)[k]?).map _ = _
      by_cases own : s.shelf i = k
      · subst own
        rw [List.getElem?_set_self (List.getElem?_eq_some_iff.1 shelved).1, shelved]
        exact congrArg some same
      · rw [List.getElem?_set_ne own]

/-- What a typed store leaves does not touch the terms of the session. -/
lemma terms_keep (s : Session) (i : Nat) (t : TypedStore Stock (Trapped Vault)) :
    (s.keep i t).terms = s.terms := by
  rw [Session.keep]
  split <;> rfl

/-- A typed store that leaves a key alone leaves it alone in every store of the session. -/
lemma stored?_keep_eq (there : s.typed? i = some t) (sort : t.store.InFile → t'.store.InFile)
    (same : Store.read t'.store key = Store.read t.store key) (j : Nat) :
    (s.keep i t').stored? j key = s.stored? j key := by
  by_cases own : i = j
  · subst own
    rw [stored?_keep there sort, same, stored?, there]
    rfl
  · refine stored?_congr (terms_keep s i t') ?_ (shelves_keep there sort same)
    have others : (s.keep i t').seats[j]? = s.seats[j]? := by
      rw [Session.keep]
      split <;> exact List.getElem?_set_ne own
    rw [others]

/-- So does a request that does not write the key. -/
lemma stored?_request {r : Request} (apart : r.writes? ≠ some key) (i j : Nat) :
    (s.request i r).2.stored? j key = s.stored? j key := by
  rw [Session.request, attend]
  cases there : s.typed? i with
  | none => rfl
  | some t =>
    have sort (h : t.store.InFile) : (t.perform r).2.store.InFile :=
      TypedStore.perform_store Stock.InFile.write h r
    exact stored?_keep_eq there sort (TypedStore.read_perform apart) j

/-- What is done with a file store, without a change to its copy in memory, leaves what all stores
have. -/
lemma stored?_withFile {α : Type} {f : FileStore → Disk → α × FileStore × Disk}
    (cached : ∀ file disk, (f file disk).2.1.cache = file.cache) (i j : Nat) :
    (s.withFile i f).2.stored? j key = s.stored? j key := by
  rw [Session.withFile]
  cases seated : (s.seats[i]?).join with
  | none => rfl
  | some seat =>
    obtain ⟨envelope, registry, file⟩ := seat
    cases file with
    | none => rfl
    | some file =>
      refine stored?_congr rfl ?_ fun _ => rfl
      show ((s.seats.set i (some _))[j]?).join.map _ = _
      by_cases own : i = j
      · subst own
        have inSeats := (List.getElem?_eq_some_iff.1 (Option.join_eq_some_iff.1 seated)).1
        rw [List.getElem?_set_self inSeats, seated]
        exact congrArg (fun cache => some (some (cache.values.get? key))) (cached file s.disk)
      · rw [List.getElem?_set_ne own]

/-- A typed store that is closed is no longer in its seat, and all others keep theirs. -/
lemma stored?_unseat (apart : i ≠ j) (seat : Option Seat) :
    ({ s with seats := s.seats.set i seat } : Session).stored? j key = s.stored? j key := by
  refine stored?_congr rfl ?_ fun _ => rfl
  show ((s.seats.set i seat)[j]?).join.map _ = _
  rw [List.getElem?_set_ne apart]

/-- Another typed store may be closed. -/
lemma stored?_close (apart : i ≠ j) : (s.close i).stored? j key = s.stored? j key := by
  rw [Session.close, stored?_unseat apart]
  exact stored?_withFile (fun file disk => file.cache_workOff disk _) i j

/-- Another typed store may be opened, or fail to be. -/
lemma stored?_openAt (apart : i ≠ j) : (s.openAt i).2.stored? j key = s.stored? j key := by
  rw [Session.openAt]
  split <;> exact stored?_unseat apart _

/-- A deed that does not write a key, and does not close the typed store, leaves what its store has
there. -/
lemma stored?_act (apart : d.writes? ≠ some key) (stays : ¬ d.Closes j) :
    (s.act d).2.stored? j key = s.stored? j key := by
  cases d with
  | request i r => exact stored?_request apart i j
  | work i => exact stored?_withFile FileStore.cache_work i j
  | close i => exact stored?_close stays
  | reopen i => exact (stored?_openAt stays).trans (stored?_close stays)
  | disturb d => exact stored?_congr rfl rfl fun _ => rfl

/-- A run of deeds that do not write a key leaves what the store of a typed store has there, as long
as the typed store stays open. -/
lemma stored?_actAll_of_open (apart : ∀ d ∈ ds, d.writes? ≠ some key)
    (stays : ∀ d ∈ ds, ¬ d.Closes j) : (s.actAll ds).2.stored? j key = s.stored? j key := by
  induction ds generalizing s with
  | nil => rfl
  | cons d ds ih =>
    obtain ⟨first, rest⟩ := List.forall_mem_cons.1 apart
    obtain ⟨firstStays, restStays⟩ := List.forall_mem_cons.1 stays
    exact (ih rest restStays).trans (stored?_act first firstStays)

/-! ## Typed stores that are closed and opened again -/

/-- The values of all typed stores are in memory. -/
structure OffDisk (s : Session) : Prop where
  storage : ∀ path, s.terms.storage ≠ .file path
  seats : ∀ seat, some seat ∈ s.seats → seat.file = none
  shelves : ∀ stock ∈ s.shelves, ¬ stock.InFile

namespace OffDisk

/-- The store of an open typed store is on its shelf. -/
lemma typed (h : s.OffDisk) (there : s.typed? i = some t) :
    s.shelves[s.shelf i]? = some t.store ∧ ¬ t.store.InFile := by
  obtain ⟨seat, store, seated, ⟨file, inFile, -⟩ | ⟨-, shelved⟩, rfl⟩ := typed?_eq_some there
  · rw [h.seats seat (List.mem_of_getElem? seated)] at inFile
    cases inFile
  · exact ⟨shelved, h.shelves store (List.mem_of_getElem? shelved)⟩

/-- To change a seat keeps all values in memory, unless the new one has a file. -/
lemma seat (h : s.OffDisk) {seat : Option Seat} (inMemory : ∀ new ∈ seat, new.file = none) :
    ({ s with seats := s.seats.set i seat } : Session).OffDisk := by
  refine { h with seats := fun other among => ?_ }
  rcases List.mem_or_eq_of_mem_set among with old | rfl
  · exact h.seats other old
  · exact inMemory other rfl

/-- A typed store that stays in memory keeps all values there. -/
lemma keep (h : s.OffDisk) (inMemory : ¬ t.store.InFile) : (s.keep i t).OffDisk := by
  rw [Session.keep]
  split
  next mounted same => exact absurd ⟨mounted, same⟩ inMemory
  · refine ⟨h.storage, ?_, ?_⟩
    · intro seat among
      rcases List.mem_or_eq_of_mem_set among with old | new
      · exact h.seats seat old
      · cases new
        rfl
    · intro stock among
      rcases List.mem_or_eq_of_mem_set among with old | rfl
      · exact h.shelves stock old
      · exact inMemory

/-- So does a request to one. -/
lemma request (h : s.OffDisk) (i : Nat) (r : Request) : (s.request i r).2.OffDisk := by
  rw [Session.request, attend]
  cases there : s.typed? i with
  | none => exact h
  | some t =>
    obtain ⟨-, inMemory⟩ := h.typed there
    refine h.keep (TypedStore.perform_store (P := fun s : Stock => ¬ s.InFile) ?_ inMemory r)
    exact Stock.notInFile_write

/-- There is no file store to do anything with. -/
lemma withFile {α : Type} (h : s.OffDisk) (i : Nat) (f : FileStore → Disk → α × FileStore × Disk) :
    s.withFile i f = (none, s) := by
  rw [Session.withFile]
  cases seated : (s.seats[i]?).join with
  | none => rfl
  | some seat =>
    dsimp only
    rw [h.seats seat (List.mem_of_getElem? (Option.join_eq_some_iff.1 seated))]

/-- To close a typed store is to leave its seat empty. -/
lemma close (h : s.OffDisk) (i : Nat) :
    s.close i = { s with seats := s.seats.set i none } := by
  rw [Session.close, settle, h.withFile]

/-- A typed store that is opened has no file. -/
lemma openAt (h : s.OffDisk) (i : Nat) : (s.openAt i).2.OffDisk := by
  rw [Session.openAt]
  split
  next seat opened =>
    obtain ⟨o, file, -, rfl, inFile⟩ := newSeat_eq_ok opened
    refine h.seat fun new same => ?_
    cases same
    cases file with
    | none => rfl
    | some file =>
      obtain ⟨path, storage⟩ := inFile rfl
      exact absurd storage (h.storage path)
  · refine h.seat fun seat same => ?_
    cases same

/-- A deed keeps all values in memory. -/
lemma act (h : s.OffDisk) (d : Deed) : (s.act d).2.OffDisk := by
  have closed (i : Nat) : (s.close i).OffDisk := by
    rw [h.close]
    exact h.seat nofun
  cases d with
  | request i r => exact h.request i r
  | work i =>
    show (s.withFile i _).2.OffDisk
    rw [h.withFile]
    exact h
  | close i => exact closed i
  | reopen i => exact (closed i).openAt i
  | disturb d => exact ⟨h.storage, h.seats, h.shelves⟩

/-- So does a run of deeds. -/
lemma actAll (h : s.OffDisk) (ds : List Deed) : (s.actAll ds).2.OffDisk := by
  induction ds generalizing s with
  | nil => exact h
  | cons d ds ih => exact ih (h.act d)

/-- The store of an open typed store has what is on its shelf. -/
lemma stored?_eq (h : s.OffDisk) (opened : (s.typed? i).isSome) (key : String) :
    s.stored? i key = s.shelved? i key := by
  obtain ⟨t, there⟩ := Option.isSome_iff_exists.1 opened
  obtain ⟨shelved, -⟩ := h.typed there
  rw [stored?, shelved?, there, shelved]
  rfl

/-- A deed that does not write a key leaves it alone on every shelf, whatever is closed or
opened. -/
lemma shelved?_act (h : s.OffDisk) (apart : d.writes? ≠ some key) (i : Nat) :
    (s.act d).2.shelved? i key = s.shelved? i key := by
  have opened (s : Session) (j : Nat) : (s.openAt j).2.shelved? i key = s.shelved? i key := by
    rw [Session.openAt]
    split <;> rfl
  cases d with
  | request j r =>
    show (s.request j r).2.shelved? i key = _
    rw [Session.request, attend]
    cases there : s.typed? j with
    | none => rfl
    | some t =>
      have sort (inFile : t.store.InFile) : (t.perform r).2.store.InFile :=
        TypedStore.perform_store Stock.InFile.write inFile r
      have shelf : (s.keep j (t.perform r).2).shelf i = s.shelf i := by
        rw [shelf, shelf, terms_keep]
      show ((s.keep j (t.perform r).2).shelves[_]?).map _ = _
      rw [shelf, shelves_keep there sort (TypedStore.read_perform apart), shelved?]
  | work j =>
    show (s.withFile j _).2.shelved? i key = _
    rw [h.withFile]
  | close j =>
    show (s.close j).shelved? i key = _
    rw [h.close]
    rfl
  | reopen j =>
    show ((s.close j).openAt j).2.shelved? i key = _
    rw [opened, h.close]
    rfl
  | disturb d => rfl

/-- A run of deeds that do not write a key leaves it alone on every shelf. -/
lemma shelved?_actAll (h : s.OffDisk) (apart : ∀ d ∈ ds, d.writes? ≠ some key) (i : Nat) :
    (s.actAll ds).2.shelved? i key = s.shelved? i key := by
  induction ds generalizing s with
  | nil => rfl
  | cons d ds ih =>
    obtain ⟨first, rest⟩ := List.forall_mem_cons.1 apart
    exact (ih (h.act d) rest).trans (h.shelved?_act first i)

/-- Where all values are in memory a run of deeds that do not write a key leaves what a shelf has
there, over all closing and opening of the typed stores that use it. -/
lemma stored?_actAll (h : s.OffDisk) (apart : ∀ d ∈ ds, d.writes? ≠ some key)
    (same : s.shelf j = s.shelf i) (before : (s.typed? i).isSome)
    (after : ((s.actAll ds).2.typed? j).isSome) :
    (s.actAll ds).2.stored? j key = s.stored? i key := by
  rw [(h.actAll ds).stored?_eq after, h.stored?_eq before, h.shelved?_actAll apart, shelved?, same,
    shelved?]

end OffDisk

/-- A session starts with all values in memory unless they are kept in a file. -/
lemma OffDisk.start {terms : Terms} (storage : ∀ path, terms.storage ≠ .file path) (disk : Disk)
    (vault : Vault) (supply : Supply) (count : Nat) (suite : Suite) :
    (start terms disk vault supply count suite).2.OffDisk := by
  have opened (s : Session) (h : s.OffDisk) (n : Nat) : (s.openAll n).2.OffDisk := by
    induction n with
    | zero => exact h
    | succ n ih => exact ih.openAt n
  refine opened _ ⟨storage, ?_, ?_⟩ count
  · intro seat among
    cases List.eq_of_mem_replicate among
  · rintro stock among ⟨m, inFile⟩
    rw [List.eq_of_mem_replicate among, freshStock] at inFile
    split at inFile <;> cases inFile

/-- A session over a file has under a key what its mirror in memory has. -/
lemma Mirror.stored?_eq {path : Path} {m f : Session} (h : Mirror path m f) (i : Nat)
    (key : String) : f.stored? i key = m.stored? i key := by
  obtain @⟨s, disk, values, seat, seat', seated⟩ := h
  cases i with
  | succ i => rfl
  | zero =>
    cases seated with
    | closed => rfl
    | @opened envelope registry store current =>
      have related : Mirrors path (.memory ⟨values⟩) (.file ⟨store, disk⟩) := current
      rw [stored?, stored?, typed?_inMemory, typed?_inFile]
      exact congrArg some ((mirrors_alike path).read related key)

/-- The mirror of a session over a file has all values in memory. -/
lemma Mirror.offDisk {path : Path} {m f : Session} (h : Mirror path m f) : m.OffDisk := by
  obtain @⟨s, disk, values, seat, seat', seated⟩ := h
  refine ⟨nofun, fun other among => ?_, fun stock among => ?_⟩
  · cases seated <;> cases List.mem_singleton.1 among
    rfl
  · cases List.mem_singleton.1 among
    rintro ⟨m, inFile⟩
    cases inFile

/-- The one typed store over a file that the disk takes finds what was there when it was closed. -/
lemma Mirror.stored?_actAll {path : Path} {m f : Session} (h : Mirror path m f)
    (apart : ∀ d ∈ ds, d.writes? ≠ some key) (before : (f.stored? i key).isSome)
    (after : ((f.actAll ds).2.stored? i key).isSome) :
    (f.actAll ds).2.stored? i key = f.stored? i key := by
  obtain ⟨-, later⟩ := h.actAll ds
  rw [later.stored?_eq] at after ⊢
  rw [h.stored?_eq] at before ⊢
  rw [stored?, Option.isSome_map] at before after
  exact h.offDisk.stored?_actAll apart rfl before after

end Session

end Preferences
