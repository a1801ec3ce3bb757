import Mathlib.Data.List.Induction
import Preferences.Proofs.Store.Interleaving

/-!
# Acknowledged writes are durable

A commit that returned without a failure, and a flush that began after a write and returned without
one, leave the generation of the write or a later one on disk, also where the snapshot was left out
for its age. The disk then never goes back behind the write, so a store opened from it, at any later
time, has the value or one that was written over it. Main statement:
`acknowledged_write_survives_reopen`.
-/

namespace Preferences.Interleaving

variable {w w' : InUse} {a : Agent} {e : Event} {es : List Event} {snapshot : Snapshot}

/-- The result with which an agent is done with the snapshot in its hand. -/
def Event.result? (a : Agent) : Event → Option (Except StoreError Unit)
  | persisted b _ result => if b = a then some result else none
  | _ => none

/-- The write of the event was acknowledged by what came after it: the caller that committed it, or
one that began to flush later, returned without a failure. -/
inductive Acknowledged : Event → List Event → Prop where
  | commit {n : Nat} {key : String} {v : Value} {after : List Event}
    (returned : after.findSome? (Event.result? (.caller n)) = some (.ok ())) :
    Acknowledged (.updated n key v) after
  | flush {write : Event} {between later : List Event} {n : Nat}
    (returned : later.findSome? (Event.result? (.caller n)) = some (.ok ())) :
    Acknowledged write (between ++ .copied n :: later)

/-! ## From a snapshot in hand to its return -/

/-- Until an agent is done with a snapshot, it has it in hand. -/
lemma Step.held (step : Step w e w') (inHand : w.held a = some snapshot)
    (busy : e.result? a = none) : w'.held a = some snapshot := by
  have apart {b : Agent} (free : w.held b = none) : a ≠ b := by
    rintro rfl
    rw [free] at inHand
    cases inHand
  cases step with
  | apply | stop => exact inHand
  | update _ _ _ free | copy _ free | take _ _ free =>
    rw [InUse.held_hand, if_neg (apart free)]
    exact inHand
  | @persist b =>
    have other : a ≠ b := by
      rintro rfl
      rw [Event.result?, if_pos rfl] at busy
      cases busy
    rw [InUse.held_hand, if_neg other]
    exact inHand

/-- After a return without a failure the snapshot or a later one is on disk. -/
lemma Step.persisted_of_result (step : Step w e w') (inHand : w.held a = some snapshot)
    (returned : e.result? a = some (.ok ())) : snapshot.generation ≤ w'.store.persisted := by
  cases step with
  | apply | update | copy | take | stop => cases returned
  | @persist b taken written stale result store disk known attempted age out =>
    rw [Event.result?] at returned
    split at returned
    next same =>
      cases same
      cases known.symm.trans inHand
      cases returned
      rcases persistAs_cases w.store w.disk snapshot written with
        ⟨older, is⟩ | ⟨_, _, _, _, is⟩ | ⟨_, _, _, is⟩
      · cases out.symm.trans is
        exact Nat.le_of_lt older
      · cases out.symm.trans is
      · cases out.symm.trans is
        exact Nat.le_refl _
    next => cases returned

/-- Once an agent has returned without a failure, the snapshot it had in hand or a later one is on
disk. -/
lemma Run.persisted_of_result (run : Run w es w') (inHand : w.held a = some snapshot)
    (returned : es.findSome? (Event.result? a) = some (.ok ())) :
    snapshot.generation ≤ w'.store.persisted := by
  -- until the agent returns it keeps the snapshot, and afterwards the disk does not go back
  induction run with
  | nil => cases returned
  | @cons w₁ w₂ w₃ e es step rest ih =>
    rw [List.findSome?_cons] at returned
    split at returned
    next result now =>
      cases returned
      exact Nat.le_trans (step.persisted_of_result inHand now) rest.persisted_le
    next busy => exact ih (step.held inHand busy) returned

/-! ## From the generation on disk to the value under a key -/

variable {path : Path} {values : Table String Value} {before after : List Event}
  {write : Event} {key : String} {v : Value}

/-- An event that updates comes first among the updates. -/
lemma updates_cons {u : String × Value} (update : e.update? = some u) :
    updates (e :: es) = u :: updates es :=
  List.filterMap_cons_some update

/-- An acknowledged write is not behind the generation on disk. -/
lemma Acknowledged.persisted (ack : Acknowledged write after)
    (update : write.update? = some (key, v)) (c : Coherent path values before w)
    (run : Run w (write :: after) w') : (updates before).length < w'.store.persisted := by
  cases ack with
  | @commit n key v after returned =>
    cases run with
    | cons step rest =>
      cases step with
      | update _ _ _ free =>
        have generation :
            (w.store.nextSnapshot key v).generation = (updates before).length + 1 := by
          rw [FileStore.nextSnapshot, c.cache]
        have inHand : ((InUse.mk (w.store.update key v) w.disk w.held).hand (.caller n)
            (w.store.nextSnapshot key v)).held (.caller n) = some (w.store.nextSnapshot key v) := by
          rw [InUse.held_hand, if_pos rfl]
        have onDisk := rest.persisted_of_result inHand returned
        rwa [generation] at onDisk
  | @flush _ between later n returned =>
    obtain ⟨w₁, first, second⟩ := Run.split (write :: between) run
    have c₁ : Coherent path values (before ++ write :: between) w₁ := c.run first
    -- the copy in memory that the flush takes has the write
    have longer : (updates before).length < (updates (before ++ write :: between)).length := by
      rw [updates_append, List.length_append, updates_cons update]
      simp
    cases second with
    | cons step rest =>
      cases step with
      | copy _ free =>
        have inHand : (w₁.hand (.caller n) w₁.store.cache).held (.caller n) =
            some w₁.store.cache := by
          rw [InUse.held_hand, if_pos rfl]
        have onDisk := rest.persisted_of_result inHand returned
        rw [c₁.cache] at onDisk
        exact Nat.lt_of_lt_of_le longer onDisk

/-- Under a key that was written is the value or one that was written later. -/
lemma get?_valuesAfter (values : Table String Value) (earlier later : List (String × Value))
    (key : String) (v : Value) :
    ∃ u, (valuesAfter values (earlier ++ (key, v) :: later)).get? key = some u ∧
      (u = v ∨ (key, u) ∈ later) := by
  -- the last update decides what is under its key, so the induction is from the end
  induction later using List.reverseRecOn with
  | nil =>
    refine ⟨v, ?_, .inl rfl⟩
    rw [valuesAfter_concat]
    exact Table.get?_insert_self _ _ _
  | append_singleton later last ih =>
    rw [← List.cons_append, ← List.append_assoc, valuesAfter_concat]
    by_cases same : key = last.1
    · refine ⟨last.2, ?_, .inr ?_⟩
      · rw [same]
        exact Table.get?_insert_self _ _ _
      · rw [same]
        exact List.mem_append_right _ (List.mem_singleton.2 rfl)
    · obtain ⟨u, found, origin⟩ := ih
      refine ⟨u, ?_, origin.imp_right (List.mem_append_left _)⟩
      rw [Table.get?_insert_of_ne _ _ same]
      exact found

/-- A store opened from a file with the values after a write has the value under the key or one that
was written over it. -/
lemma Coherent.reopen (c : Coherent path values (before ++ write :: after) w)
    (update : write.update? = some (key, v))
    (onDisk : (updates before).length < w.store.persisted) :
    ∃ store u, FileStore.openAt w.disk path = .ok store ∧
      Store.read (⟨store, w.disk⟩ : Mounted) key = .ok (some u) ∧
      (u = v ∨ ∃ e ∈ after, e.update? = some (key, u)) := by
  have text := c.file (c.replaced (Nat.zero_lt_of_lt onDisk))
  obtain ⟨g, reached⟩ : ∃ g, w.store.persisted = (updates before).length + (g + 1) := by
    obtain ⟨g, reached⟩ := Nat.exists_eq_add_of_lt onDisk
    exact ⟨g, by rw [reached, Nat.add_assoc]⟩
  have firsts : (updates (before ++ write :: after)).take w.store.persisted =
      updates before ++ (key, v) :: (updates after).take g := by
    rw [updates_append, reached, List.take_length_add_append, updates_cons update,
      List.take_succ_cons]
  rw [firsts] at text
  obtain ⟨u, found, origin⟩ :=
    get?_valuesAfter values (updates before) ((updates after).take g) key v
  refine ⟨⟨path, ⟨0, _⟩, 0, [], true⟩, u, ?_, congrArg Except.ok found,
    origin.imp_right fun later => ?_⟩
  · rw [FileStore.openAt, PreferenceFile.load_of_readText text]
    rfl
  · exact List.mem_filterMap.1 (List.mem_of_mem_take later)

/-- Where a write was acknowledged, by its own commit or by a later flush, a store opened from the
disk at that time or at any time after it has under the key the value or one that updated the copy
in memory later. -/
theorem acknowledged_write_survives_reopen {disk : Disk} {store : FileStore}
    (opened : FileStore.openAt disk path = .ok store) (before : List Event)
    (run : Run (.start store disk) (before ++ write :: after) w)
    (update : write.update? = some (key, v)) (ack : Acknowledged write after)
    {more : List Event} (further : Run w more w') :
    ∃ reopened u, FileStore.openAt w'.disk path = .ok reopened ∧
      Store.read (⟨reopened, w'.disk⟩ : Mounted) key = .ok (some u) ∧
      (u = v ∨ ∃ e ∈ after ++ more, e.update? = some (key, u)) := by
  obtain ⟨w₀, first, second⟩ := Run.split before run
  have c₀ : Coherent path store.cache.values before w₀ := (Coherent.start opened).run first
  have c : Coherent path store.cache.values (before ++ write :: (after ++ more)) w' :=
    c₀.run (second.append further)
  have onDisk : (updates before).length < w'.store.persisted :=
    Nat.lt_of_lt_of_le (ack.persisted update c₀ second) further.persisted_le
  exact c.reopen update onDisk

/-- A commit returns without having written anything, for the writer was faster with a later write
of another key: the value is found on disk, also after a flush that fails. -/
theorem overtaken_commit_survives_reopen :
    ∃ store w w', FileStore.openAt (.fresh []) ⟨true, ["prefs"], .name, []⟩ = .ok store ∧
      Run (.start store (.fresh [])) [.updated 0 "a" (.bool true),
        .applied "b" (.bool false) (.ok ()), .taken, .persisted .writer false (.ok ()),
        .persisted (.caller 0) true (.ok ())] w ∧
      Run w [.copied 1, .persisted (.caller 1) false (.error (.storage .invalidPath))] w' ∧
      ∃ reopened, FileStore.openAt w'.disk ⟨true, ["prefs"], .name, []⟩ = .ok reopened ∧
        Store.read (⟨reopened, w'.disk⟩ : Mounted) "a" = .ok (some (.bool true)) := by
  have run : ∃ w w', Run
      (.start { path := ⟨true, ["prefs"], .name, []⟩, cache := ⟨0, ∅⟩ } (.fresh []))
      [.updated 0 "a" (.bool true), .applied "b" (.bool false) (.ok ()), .taken,
        .persisted .writer false (.ok ()), .persisted (.caller 0) true (.ok ())] w ∧
      Run w [.copied 1, .persisted (.caller 1) false (.error (.storage .invalidPath))] w' :=
    ⟨_, _, .cons (.update _ 0 "a" (.bool true) rfl) <| .cons (.apply _ "b" (.bool false)) <|
      .cons (.take _ _ _ rfl rfl) <| .cons (.persist rfl .done rfl rfl) <|
      .cons (.persist rfl .done rfl rfl) <| .nil _, .cons (.copy _ 1 rfl) <|
      .cons (.persist rfl (.failed (.storage .invalidPath) _ rfl) rfl rfl) <| .nil _⟩
  obtain ⟨w, w', first, second⟩ := run
  have acknowledged : Acknowledged (.updated 0 "a" (.bool true))
      [.applied "b" (.bool false) (.ok ()), .taken, .persisted .writer false (.ok ()),
        .persisted (.caller 0) true (.ok ())] := .commit rfl
  have opened : FileStore.openAt (.fresh []) ⟨true, ["prefs"], .name, []⟩ = .ok _ := rfl
  obtain ⟨reopened, u, opened, found, origin⟩ :=
    acknowledged_write_survives_reopen opened [] first rfl acknowledged second
  refine ⟨_, w, w', rfl, first, second, reopened, opened, ?_⟩
  rcases origin with rfl | ⟨e, known, update⟩
  · exact found
  · have known : ("a", u) ∈ [("b", Value.bool false)] := List.mem_filterMap.2 ⟨e, known, update⟩
    simp at known

end Preferences.Interleaving
