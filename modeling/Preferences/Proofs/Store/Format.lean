import Preferences.Proofs.Store.Current

/-!
# What a preference file says

The bytes of a preference file and the values of a store determine each other. So it does not
matter in which order values were written: where they end up the same, so does the file. And a file
that somebody else has laid out, with its members in another order or with members of other names
among them, is laid out anew by the first write and loses none of its values. Main statement:
`file_and_values_determine_each_other`.
-/

namespace Preferences

open Interleaving

/-! ## Writes and turns of the background writer -/

/-- What happens to a store in a file that has one caller. -/
inductive Move where
  | write (key : String) (v : Value) (mode : SyncMode)
  /-- A turn of the background writer. -/
  | work

/-- The write by which the move updates the values. -/
def Move.update? : Move → Option (String × Value)
  | write key v _ => some (key, v)
  | work => none

/-- The updates of all moves, in turn. -/
def Move.updates (moves : List Move) : List (String × Value) := moves.filterMap Move.update?

/-- A move more is its update more. -/
lemma Move.updates_cons (move : Move) (moves : List Move) :
    updates (move :: moves) = move.update?.toList ++ updates moves := by
  rw [updates, List.filterMap_cons]
  cases move.update? <;> rfl

namespace Mounted

/-- A file store over its disk after a move. -/
def move (m : Mounted) : Move → Mounted
  | .write key v mode => (Store.write m key v mode).2
  | .work => ⟨(m.store.work m.disk).1, (m.store.work m.disk).2⟩

/-- The store after moves, once its background writer is done. -/
def moveAll (m : Mounted) : List Move → Mounted
  | [] => ⟨(m.store.drain m.disk).1, (m.store.drain m.disk).2⟩
  | move :: moves => (m.move move).moveAll moves

end Mounted

variable {path : Path} {values : Table String Value} {m : Mounted}

namespace Current

/-- A current store stays so through a move, with what was written put in. -/
lemma move (c : Current path values m) (move : Move) :
    Current path (valuesAfter values move.update?.toList) (m.move move) := by
  cases move with
  | write key v mode => exact (c.write key v mode).2
  | work => exact c.work

/-- Only writes count as generations. -/
lemma generation_move (c : Current path values m) (move : Move) :
    (m.move move).store.cache.generation =
      m.store.cache.generation + move.update?.toList.length := by
  cases move with
  | work =>
    show (m.store.work m.disk).1.cache.generation = _
    rw [FileStore.cache_work]
    rfl
  | write key v mode =>
    cases mode with
    | apply =>
      show (m.store.enqueue key v).2.cache.generation = _
      rw [FileStore.enqueue, if_pos c.writing]
      rfl
    | commit =>
      show ((m.store.update key v).persist m.disk _).2.1.cache.generation = _
      rw [FileStore.cache_persist]
      rfl

/-- The file that is left by moves of which one was a write. -/
lemma readText_moveAll (c : Current path values m) {moves : List Move}
    (updated : 0 < m.store.cache.generation + (Move.updates moves).length) :
    (m.moveAll moves).disk.readText path =
      .ok (PreferenceFile.render (valuesAfter values (Move.updates moves))) := by
  -- a store that was never written to leaves the file as it found it, so writes before count too
  induction moves generalizing m values with
  | nil =>
    have counted : (m.store.drain m.disk).1.cache = m.store.cache :=
      FileStore.cache_workOff m.store m.disk _
    refine c.drain.readText (FileStore.queue_drain m.store m.disk) ?_
    show 0 < (m.store.drain m.disk).1.cache.generation
    rw [counted]
    exact updated
  | cons move moves ih =>
    rw [Move.updates_cons, List.length_append, ← Nat.add_assoc, ← c.generation_move] at updated
    rw [Move.updates_cons, valuesAfter, List.foldl_append]
    exact ih (c.move move) updated

end Current

/-! ## The file and the values -/

namespace PreferenceFile

/-- What was written without a failure was saved. -/
lemma write_eq_ok {disk disk' : Disk} (h : write disk path values = (.ok (), disk')) :
    save disk path values = .ok disk' := by
  rw [write] at h
  split at h
  · cases h
  next saved =>
    cases h
    exact saved

/-- No two tables of values have the same text. -/
lemma render_injective {others : Table String Value}
    (h : utf8 (render values) = utf8 (render others)) : values = others := by
  have parsed := parse_render values
  rw [utf8_inj h, parse_render others] at parsed
  cases parsed
  rfl

end PreferenceFile

/-- Writes of different keys may change places. -/
lemma valuesAfter_swap (values : Table String Value) (before after : List (String × Value))
    {k j : String} (u v : Value) (apart : k ≠ j) :
    valuesAfter values (before ++ (k, u) :: (j, v) :: after) =
      valuesAfter values (before ++ (j, v) :: (k, u) :: after) := by
  simp only [valuesAfter, List.foldl_append, List.foldl_cons]
  rw [Table.insert_comm _ _ _ apart]

/-- Where a file is read as values and the disk takes another one in its place, a commit succeeds
and the value is found when the store is opened again, among all others. -/
lemma reopen_commit {disk : Disk} (writable : Writable disk path)
    (loaded : PreferenceFile.load disk path = .ok values) (key : String) (v : Value) :
    ∃ store store' disk' reopened, FileStore.openAt disk path = .ok store ∧
      store.write disk key v .commit = (.ok (), store', disk') ∧
      FileStore.openAt disk' path = .ok reopened ∧
      reopened.cache.values = values.insert key v := by
  obtain ⟨store, opened, c⟩ := Current.openAt writable loaded
  obtain ⟨done, c'⟩ := c.write key v .commit
  have empty : (Store.write (⟨store, disk⟩ : Mounted) key v .commit).2.store.queue = [] := by
    rw [FileStore.openAt, loaded] at opened
    cases opened
    exact FileStore.queue_persist _ disk _
  obtain ⟨reopened, again, c''⟩ := Current.openAt c'.writable (c'.load empty)
  exact ⟨store, _, _, reopened, opened, congrArg (·, _, _) done, again, c''.holds⟩

/-- Where the disk takes no other file in its place, a commit fails, and all values are found when
the store is opened again. -/
lemma reopen_refused {disk : Disk} {text : String} (refused : ¬ Writable disk path)
    (found : disk.readText path = .ok text) (accepted : PreferenceFile.parse text = .ok values)
    (key : String) (v : Value) :
    ∃ store e store' disk' reopened, FileStore.openAt disk path = .ok store ∧
      store.write disk key v .commit = (.error e, store', disk') ∧
      FileStore.openAt disk' path = .ok reopened ∧ reopened.cache.values = values := by
  have opened {d : Disk} (read : d.readText path = .ok text) :
      FileStore.openAt d path = .ok { path, cache := ⟨0, values⟩ } := by
    rw [FileStore.openAt, PreferenceFile.load, read]
    dsimp only
    rw [accepted]
    rfl
  rcases written : PreferenceFile.write disk path (values.insert key v) with ⟨e | _, disk'⟩
  · refine ⟨_, e, { path, cache := ⟨1, values.insert key v⟩ }, disk', _, opened found, ?_,
      opened ((PreferenceFile.grown_of_write written).readText found), rfl⟩
    simp only [FileStore.write, FileStore.persist, FileStore.persistAs, FileStore.update,
      FileStore.nextSnapshot, written]
    rfl
  · exact absurd (PreferenceFile.save_other (PreferenceFile.write_eq_ok written) ∅) refused

/-- The bytes that a store leaves in its file, from when it is opened until its background writer is
done with a last write. -/
lemma readBytes_moveAll {disk : Disk} {store : FileStore}
    (opened : FileStore.openAt disk path = .ok store) (writable : Writable disk path)
    {moves : List Move} (updated : Move.updates moves ≠ []) :
    ((⟨store, disk⟩ : Mounted).moveAll moves).disk.readBytes path =
      .ok (utf8 (PreferenceFile.render
        (valuesAfter store.cache.values (Move.updates moves)))) := by
  have current : Current path store.cache.values ⟨store, disk⟩ := by
    cases loaded : PreferenceFile.load disk path with
    | error e =>
      rw [FileStore.openAt, loaded] at opened
      cases opened
    | ok values =>
      obtain ⟨_, again, c⟩ := Current.openAt writable loaded
      cases opened.symm.trans again
      exact c.holds ▸ c
  apply Disk.readText_eq_ok.1
  apply current.readText_moveAll
  exact Nat.lt_add_left _ (List.length_pos_iff.2 updated)

/-- The text that is written for values is read as the values, and a file that was written holds
that text and is read as them; different values are written as different bytes. Two stores on disks
that take their files leave the same bytes in them wherever their writes, of which there was one,
end in the same values, as they do where only writes of different keys changed places. And whatever
text a file has that is read as values, the store can be opened and then opened again after a
commit: where the disk takes a file there, the commit succeeded, the key has the value and all
others have what they had; where it does not, the commit failed and all have what they had. -/
theorem file_and_values_determine_each_other :
    (∀ values, PreferenceFile.parse (PreferenceFile.render values) = .ok values) ∧
    (∀ disk path values disk', PreferenceFile.write disk path values = (.ok (), disk') →
      disk'.readBytes path = .ok (utf8 (PreferenceFile.render values)) ∧
        PreferenceFile.load disk' path = .ok values) ∧
    (∀ values others, utf8 (PreferenceFile.render values) = utf8 (PreferenceFile.render others) →
      values = others) ∧
    (∀ disk₁ path₁ store₁ moves₁ disk₂ path₂ store₂ moves₂,
      FileStore.openAt disk₁ path₁ = .ok store₁ → Writable disk₁ path₁ →
      FileStore.openAt disk₂ path₂ = .ok store₂ → Writable disk₂ path₂ →
      Move.updates moves₁ ≠ [] → Move.updates moves₂ ≠ [] →
      valuesAfter store₁.cache.values (Move.updates moves₁) =
        valuesAfter store₂.cache.values (Move.updates moves₂) →
      ∃ bytes, ((⟨store₁, disk₁⟩ : Mounted).moveAll moves₁).disk.readBytes path₁ = .ok bytes ∧
        ((⟨store₂, disk₂⟩ : Mounted).moveAll moves₂).disk.readBytes path₂ = .ok bytes) ∧
    (∀ disk path store before after k u first j v second,
      FileStore.openAt disk path = .ok store → Writable disk path → k ≠ j →
      ∃ bytes,
        ((⟨store, disk⟩ : Mounted).moveAll
          (before ++ .write k u first :: .write j v second :: after)).disk.readBytes path =
            .ok bytes ∧
        ((⟨store, disk⟩ : Mounted).moveAll
          (before ++ .write j v second :: .write k u first :: after)).disk.readBytes path =
            .ok bytes) ∧
    ∀ disk path text values key v, disk.readText path = .ok text →
      PreferenceFile.parse text = .ok values →
      ∃ store result store' disk' reopened, FileStore.openAt disk path = .ok store ∧
        store.write disk key v .commit = (result, store', disk') ∧
        FileStore.openAt disk' path = .ok reopened ∧
        (Writable disk path → result = .ok () ∧ reopened.cache.values = values.insert key v ∧
          reopened.cache.values.get? key = some v ∧
          ∀ other, other ≠ key → reopened.cache.values.get? other = values.get? other) ∧
        (¬ Writable disk path → result.isOk = false ∧ reopened.cache.values = values) := by
  refine ⟨PreferenceFile.parse_render, ?_, fun _ _ => PreferenceFile.render_injective, ?_, ?_, ?_⟩
  · intro disk path values disk' written
    have text : disk'.readText path = .ok (PreferenceFile.render values) :=
      PreferenceFile.readText_save (PreferenceFile.write_eq_ok written)
    exact ⟨Disk.readText_eq_ok.1 text, PreferenceFile.load_of_readText text⟩
  · intro _ _ _ _ _ _ _ _ opened₁ writable₁ opened₂ writable₂ updated₁ updated₂ same
    refine ⟨_, readBytes_moveAll opened₁ writable₁ updated₁, ?_⟩
    rw [same]
    exact readBytes_moveAll opened₂ writable₂ updated₂
  · intro _ _ _ before after k u first j v second opened writable apart
    -- the two orders differ by a swap of neighbours, which the values do not see
    have updates (a b : String × Value) (x y : SyncMode) :
        Move.updates (before ++ .write a.1 a.2 x :: .write b.1 b.2 y :: after) =
          Move.updates before ++ a :: b :: Move.updates after := List.filterMap_append
    have updated (a b : String × Value) (x y : SyncMode) :
        Move.updates (before ++ .write a.1 a.2 x :: .write b.1 b.2 y :: after) ≠ [] := by
      rw [updates]
      simp
    have one := readBytes_moveAll opened writable (updated (k, u) (j, v) first second)
    rw [updates, valuesAfter_swap _ _ _ _ _ apart, ← updates _ _ second first] at one
    exact ⟨_, one, readBytes_moveAll opened writable (updated (j, v) (k, u) second first)⟩
  · intro disk path _ values key v found accepted
    by_cases writable : Writable disk path
    · have loaded : PreferenceFile.load disk path = .ok values := by
        rw [PreferenceFile.load, found]
        exact accepted
      obtain ⟨store, store', disk', reopened, opened, done, again, holds⟩ :=
        reopen_commit writable loaded key v
      refine ⟨store, _, store', disk', reopened, opened, done, again, fun _ => ?_,
        fun refused => absurd writable refused⟩
      refine ⟨rfl, holds, ?_, fun other apart => ?_⟩
      · rw [holds, Table.get?_insert_self]
      · rw [holds, Table.get?_insert_of_ne _ _ apart]
    · obtain ⟨store, e, store', disk', reopened, opened, failed, again, holds⟩ :=
        reopen_refused writable found accepted key v
      exact ⟨store, _, store', disk', reopened, opened, failed, again,
        fun taken => absurd taken writable, fun _ => ⟨rfl, holds⟩⟩

/-- A preference file as nobody would write it but a person: the values come before the version and
after a member of another name, and of two stored values one has its kind behind its payload and one
is a list. -/
def handLaidText : String :=
  "\x7b\"note\": [1.5, null], \"values\":\x7b\"b\":\x7b\"value\":-7,\"type\":\"long\"\x7d,
   \"a\":[\"string\",\"\\u00e9\"]\x7d, \"version\":1\x7d"

/-- What is in such a file is still there after a commit, and the order of two writes leaves no
trace in it. -/
theorem hand_laid_file_keeps_its_values :
    ∃ disk values store store' disk' reopened,
      disk.readText ⟨true, ["prefs"], .name, []⟩ = .ok handLaidText ∧
      PreferenceFile.parse handLaidText = .ok values ∧
      FileStore.openAt disk ⟨true, ["prefs"], .name, []⟩ = .ok store ∧
      store.write disk "a" (.bool true) .commit = (.ok (), store', disk') ∧
      FileStore.openAt disk' ⟨true, ["prefs"], .name, []⟩ = .ok reopened ∧
      reopened.cache.values.entries =
        [("a", .bool true), ("b", .long ⟨-7, by decide, by decide⟩)] ∧
      ∃ bytes,
        ((⟨store, disk⟩ : Mounted).moveAll
          [.write "a" (.bool true) .apply, .write "c" (.string "") .commit, .work]).disk.readBytes
            ⟨true, ["prefs"], .name, []⟩ = .ok bytes ∧
        ((⟨store, disk⟩ : Mounted).moveAll
          [.write "c" (.string "") .commit, .write "a" (.bool true) .apply, .work]).disk.readBytes
            ⟨true, ["prefs"], .name, []⟩ = .ok bytes := by
  have written : (Disk.fresh []).writeFile ⟨true, ["prefs"], .name, []⟩ (utf8 handLaidText) =
      .ok ((Disk.fresh []).putFile ["prefs"] (utf8 handLaidText)) := rfl
  have found := Disk.readText_writeFile written
  have entries : (PreferenceFile.parse handLaidText).toOption.map Table.entries =
      some [("a", .string "é"), ("b", .long ⟨-7, by decide, by decide⟩)] := by
    decide +kernel
  cases accepted : PreferenceFile.parse handLaidText with
  | error e =>
    rw [accepted] at entries
    cases entries
  | ok values =>
    rw [accepted] at entries
    have entries := Option.some.inj entries
    obtain ⟨-, -, -, -, swapped, kept⟩ := file_and_values_determine_each_other
    have writable : Writable ((Disk.fresh []).putFile ["prefs"] (utf8 handLaidText))
        ⟨true, ["prefs"], .name, []⟩ := ⟨_, rfl⟩
    obtain ⟨store, result, store', disk', reopened, opened, done, again, taken, -⟩ :=
      kept _ _ _ values "a" (.bool true) found accepted
    obtain ⟨rfl, holds, -⟩ := taken writable
    refine ⟨_, values, store, store', disk', reopened, found, rfl, opened, done, again, ?_, ?_⟩
    · rw [holds]
      show insertEntry "a" (.bool true) values.entries = _
      rw [entries]
      decide +kernel
    · exact swapped _ _ store [] [.work] "a" (.bool true) .apply "c" (.string "") .commit opened
        writable (by decide)

end Preferences
