import Mathlib.Tactic.Linarith
import Preferences.Proofs.Store.Document
import Preferences.Store.File

/-!
# A file store used by many threads

Any number of callers write and flush while the background writer works off its queue. Updating the
copy in memory, taking a snapshot in hand and persisting one are separate steps, which the threads
take in any order, and a write to the disk may fail.

The snapshot of generation `g` always has the values after the first `g` updates. So a file that was
written holds the values after some number of updates, and that number never goes down. Main
statement: `file_holds_persisted_generation`.
-/

namespace Preferences.Interleaving

/-! ## Steps and runs -/

/-- Who persists snapshots: the background writer, or a caller that commits or flushes. -/
inductive Agent where
  | writer
  | caller (n : Nat)
  deriving DecidableEq

/-- A store in use over a disk, with the snapshots that its agents have in hand. -/
structure InUse where
  store : FileStore
  disk : Disk
  /-- The snapshot that an agent has in hand and has not yet persisted. -/
  held : Agent → Option Snapshot

namespace InUse

/-- A store that was just opened, with no snapshot in hand. -/
def start (store : FileStore) (disk : Disk) : InUse := ⟨store, disk, fun _ => none⟩

/-- Puts a snapshot into the hand of an agent, or takes it away. -/
def hand (w : InUse) (a : Agent) (snapshot : Option Snapshot) : InUse :=
  { w with held := fun b => if b = a then snapshot else w.held b }

/-- Where an agent is given a snapshot, the others keep theirs. -/
lemma held_hand (w : InUse) (a b : Agent) (snapshot : Option Snapshot) :
    (w.hand b snapshot).held a = if a = b then snapshot else w.held a := rfl

end InUse

/-- What a thread did. -/
inductive Event where
  /-- A caller handed a write to the background writer, or was refused. -/
  | applied (key : String) (v : Value) (result : Except StoreError Unit)
  /-- A caller began to commit: the copy in memory has the value. -/
  | updated (n : Nat) (key : String) (v : Value)
  /-- A caller began to flush and has the snapshot. -/
  | copied (n : Nat)
  /-- The background writer took the next snapshot of its queue. -/
  | taken
  /-- An agent persisted the snapshot in its hand; `stale` where it was left out for its age. A
  caller returns with the result. -/
  | persisted (a : Agent) (stale : Bool) (result : Except StoreError Unit)
  /-- The background writer takes no more writes. -/
  | stopped

namespace Event

/-- The write by which the event updates the copy in memory. -/
def update? : Event → Option (String × Value)
  | applied key v (.ok _) => some (key, v)
  | updated _ key v => some (key, v)
  | _ => none

/-- Did the event replace the file? -/
def Replaces : Event → Prop
  | persisted _ false (.ok _) => True
  | _ => False

/-- An update of the copy in memory does not touch the file. -/
lemma not_replaces_of_update {e : Event} {u : String × Value} (h : e.update? = some u) :
    ¬ e.Replaces := by
  cases e with
  | persisted => cases h
  | applied | updated | copied | taken | stopped => exact id

end Event

/-- The writes that update the copy in memory, in turn. -/
def updates (es : List Event) : List (String × Value) := es.filterMap Event.update?

/-- What writing values to a file can come to: it succeeds or fails as the disk has it, or it fails
for any other reason and leaves the file as it was. -/
inductive Attempted (disk : Disk) (path : Path) (values : Table String Value) :
    Except StoreError Unit × Disk → Prop where
  | done : Attempted disk path values (PreferenceFile.write disk path values)
  | failed (e : StoreError) (disk' : Disk) (same : disk'.readText path = disk.readText path) :
    Attempted disk path values (.error e, disk')

/-- One step of one thread. -/
inductive Step : InUse → Event → InUse → Prop where
  | apply (w : InUse) (key : String) (v : Value) :
    Step w (.applied key v (w.store.enqueue key v).1)
      { w with store := (w.store.enqueue key v).2 }
  | update (w : InUse) (n : Nat) (key : String) (v : Value) (free : w.held (.caller n) = none) :
    Step w (.updated n key v)
      ({ w with store := w.store.update key v }.hand (.caller n) (w.store.nextSnapshot key v))
  | copy (w : InUse) (n : Nat) (free : w.held (.caller n) = none) :
    Step w (.copied n) (w.hand (.caller n) w.store.cache)
  | take (w : InUse) (snapshot : Snapshot) (rest : List Snapshot) (free : w.held .writer = none)
    (next : w.store.queue = snapshot :: rest) :
    Step w .taken
      ({ w with store := { w.store with queue := rest } }.hand .writer snapshot)
  | persist {w : InUse} {a : Agent} {snapshot : Snapshot} {written : Except StoreError Unit × Disk}
    {stale : Bool} {result : Except StoreError Unit} {store : FileStore} {disk : Disk}
    (inHand : w.held a = some snapshot)
    (attempted : Attempted w.disk w.store.path snapshot.values written)
    (age : decide (snapshot.generation < w.store.persisted) = stale)
    (out : w.store.persistAs w.disk snapshot written = (result, store, disk)) :
    Step w (.persisted a stale result) (InUse.hand ⟨store, disk, w.held⟩ a none)
  | stop (w : InUse) : Step w .stopped { w with store := { w.store with writing := false } }

/-- Steps one after another, with what was done. -/
inductive Run : InUse → List Event → InUse → Prop where
  | nil (w : InUse) : Run w [] w
  | cons {w w' w'' : InUse} {e : Event} {es : List Event} :
    Step w e w' → Run w' es w'' → Run w (e :: es) w''

/-- Runs one after another are a run. -/
lemma Run.append {w w' w'' : InUse} {es more : List Event} (run : Run w es w')
    (further : Run w' more w'') : Run w (es ++ more) w'' := by
  induction run with
  | nil => exact further
  | cons step _ ih => exact .cons step (ih further)

/-- A run with a trace in two parts passes between them. -/
lemma Run.split {w w'' : InUse} (es : List Event) {more : List Event}
    (run : Run w (es ++ more) w'') :
    ∃ w', Run w es w' ∧ Run w' more w'' := by
  induction es generalizing w with
  | nil => exact ⟨w, .nil w, run⟩
  | cons e es ih =>
    cases run with
    | cons step rest =>
      obtain ⟨w', first, second⟩ := ih rest
      exact ⟨w', .cons step first, second⟩

/-! ## What every step keeps -/

/-- The values after updates. -/
def valuesAfter (values : Table String Value) (us : List (String × Value)) : Table String Value :=
  us.foldl (fun t u => t.insert u.1 u.2) values

/-- A write more is a value more. -/
lemma valuesAfter_concat (values : Table String Value) (us : List (String × Value))
    (u : String × Value) :
    valuesAfter values (us ++ [u]) = (valuesAfter values us).insert u.1 u.2 := by
  rw [valuesAfter, List.foldl_append]
  rfl

/-- The snapshot has the values after as many of the updates as its generation says. -/
structure Faithful (values : Table String Value) (us : List (String × Value))
    (snapshot : Snapshot) : Prop where
  le : snapshot.generation ≤ us.length
  eq : snapshot.values = valuesAfter values (us.take snapshot.generation)

/-- Later updates do not concern a snapshot. -/
lemma Faithful.append {values : Table String Value} {us : List (String × Value)}
    {snapshot : Snapshot} (h : Faithful values us snapshot) (more : List (String × Value)) :
    Faithful values (us ++ more) snapshot := by
  refine ⟨?_, ?_⟩
  · rw [List.length_append]
    exact Nat.le_add_right_of_le h.le
  · rw [List.take_append_of_le_length h.le]
    exact h.eq

/-- What the steps of a trace have come to, for a store that was opened at a path with values. -/
structure Coherent (path : Path) (values : Table String Value) (es : List Event) (w : InUse) :
    Prop where
  place : w.store.path = path
  cache : w.store.cache = ⟨(updates es).length, valuesAfter values (updates es)⟩
  queue : ∀ snapshot ∈ w.store.queue, Faithful values (updates es) snapshot
  held : ∀ a snapshot, w.held a = some snapshot → Faithful values (updates es) snapshot
  persisted : w.store.persisted ≤ (updates es).length
  /-- The file is at a later generation than at the start only where it was replaced. -/
  replaced : 0 < w.store.persisted → ∃ e ∈ es, e.Replaces
  file : (∃ e ∈ es, e.Replaces) → w.disk.readText path =
    .ok (PreferenceFile.render (valuesAfter values ((updates es).take w.store.persisted)))

section Keeping

variable {path : Path} {values : Table String Value} {es : List Event} {w : InUse} {e : Event}

/-- A store that was just opened is coherent with what it was opened with. -/
lemma Coherent.start {disk : Disk} {store : FileStore}
    (opened : FileStore.openAt disk path = .ok store) :
    Coherent path store.cache.values [] (.start store disk) := by
  rw [FileStore.openAt] at opened
  cases loaded : PreferenceFile.load disk path with
  | error e =>
    rw [loaded] at opened
    cases opened
  | ok values =>
    rw [loaded] at opened
    cases opened
    constructor
    case place => rfl
    case cache => rfl
    case queue => exact fun _ queued => nomatch queued
    case held => simp [InUse.start]
    case persisted => exact Nat.le_refl 0
    case replaced => exact fun later => absurd later (Nat.lt_irrefl 0)
    case file => simp

/-- The copy in memory is a snapshot like any other. -/
lemma Coherent.faithful_cache (c : Coherent path values es w) :
    Faithful values (updates es) w.store.cache := by
  rw [c.cache]
  exact ⟨Nat.le_refl _, by rw [List.take_length]⟩

/-- No store has persisted more than it has written. -/
lemma Coherent.persisted_le (c : Coherent path values es w) :
    w.store.persisted ≤ w.store.cache.generation := by
  rw [c.cache]
  exact c.persisted

/-- No snapshot is newer than the copy in memory. -/
lemma Coherent.generation_le (c : Coherent path values es w) {snapshot : Snapshot}
    (known : Faithful values (updates es) snapshot) :
    snapshot.generation ≤ w.store.cache.generation := by
  rw [c.cache]
  exact known.le

/-- The updates of a trace go on with the trace. -/
lemma updates_append (es more : List Event) :
    updates (es ++ more) = updates es ++ updates more :=
  List.filterMap_append

/-- An event more is an update more, if it updates. -/
lemma updates_concat (es : List Event) (e : Event) :
    updates (es ++ [e]) = updates es ++ e.update?.toList := by
  cases h : e.update? <;> simp [updates, h]

/-- The file has been replaced in a trace, or by the event behind it. -/
lemma exists_replaces_concat :
    (∃ f ∈ es ++ [e], f.Replaces) ↔ (∃ f ∈ es, f.Replaces) ∨ e.Replaces := by
  simp [or_and_right, exists_or]

/-- An event without a trace in the store. -/
lemma Coherent.pass (c : Coherent path values es w) (still : e.update? = none)
    (kept : ¬ e.Replaces) : Coherent path values (es ++ [e]) w := by
  have same : updates (es ++ [e]) = updates es := by
    rw [updates_concat, still]
    exact List.append_nil _
  have quiet : (∃ f ∈ es ++ [e], f.Replaces) ↔ ∃ f ∈ es, f.Replaces := by
    rw [exists_replaces_concat, or_iff_left kept]
  constructor
  case place => exact c.place
  case cache => rw [same]; exact c.cache
  case queue => rw [same]; exact c.queue
  case held => rw [same]; exact c.held
  case persisted => rw [same]; exact c.persisted
  case replaced => rw [quiet]; exact c.replaced
  case file => rw [quiet, same]; exact c.file

/-- The copy in memory takes an update. -/
lemma Coherent.update {key : String} {v : Value} (c : Coherent path values es w)
    (update : e.update? = some (key, v)) :
    Coherent path values (es ++ [e]) { w with store := w.store.update key v } := by
  have more : updates (es ++ [e]) = updates es ++ [(key, v)] := by
    rw [updates_concat, update]
    rfl
  -- an update leaves the file alone
  have quiet : (∃ f ∈ es ++ [e], f.Replaces) ↔ ∃ f ∈ es, f.Replaces := by
    rw [exists_replaces_concat, or_iff_left (Event.not_replaces_of_update update)]
  constructor
  case place => exact c.place
  case cache =>
    rw [more, valuesAfter_concat, List.length_append]
    show (⟨w.store.cache.generation + 1, w.store.cache.values.insert key v⟩ : Snapshot) = _
    rw [c.cache]
    rfl
  case queue =>
    rw [more]
    exact fun snapshot queued => (c.queue snapshot queued).append _
  case held =>
    rw [more]
    exact fun a snapshot inHand => (c.held a snapshot inHand).append _
  case persisted =>
    rw [more, List.length_append]
    exact Nat.le_add_right_of_le c.persisted
  case replaced => rw [quiet]; exact c.replaced
  case file =>
    rw [quiet, more]
    intro replaced
    -- the snapshot in the file is of updates before this one
    have earlier : (updates es ++ [(key, v)]).take w.store.persisted =
        (updates es).take w.store.persisted := List.take_append_of_le_length c.persisted
    show w.disk.readText path = .ok (PreferenceFile.render
      (valuesAfter values ((updates es ++ [(key, v)]).take w.store.persisted)))
    rw [earlier]
    exact c.file replaced

/-- The queue loses snapshots or takes the latest one. -/
lemma Coherent.requeue (c : Coherent path values es w) {queue : List Snapshot}
    (known : ∀ snapshot ∈ queue, snapshot ∈ w.store.queue ∨ snapshot = w.store.cache) :
    Coherent path values es { w with store := { w.store with queue } } := by
  refine { c with queue := fun snapshot queued => ?_ }
  rcases known snapshot queued with old | rfl
  · exact c.queue snapshot old
  · exact c.faithful_cache

/-- An agent takes a snapshot in hand, or puts it away. -/
lemma Coherent.hand (c : Coherent path values es w) (a : Agent) {snapshot : Option Snapshot}
    (known : ∀ s, snapshot = some s → Faithful values (updates es) s) :
    Coherent path values es (w.hand a snapshot) := by
  refine { c with held := fun b s inHand => ?_ }
  rw [InUse.hand] at inHand
  dsimp only at inHand
  split at inHand
  · exact known s inHand
  · exact c.held b s inHand

/-- An agent that drops its snapshot leaves the store coherent. -/
lemma Coherent.release (c : Coherent path values es w) (a : Agent) :
    Coherent path values es (w.hand a none) :=
  c.hand a fun _ none => nomatch none

/-- What persisting a snapshot comes to: it is left out, it fails, or it replaces the file. -/
lemma persistAs_cases (s : FileStore) (disk : Disk) (snapshot : Snapshot)
    (written : Except StoreError Unit × Disk) :
    (snapshot.generation < s.persisted ∧
      s.persistAs disk snapshot written = (.ok (), s, disk)) ∨
    (s.persisted ≤ snapshot.generation ∧ ∃ error disk', written = (.error error, disk') ∧
      s.persistAs disk snapshot written = (.error error, s, disk')) ∨
    (s.persisted ≤ snapshot.generation ∧ ∃ disk', written = (.ok (), disk') ∧
      s.persistAs disk snapshot written =
        (.ok (), { s with persisted := snapshot.generation }, disk')) := by
  rw [FileStore.persistAs.eq_def]
  split
  next stale => exact .inl ⟨stale, rfl⟩
  next current =>
    have current := Nat.le_of_not_lt current
    obtain ⟨result, disk'⟩ := written
    cases result with
    | error error => exact .inr (.inl ⟨current, error, disk', rfl, rfl⟩)
    | ok => exact .inr (.inr ⟨current, disk', rfl, rfl⟩)

/-- A write that succeeded replaced the file. -/
lemma Attempted.readText_ok {disk disk' : Disk}
    (h : Attempted disk path values (.ok (), disk')) :
    disk'.readText path = .ok (PreferenceFile.render values) := by
  generalize written : (Except.ok (), disk') = out at h
  cases h with
  | failed => cases written
  | done =>
    rw [PreferenceFile.write] at written
    split at written
    · cases written
    next saved =>
      cases written
      exact PreferenceFile.readText_save saved

/-- A write that failed left the file as it was. -/
lemma Attempted.readText_error {disk disk' : Disk} {error : StoreError} {text : String}
    (h : Attempted disk path values (.error error, disk')) (read : disk.readText path = .ok text) :
    disk'.readText path = .ok text := by
  generalize written : (Except.error error, disk') = out at h
  cases h with
  | failed _ _ same =>
    cases written
    exact same.trans read
  | done => exact (PreferenceFile.grown_of_write written.symm).readText read

/-- The file is replaced by a snapshot that is not older. -/
lemma Coherent.persist {snapshot : Snapshot} {disk : Disk} (c : Coherent path values es w)
    (known : Faithful values (updates es) snapshot) (still : e.update? = none)
    (replaces : e.Replaces)
    (text : disk.readText path = .ok (PreferenceFile.render snapshot.values)) :
    Coherent path values (es ++ [e])
      ⟨{ w.store with persisted := snapshot.generation }, disk, w.held⟩ := by
  have same : updates (es ++ [e]) = updates es := by
    rw [updates_concat, still]
    exact List.append_nil _
  constructor
  case place => exact c.place
  case cache => rw [same]; exact c.cache
  case queue => rw [same]; exact c.queue
  case held => rw [same]; exact c.held
  case persisted => rw [same]; exact known.le
  case replaced => exact fun _ => exists_replaces_concat.2 (.inr replaces)
  case file =>
    intro _
    rw [same, text, known.eq]

/-- Every step keeps a store coherent with its trace. -/
lemma Coherent.step {w' : InUse} (c : Coherent path values es w) (step : Step w e w') :
    Coherent path values (es ++ [e]) w' := by
  cases step with
  | apply key v =>
    rw [FileStore.enqueue]
    split
    next =>
      -- the update comes first, and then the copy in memory is queued
      refine (c.update rfl).requeue fun snapshot queued => ?_
      exact (List.mem_append.1 queued).imp_right List.mem_singleton.1
    next => exact c.pass rfl id
  | update n key v free =>
    have c' : Coherent path values (es ++ [.updated n key v]) _ := c.update rfl
    refine c'.hand (.caller n) fun s taken => ?_
    cases taken
    exact c'.faithful_cache
  | copy n free =>
    refine (c.hand (.caller n) fun s taken => ?_).pass rfl id
    cases taken
    exact c.faithful_cache
  | take snapshot rest free next =>
    have shorter : Coherent path values es { w with store := { w.store with queue := rest } } :=
      c.requeue fun s queued => .inl (next ▸ List.mem_cons_of_mem _ queued)
    refine (shorter.hand .writer fun s taken => ?_).pass rfl id
    cases taken
    exact c.queue snapshot (next ▸ List.mem_cons_self)
  | @persist a snapshot written stale result store disk inHand attempted age out =>
    have known := c.held a snapshot inHand
    rw [c.place] at attempted
    rcases persistAs_cases w.store w.disk snapshot written with
      ⟨older, is⟩ | ⟨current, error, disk', rfl, is⟩ | ⟨current, disk', rfl, is⟩
    · -- a stale snapshot is dropped
      cases out.symm.trans is
      cases age.symm.trans (decide_eq_true older)
      exact (c.release a).pass rfl id
    · -- the snapshot is lost, but the file is as it was
      cases out.symm.trans is
      cases age.symm.trans (decide_eq_false (Nat.not_lt.2 current))
      have failed : Coherent path values es { w with disk } :=
        { c with file := fun replaced => attempted.readText_error (c.file replaced) }
      exact (failed.release a).pass rfl id
    · cases out.symm.trans is
      cases age.symm.trans (decide_eq_false (Nat.not_lt.2 current))
      have replaces : Event.Replaces (.persisted a false (.ok ())) := trivial
      exact (c.persist known rfl replaces attempted.readText_ok).release a
  | stop => exact Coherent.pass { c with } rfl id

/-- Every run keeps a store coherent with its trace. -/
lemma Coherent.run {w' : InUse} {more : List Event} (c : Coherent path values es w)
    (run : Run w more w') : Coherent path values (es ++ more) w' := by
  -- the trace so far grows at its end while the run is taken apart from its start
  induction run generalizing es with
  | nil => rwa [List.append_nil]
  | cons step _ ih =>
    rw [List.append_cons]
    exact ih (c.step step)

/-- What has been persisted stays so. -/
lemma Step.persisted_le {w' : InUse} (step : Step w e w') :
    w.store.persisted ≤ w'.store.persisted := by
  cases step with
  | apply key v =>
    rw [FileStore.enqueue]
    split <;> exact Nat.le_refl _
  | update | copy | take | stop => exact Nat.le_refl _
  | @persist a snapshot written stale result store disk inHand attempted age out =>
    rcases persistAs_cases w.store w.disk snapshot written with
      ⟨_, is⟩ | ⟨_, _, _, _, is⟩ | ⟨current, _, _, is⟩
    · cases out.symm.trans is
      exact Nat.le_refl _
    · cases out.symm.trans is
      exact Nat.le_refl _
    · cases out.symm.trans is
      exact current

/-- Along a run the file never goes back to an older generation. -/
lemma Run.persisted_le {w' : InUse} (run : Run w es w') :
    w.store.persisted ≤ w'.store.persisted := by
  induction run with
  | nil => exact Nat.le_refl _
  | cons step _ ih => exact Nat.le_trans step.persisted_le ih

end Keeping

/-- Whatever the threads do with a store that was opened at a path: the copy in memory is at each
point of the run the values after all updates so far; a snapshot of generation `g` that is queued or
in hand has the values after the first `g` updates; and once the file was replaced, it holds the
values after as many updates as the generation that counts as persisted, which is not above that of
the copy in memory and never goes down. -/
theorem file_holds_persisted_generation {disk : Disk} {path : Path} {store : FileStore}
    (opened : FileStore.openAt disk path = .ok store) {es : List Event} {w : InUse}
    (run : Run (.start store disk) es w) :
    let after (g : Nat) := valuesAfter store.cache.values ((updates es).take g)
    (∀ before rest w₀, es = before ++ rest → Run (.start store disk) before w₀ →
      w₀.store.cache = ⟨(updates before).length, after (updates before).length⟩) ∧
    (∀ snapshot, (snapshot ∈ w.store.queue ∨ ∃ a, w.held a = some snapshot) →
      snapshot.generation ≤ w.store.cache.generation ∧
        snapshot.values = after snapshot.generation) ∧
    w.store.persisted ≤ w.store.cache.generation ∧
    ((∃ e ∈ es, e.Replaces) →
      w.disk.readText path = .ok (PreferenceFile.render (after w.store.persisted))) ∧
    ∀ more w', Run w more w' → w.store.persisted ≤ w'.store.persisted := by
  intro after
  have c : Coherent path store.cache.values es w := (Coherent.start opened).run run
  refine ⟨?_, ?_, c.persisted_le, c.file, fun more w' further => further.persisted_le⟩
  · rintro before rest w₀ rfl earlier
    have c₀ : Coherent path store.cache.values before w₀ := (Coherent.start opened).run earlier
    have first : (updates (before ++ rest)).take (updates before).length = updates before := by
      rw [updates_append]
      exact List.take_left
    rw [c₀.cache]
    simp only [after, first]
  · rintro snapshot (queued | ⟨a, inHand⟩)
    · exact ⟨c.generation_le (c.queue snapshot queued), (c.queue snapshot queued).eq⟩
    · exact ⟨c.generation_le (c.held a snapshot inHand), (c.held a snapshot inHand).eq⟩

/-- A caller commits, but the writer is faster with a later write: the file has both. -/
theorem overtaken_commit_holds_both :
    ∃ store w, FileStore.openAt (.fresh []) ⟨true, ["prefs"], .name, []⟩ = .ok store ∧
      Run (.start store (.fresh [])) [.updated 0 "a" (.bool true),
        .applied "b" (.bool false) (.ok ()), .taken, .persisted .writer false (.ok ()),
        .persisted (.caller 0) true (.ok ())] w ∧
      w.disk.readText ⟨true, ["prefs"], .name, []⟩ = .ok (PreferenceFile.render
        ((Table.insert ∅ "a" (.bool true)).insert "b" (.bool false))) := by
  have run : ∃ w, Run (.start { path := ⟨true, ["prefs"], .name, []⟩, cache := ⟨0, ∅⟩ } (.fresh []))
      [.updated 0 "a" (.bool true), .applied "b" (.bool false) (.ok ()), .taken,
        .persisted .writer false (.ok ()), .persisted (.caller 0) true (.ok ())] w ∧
      w.store.persisted = 2 :=
    ⟨_, .cons (.update _ 0 "a" (.bool true) rfl) <| .cons (.apply _ "b" (.bool false)) <|
      .cons (.take _ _ _ rfl rfl) <| .cons (.persist rfl .done rfl rfl) <|
      .cons (.persist rfl .done rfl rfl) <| .nil _, rfl⟩
  obtain ⟨w, run, second⟩ := run
  have opened : FileStore.openAt (.fresh []) ⟨true, ["prefs"], .name, []⟩ = .ok _ := rfl
  have file := (file_holds_persisted_generation opened run).2.2.2.1
    ⟨.persisted .writer false (.ok ()), by simp, trivial⟩
  rw [second] at file
  exact ⟨_, w, rfl, run, file⟩

end Preferences.Interleaving
