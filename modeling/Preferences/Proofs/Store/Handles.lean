import Preferences.Proofs.Store.Durability

/-!
# Many stores in one file

Any number of stores are opened at one path, at any time, and each is used by many threads. Every
store has its own copy of the values and its own count of generations, and knows nothing of the
others: what it writes to the file is its copy as a whole. So a value that one store has committed
is lost when another, which was opened before, replaces the file. It is not lost to anything else:
a store that was opened since has the value, and so has every later snapshot of the store that
committed it. Main statement: `committed_value_survives_stores_opened_since`.
-/

namespace Preferences.Handles

open Interleaving

/-! ## Steps and runs -/

/-- A store that was opened, with the snapshots that its agents have in hand. One that is closed is
one that takes no more steps. -/
structure Handle where
  store : FileStore
  held : Agent → Option Snapshot

namespace Handle

/-- A store that was just opened. -/
def new (store : FileStore) : Handle := ⟨store, fun _ => none⟩

/-- A store as it is in use over a disk. -/
def on (h : Handle) (disk : Disk) : InUse := ⟨h.store, disk, h.held⟩

/-- A store as it is left by those that use it. -/
def off (u : InUse) : Handle := ⟨u.store, u.held⟩

end Handle

/-- A disk and the stores that were opened at one path of it, in the order of their opening. -/
structure Desk where
  disk : Disk
  handles : List Handle

/-- What was done: another store was opened, or a thread of one did something. -/
inductive Deed where
  | opened
  | acted (n : Nat) (e : Event)

namespace Deed

/-- What the deed is to a store. -/
def event? (n : Nat) : Deed → Option Event
  | acted m e => if m = n then some e else none
  | opened => none

/-- The write by which the deed updates the copy of some store. -/
def update? : Deed → Option (String × Value)
  | acted _ e => e.update?
  | opened => none

/-- The store that replaced the file. -/
def replacer? : Deed → Option Nat
  | acted n (.persisted _ false (.ok _)) => some n
  | _ => none

/-- Is another store opened? -/
def opens : Deed → Bool
  | opened => true
  | acted .. => false

/-- A store that replaces the file is the one that a deed tells of. -/
lemma replacer?_of_replaces {n : Nat} {e : Event} (h : e.Replaces) :
    (acted n e).replacer? = some n := by
  cases e with
  | persisted a stale result =>
    cases stale with
    | true => cases h
    | false =>
      cases result with
      | error => cases h
      | ok => rfl
  | applied | updated | copied | taken | stopped => cases h

end Deed

/-- The trace of one store. -/
def eventsOf (n : Nat) (ds : List Deed) : List Event := ds.filterMap (Deed.event? n)

/-- One step of one thread of one store, or the opening of another store. -/
inductive Step (path : Path) : Desk → Deed → Desk → Prop where
  | opens {w : Desk} {store : FileStore} (opened : FileStore.openAt w.disk path = .ok store) :
    Step path w .opened { w with handles := w.handles ++ [.new store] }
  | acts {w : Desk} {n : Nat} {h : Handle} {e : Event} {u : InUse}
    (known : w.handles[n]? = some h) (step : Interleaving.Step (h.on w.disk) e u) :
    Step path w (.acted n e) ⟨u.disk, w.handles.set n (.off u)⟩

/-- Steps one after another, with what was done. -/
inductive Run (path : Path) : Desk → List Deed → Desk → Prop where
  | nil (w : Desk) : Run path w [] w
  | cons {w w' w'' : Desk} {d : Deed} {ds : List Deed} :
    Step path w d w' → Run path w' ds w'' → Run path w (d :: ds) w''

variable {path : Path} {w w' w'' : Desk} {d : Deed} {ds more : List Deed} {n : Nat} {h : Handle}
  {e : Event} {u : InUse} {key : String} {v : Value}

/-- Runs one after another are a run. -/
lemma Run.append (run : Run path w ds w') (further : Run path w' more w'') :
    Run path w (ds ++ more) w'' := by
  induction run with
  | nil => exact further
  | cons step _ ih => exact .cons step (ih further)

/-- A run of deeds in two parts is a run of each. -/
lemma Run.split (ds : List Deed) (run : Run path w (ds ++ more) w'') :
    ∃ w', Run path w ds w' ∧ Run path w' more w'' := by
  induction ds generalizing w with
  | nil => exact ⟨w, .nil w, run⟩
  | cons d ds ih =>
    cases run with
    | cons step rest =>
      obtain ⟨w', first, second⟩ := ih rest
      exact ⟨w', .cons step first, second⟩

/-- A step of a store changes this store and no other. -/
lemma getElem?_set_off (known : w.handles[n]? = some h) (m : Nat) :
    (w.handles.set n (.off u))[m]? = if m = n then some (.off u) else w.handles[m]? := by
  obtain ⟨bound, -⟩ := List.getElem?_eq_some_iff.1 known
  rw [List.getElem?_set]
  by_cases same : m = n
  · rw [if_pos same.symm, if_pos bound, if_pos same]
  · rw [if_neg (Ne.symm same), if_neg same]

/-- After an opening, a store is one from before or the new one, which is the last. -/
lemma getElem?_opened {handles : List Handle} {new : Handle} {m : Nat}
    (known : (handles ++ [new])[m]? = some h) :
    handles[m]? = some h ∨ handles.length ≤ m ∧ h = new := by
  rw [List.getElem?_append] at known
  split at known
  next => exact .inl known
  next above =>
    rw [List.getElem?_singleton] at known
    split at known
    · cases known
      exact .inr ⟨Nat.le_of_not_lt above, rfl⟩
    · cases known

/-! ## What a step does to the file -/

/-- A step leaves the file to the others, and could be taken over any other disk, or it replaces the
file by a snapshot that is not older than the last one of its store. -/
lemma step_cases {w w' : InUse} (step : Interleaving.Step w e w') :
    (¬ e.Replaces ∧ w'.store.persisted = w.store.persisted ∧
      (∀ text, w.disk.readText w.store.path = .ok text →
        w'.disk.readText w.store.path = .ok text) ∧
      ∀ disk, Interleaving.Step { w with disk } e { w' with disk }) ∨
    (e.Replaces ∧ e.update? = none ∧ ∃ a snapshot, w.held a = some snapshot ∧
      w.store.persisted ≤ snapshot.generation ∧
      w'.disk.readText w.store.path = .ok (PreferenceFile.render snapshot.values) ∧
      w' = InUse.hand ⟨{ w.store with persisted := snapshot.generation }, w'.disk, w.held⟩
        a none) := by
  cases step with
  | apply key v =>
    refine .inl ⟨id, ?_, fun _ => id, fun disk => .apply { w with disk } key v⟩
    rw [FileStore.enqueue]
    split <;> rfl
  | update n key v free =>
    exact .inl ⟨id, rfl, fun _ => id, fun disk => .update { w with disk } n key v free⟩
  | copy n free => exact .inl ⟨id, rfl, fun _ => id, fun disk => .copy { w with disk } n free⟩
  | take snapshot rest free next =>
    exact .inl ⟨id, rfl, fun _ => id, fun disk => .take { w with disk } snapshot rest free next⟩
  | stop => exact .inl ⟨id, rfl, fun _ => id, fun disk => .stop { w with disk }⟩
  | @persist a snapshot written stale result store disk inHand attempted age out =>
    -- passed over, refused by the disk, or written
    rcases persistAs_cases w.store w.disk snapshot written with
      ⟨older, is⟩ | ⟨current, error, disk', rfl, is⟩ | ⟨current, disk', rfl, is⟩
    · cases out.symm.trans is
      cases age.symm.trans (decide_eq_true older)
      refine .inl ⟨id, rfl, fun _ => id, fun disk => ?_⟩
      refine .persist (w := { w with disk }) inHand .done (decide_eq_true older) ?_
      rw [FileStore.persistAs.eq_def, if_pos older]
      rfl
    · cases out.symm.trans is
      cases age.symm.trans (decide_eq_false (Nat.not_lt.2 current))
      refine .inl ⟨id, rfl, fun _ => attempted.readText_error, fun disk => ?_⟩
      refine .persist (w := { w with disk }) inHand (.failed error disk rfl)
        (decide_eq_false (Nat.not_lt.2 current)) ?_
      rw [FileStore.persistAs.eq_def, if_neg (Nat.not_lt.2 current)]
      rfl
    · cases out.symm.trans is
      cases age.symm.trans (decide_eq_false (Nat.not_lt.2 current))
      exact .inr ⟨trivial, rfl, a, snapshot, inHand, current, attempted.readText_ok, rfl⟩

/-! ## What every store keeps for itself -/

/-- Over whatever disk a store was coherent with its own trace, it is so after its next step: over
the same disk, or over the one on which the step has replaced the file. The steps of other stores
in between do not matter to it. -/
lemma coherent_step {values : Table String Value} {es : List Event} {own disk : Disk}
    (c : Coherent path values es (h.on own)) (step : Interleaving.Step (h.on disk) e u) :
    ∃ own', Coherent path values (es ++ [e]) ((Handle.off u).on own') ∧
      (e.Replaces → own' = u.disk) := by
  rcases step_cases step with
    ⟨kept, -, -, anywhere⟩ | ⟨replaces, still, a, snapshot, inHand, -, text, is⟩
  · exact ⟨own, c.step (anywhere own), fun replaces => absurd replaces kept⟩
  · have known := c.held a snapshot inHand
    have place : (h.on disk).store.path = path := c.place
    rw [place] at text
    rw [is]
    exact ⟨u.disk, (c.persist known still replaces text).release a, fun _ => rfl⟩

/-- Every store that was opened has been coherent with its own trace, whatever the others did. -/
structure Told (path : Path) (ds : List Deed) (w : Desk) : Prop where
  unused : ∀ n, w.handles.length ≤ n → eventsOf n ds = []
  coherent : ∀ n h, w.handles[n]? = some h → ∃ values own,
    Coherent path values (eventsOf n ds) (h.on own)

/-- The trace of a store goes on with the deeds. -/
lemma eventsOf_append (n : Nat) (ds more : List Deed) :
    eventsOf n (ds ++ more) = eventsOf n ds ++ eventsOf n more :=
  List.filterMap_append

/-- What a store did is in its trace. -/
lemma eventsOf_acted_self (n : Nat) (e : Event) : eventsOf n [.acted n e] = [e] := by
  simp [eventsOf, Deed.event?]

/-- What another store did is not. -/
lemma eventsOf_acted_of_ne {m : Nat} (other : m ≠ n) : eventsOf m [.acted n e] = [] := by
  simp [eventsOf, Deed.event?, Ne.symm other]

/-- What no deed writes, no store writes. -/
lemma not_written (fresh : ∀ d ∈ ds, ∀ x, d.update? ≠ some (key, x)) (x : Value) :
    (key, x) ∉ updates (eventsOf n ds) := by
  intro written
  obtain ⟨e, known, update⟩ := List.mem_filterMap.1 written
  obtain ⟨d, among, is⟩ := List.mem_filterMap.1 known
  cases d with
  | opened => cases is
  | acted m f =>
    rw [Deed.event?] at is
    split at is
    · cases is
      exact fresh _ among x update
    · cases is

/-- Before any store is opened there is nothing to tell. -/
lemma Told.start (disk : Disk) : Told path [] ⟨disk, []⟩ := by
  refine ⟨fun _ _ => rfl, fun n h known => ?_⟩
  cases known

/-- After a step every store is coherent with its trace. -/
lemma Told.step (told : Told path ds w) (step : Step path w d w') : Told path (ds ++ [d]) w' := by
  cases step with
  | @opens store opened =>
    have still (m : Nat) : eventsOf m (ds ++ [.opened]) = eventsOf m ds := by
      rw [eventsOf_append]
      exact List.append_nil _
    refine ⟨fun m above => ?_, fun m h known => ?_⟩
    · rw [List.length_append] at above
      rw [still, told.unused m (Nat.le_of_add_right_le above)]
    · rw [still]
      rcases getElem?_opened known with old | ⟨above, rfl⟩
      · exact told.coherent m h old
      -- a store that has just been opened has taken no step yet
      · rw [told.unused m above]
        exact ⟨_, w.disk, Coherent.start opened⟩
  | @acts n h e u known step =>
    refine ⟨fun m above => ?_, fun m h' known' => ?_⟩
    · rw [List.length_set] at above
      have other : m ≠ n := by
        rintro rfl
        rw [List.getElem?_eq_none above] at known
        cases known
      rw [eventsOf_append, eventsOf_acted_of_ne other, told.unused m above]
      rfl
    · rw [getElem?_set_off known] at known'
      split at known'
      next same =>
        subst same
        cases known'
        obtain ⟨values, own, c⟩ := told.coherent m h known
        obtain ⟨own', c', -⟩ := coherent_step c step
        rw [eventsOf_append, eventsOf_acted_self]
        exact ⟨values, own', c'⟩
      next other =>
        rw [eventsOf_append, eventsOf_acted_of_ne other, List.append_nil]
        exact told.coherent m h' known'

/-- After a run too. -/
lemma Told.run (told : Told path ds w) (run : Run path w more w') :
    Told path (ds ++ more) w' := by
  induction run generalizing ds with
  | nil => rwa [List.append_nil]
  | cons step _ ih =>
    rw [List.append_cons]
    exact ih (told.step step)

/-! ## When a commit comes to the file -/

/-- To a store, a step is its own or does not concern it. -/
lemma Step.handle (step : Step path w d w') (known : w.handles[n]? = some h) :
    (w'.handles[n]? = some h ∧ eventsOf n [d] = []) ∨ ∃ e u, d = .acted n e ∧
      Interleaving.Step (h.on w.disk) e u ∧ w' = ⟨u.disk, w.handles.set n (.off u)⟩ := by
  cases step with
  | opens opened =>
    obtain ⟨bound, -⟩ := List.getElem?_eq_some_iff.1 known
    refine .inl ⟨?_, rfl⟩
    rw [List.getElem?_append_left bound]
    exact known
  | @acts m h' e u known' step =>
    by_cases same : n = m
    · subst same
      cases known.symm.trans known'
      exact .inr ⟨e, u, rfl, step, rfl⟩
    · refine .inl ⟨?_, eventsOf_acted_of_ne same⟩
      rw [getElem?_set_off known', if_neg same]
      exact known

/-- In the run a store replaces the file by a snapshot of the generation or a later one: what was
done up to then, and since. -/
def ReplacedIn (path : Path) (n generation : Nat) (w : Desk) (ds : List Deed) (w' : Desk) : Prop :=
  ∃ first e since w₁ h u, ds = first ++ .acted n e :: since ∧ Run path w first w₁ ∧
    w₁.handles[n]? = some h ∧ Interleaving.Step (h.on w₁.disk) e u ∧ e.Replaces ∧
    generation ≤ u.store.persisted ∧ Run path ⟨u.disk, w₁.handles.set n (.off u)⟩ since w'

/-- What is replaced later in a run is replaced in it. -/
lemma ReplacedIn.cons {g : Nat} (step : Step path w d w') (later : ReplacedIn path n g w' ds w'') :
    ReplacedIn path n g w (d :: ds) w'' := by
  obtain ⟨first, e, since, w₁, h, u, rfl, run, facts⟩ := later
  exact ⟨d :: first, e, since, w₁, h, u, rfl, .cons step run, facts⟩

/-- Before an agent of a store returns without a failure from a snapshot that the file does not
have, the store replaces the file by this snapshot or a later one. -/
lemma Run.replacedIn {a : Agent} {snapshot : Snapshot} (run : Run path w ds w')
    (known : w.handles[n]? = some h) (inHand : h.held a = some snapshot)
    (behind : h.store.persisted < snapshot.generation)
    (returned : (eventsOf n ds).findSome? (Event.result? a) = some (.ok ())) :
    ReplacedIn path n snapshot.generation w ds w' := by
  induction run generalizing h with
  | nil => cases returned
  | @cons w₁ w₂ w₃ d ds step rest ih =>
    have parts : eventsOf n (d :: ds) = eventsOf n [d] ++ eventsOf n ds := eventsOf_append n [d] ds
    rw [parts] at returned
    rcases step.handle known with ⟨known', quiet⟩ | ⟨e, u, rfl, own, rfl⟩
    · rw [quiet] at returned
      exact .cons step (ih known' inHand behind returned)
    · by_cases reached : snapshot.generation ≤ u.store.persisted
      · have replaces : e.Replaces := by
          rcases step_cases own with ⟨-, same, -⟩ | ⟨replaces, -⟩
          · rw [same] at reached
            exact absurd behind (Nat.not_lt.2 reached)
          · exact replaces
        exact ⟨[], e, ds, w₁, h, u, rfl, .nil w₁, known, own, replaces, reached, rest⟩
      · -- the agent has not returned without a failure, for then the file would have the snapshot
        rw [eventsOf_acted_self, List.singleton_append, List.findSome?_cons] at returned
        split at returned
        next result now =>
          cases returned
          exact absurd (own.persisted_of_result inHand now) reached
        next busy =>
          refine .cons step (ih (h := .off u) ?_ (own.held inHand busy) (Nat.lt_of_not_le reached)
            returned)
          rw [getElem?_set_off known, if_pos rfl]

/-- A commit that returns without a failure has come to the file. -/
lemma Told.replacedIn {c : Nat} (told : Told path more w)
    (step : Step path w (.acted n (.updated c key v)) w') (run : Run path w' ds w'')
    (returned : (eventsOf n ds).findSome? (Event.result? (.caller c)) = some (.ok ())) :
    ReplacedIn path n ((updates (eventsOf n more)).length + 1) w' ds w'' := by
  cases step with
  | @acts _ h _ _ known own =>
    cases own with
    | update _ _ _ free =>
      obtain ⟨values, disk, coherent⟩ := told.coherent n h known
      let u := InUse.hand ⟨h.store.update key v, w.disk, h.held⟩ (.caller c)
        (h.store.nextSnapshot key v)
      have generation : (h.store.nextSnapshot key v).generation =
          (updates (eventsOf n more)).length + 1 := congrArg (·.generation + 1) coherent.cache
      have behind : h.store.persisted < (h.store.nextSnapshot key v).generation := by
        rw [generation]
        exact Nat.lt_succ_of_le coherent.persisted
      have known' : (w.handles.set n (.off u))[n]? = some (.off u) := by
        rw [getElem?_set_off known, if_pos rfl]
      have inHand : (Handle.off u).held (.caller c) = some (h.store.nextSnapshot key v) := by
        show u.held _ = _
        rw [InUse.held_hand, if_pos rfl]
      rw [← generation]
      exact run.replacedIn known' inHand behind returned

/-! ## What keeps a value in the file -/

/-- Whatever the store may yet write to the file has the value under the key. -/
structure Carries (key : String) (v : Value) (h : Handle) : Prop where
  cache : h.store.cache.values.get? key = some v
  queue : ∀ snapshot ∈ h.store.queue, h.store.persisted ≤ snapshot.generation →
    snapshot.values.get? key = some v
  held : ∀ a snapshot, h.held a = some snapshot → h.store.persisted ≤ snapshot.generation →
    snapshot.values.get? key = some v

/-- A snapshot that is not older than a write, which was not written over, has its value. -/
lemma get?_of_faithful {values : Table String Value} {us later : List (String × Value)}
    {snapshot : Snapshot} (known : Faithful values (us ++ (key, v) :: later) snapshot)
    (fresh : ∀ x, (key, x) ∉ later) (reached : us.length < snapshot.generation) :
    snapshot.values.get? key = some v := by
  obtain ⟨g, is⟩ : ∃ g, snapshot.generation = us.length + (g + 1) := by
    obtain ⟨g, is⟩ := Nat.exists_eq_add_of_lt reached
    exact ⟨g, by rw [is, Nat.add_assoc]⟩
  obtain ⟨x, found, rfl | written⟩ := get?_valuesAfter values us (later.take g) key v
  · rw [known.eq, is, List.take_length_add_append, List.take_succ_cons]
    exact found
  · exact absurd (List.mem_of_mem_take written) (fresh x)

/-- A store whose write was written to the file, and not written over, carries its value. -/
lemma Carries.of_coherent {values : Table String Value} {es later : List Event} {write : Event}
    {own : Disk} (c : Coherent path values (es ++ write :: later) (h.on own))
    (update : write.update? = some (key, v)) (fresh : ∀ x, (key, x) ∉ updates later)
    (reached : (updates es).length < h.store.persisted) : Carries key v h := by
  have trace : updates (es ++ write :: later) = updates es ++ (key, v) :: updates later := by
    rw [updates_append, updates_cons update]
  have latest : h.store.persisted ≤ h.store.cache.generation := c.persisted_le
  have cache := c.faithful_cache
  have queue := c.queue
  have held := c.held
  rw [trace] at cache queue held
  refine ⟨?_, fun snapshot queued current => ?_, fun a snapshot inHand current => ?_⟩
  · exact get?_of_faithful cache fresh (Nat.lt_of_lt_of_le reached latest)
  · exact get?_of_faithful (queue snapshot queued) fresh (Nat.lt_of_lt_of_le reached current)
  · exact get?_of_faithful (held a snapshot inHand) fresh (Nat.lt_of_lt_of_le reached current)

/-- A store carries what it has found in the file. -/
lemma Carries.new {values : Table String Value} (found : values.get? key = some v) :
    Carries key v (.new ⟨path, ⟨0, values⟩, 0, [], true⟩) := by
  refine ⟨found, fun _ queued => ?_, fun _ _ inHand => ?_⟩
  · cases queued
  · cases inHand

/-- A write of another key leaves the value in the next snapshot. -/
lemma Carries.nextSnapshot (c : Carries key v h) {k : String} (other : k ≠ key) (x : Value) :
    (h.store.nextSnapshot k x).values.get? key = some v := by
  rw [FileStore.nextSnapshot, Table.get?_insert_of_ne _ _ (Ne.symm other)]
  exact c.cache

/-- While one agent takes a snapshot with the value in hand, or puts one away, the others have what
they had, of which no more counts than before. -/
lemma Carries.hand {store : FileStore} {disk : Disk} {b : Agent} {taken : Option Snapshot}
    (c : Carries key v h) (persisted : h.store.persisted ≤ store.persisted)
    (has : ∀ snapshot, taken = some snapshot → store.persisted ≤ snapshot.generation →
      snapshot.values.get? key = some v) (a : Agent) (snapshot : Snapshot)
    (inHand : (InUse.hand ⟨store, disk, h.held⟩ b taken).held a = some snapshot)
    (current : store.persisted ≤ snapshot.generation) :
    snapshot.values.get? key = some v := by
  rw [InUse.held_hand] at inHand
  split at inHand
  · exact has snapshot inHand current
  · exact c.held a snapshot inHand (Nat.le_trans persisted current)

/-- An agent that is done with a snapshot has none in hand that could lack the value. -/
lemma Carries.release {store : FileStore} {disk : Disk} (c : Carries key v h) (b : Agent)
    (persisted : h.store.persisted ≤ store.persisted) (a : Agent) (snapshot : Snapshot)
    (inHand : (InUse.hand ⟨store, disk, h.held⟩ b none).held a = some snapshot)
    (current : store.persisted ≤ snapshot.generation) :
    snapshot.values.get? key = some v := by
  refine c.hand persisted (fun _ nothing => ?_) a snapshot inHand current
  cases nothing

/-- A store goes on to carry a value as long as nothing is written over it. -/
lemma Carries.step {disk : Disk} (c : Carries key v h) (step : Interleaving.Step (h.on disk) e u)
    (fresh : ∀ x, e.update? ≠ some (key, x)) : Carries key v (.off u) := by
  cases step with
  | apply k x =>
    rw [FileStore.enqueue] at fresh ⊢
    split at fresh
    next writing =>
      have other : k ≠ key := fun same => fresh x (by rw [← same]; rfl)
      rw [if_pos writing]
      refine ⟨c.nextSnapshot other x, fun snapshot queued current => ?_, c.held⟩
      rcases List.mem_append.1 queued with old | new
      · exact c.queue snapshot old current
      · rw [List.mem_singleton.1 new]
        exact c.nextSnapshot other x
    next stopped =>
      rw [if_neg stopped]
      exact ⟨c.cache, c.queue, c.held⟩
  | update m k x free =>
    have other : k ≠ key := fun same => fresh x (by rw [← same]; rfl)
    refine ⟨c.nextSnapshot other x, c.queue, c.hand (Nat.le_refl _) fun snapshot taken _ => ?_⟩
    cases taken
    exact c.nextSnapshot other x
  | copy m free =>
    refine ⟨c.cache, c.queue, c.hand (Nat.le_refl _) fun snapshot taken _ => ?_⟩
    cases taken
    exact c.cache
  | take first rest free is =>
    have among (snapshot : Snapshot) (queued : snapshot ∈ first :: rest) :
        snapshot ∈ h.store.queue := by
      have is : h.store.queue = first :: rest := is
      rw [is]
      exact queued
    refine ⟨c.cache, fun snapshot queued => c.queue snapshot (among snapshot (.tail _ queued)),
      c.hand (Nat.le_refl _) fun snapshot taken => ?_⟩
    cases taken
    exact c.queue first (among first (.head _))
  | @persist a snapshot written stale result store disk' inHand attempted age out =>
    rcases persistAs_cases h.store disk snapshot written with
      ⟨_, is⟩ | ⟨_, _, _, _, is⟩ | ⟨current, _, _, is⟩
    · cases out.symm.trans is
      exact ⟨c.cache, c.queue, c.release a (Nat.le_refl _)⟩
    · cases out.symm.trans is
      exact ⟨c.cache, c.queue, c.release a (Nat.le_refl _)⟩
    · -- what is now too old to be written no longer counts
      cases out.symm.trans is
      refine ⟨c.cache, fun snapshot queued later => ?_, c.release a current⟩
      exact c.queue snapshot queued (Nat.le_trans current later)
  | stop => exact ⟨c.cache, c.queue, c.held⟩

/-- The file has the value under the key, and so has whatever one store, or one that was opened
after the first few, may yet write to it. -/
structure Kept (path : Path) (key : String) (v : Value) (n opened : Nat) (w : Desk) : Prop where
  file : ∃ values, w.disk.readText path = .ok (PreferenceFile.render values) ∧
    values.get? key = some v
  place : ∀ (m : Nat) (h : Handle), w.handles[m]? = some h → h.store.path = path
  carries : ∀ (m : Nat) h, w.handles[m]? = some h → m = n ∨ opened ≤ m → Carries key v h

/-- No step moves a store to another path. -/
lemma step_path {w w' : InUse} (step : Interleaving.Step w e w') :
    w'.store.path = w.store.path := by
  cases step with
  | apply key v =>
    rw [FileStore.enqueue]
    split <;> rfl
  | update | copy | take | stop => rfl
  | @persist a snapshot written stale result store disk inHand attempted age out =>
    rcases persistAs_cases w.store w.disk snapshot written with
      ⟨_, is⟩ | ⟨_, _, _, _, is⟩ | ⟨_, _, _, is⟩
    · cases out.symm.trans is
      rfl
    · cases out.symm.trans is
      rfl
    · cases out.symm.trans is
      rfl

/-- A step keeps the value in the file unless it writes over it, or replaces the file from a store
that need not have the value. -/
lemma Kept.step {opened : Nat} (k : Kept path key v n opened w) (step : Step path w d w')
    (fresh : ∀ x, d.update? ≠ some (key, x))
    (recent : ∀ m, d.replacer? = some m → m = n ∨ opened ≤ m) : Kept path key v n opened w' := by
  obtain ⟨values, text, found⟩ := k.file
  cases step with
  | @opens store isOpened =>
    rw [FileStore.openAt, PreferenceFile.load_of_readText text] at isOpened
    cases isOpened
    -- the new store reads the file, so it has the value from its opening on
    refine ⟨⟨values, text, found⟩, fun m h known => ?_, fun m h known which => ?_⟩
    · rcases getElem?_opened known with old | ⟨-, rfl⟩
      · exact k.place m h old
      · rfl
    · rcases getElem?_opened known with old | ⟨-, rfl⟩
      · exact k.carries m h old which
      · exact .new found
  | @acts m h e u known own =>
    have place : (h.on w.disk).store.path = path := k.place m h known
    constructor
    case file =>
      rcases step_cases own with
        ⟨-, -, same, -⟩ | ⟨replaces, -, a, snapshot, inHand, current, now, -⟩
      · rw [place] at same
        exact ⟨values, same _ text, found⟩
      · rw [place] at now
        have which := recent m (Deed.replacer?_of_replaces replaces)
        exact ⟨snapshot.values, now, (k.carries m h known which).held a snapshot inHand current⟩
    case place =>
      intro j h' known'
      rw [getElem?_set_off known] at known'
      split at known'
      · cases known'
        exact (step_path own).trans place
      · exact k.place j h' known'
    case carries =>
      intro j h' known' which
      rw [getElem?_set_off known] at known'
      split at known'
      next same =>
        subst same
        cases known'
        exact (k.carries j h known which).step own fresh
      next => exact k.carries j h' known' which

/-- A run keeps the value in the file unless it writes over it, or replaces the file from a store
that may be older. -/
lemma Kept.run {opened : Nat} (k : Kept path key v n opened w) (run : Run path w ds w')
    (fresh : ∀ d ∈ ds, ∀ x, d.update? ≠ some (key, x))
    (recent : ∀ d ∈ ds, ∀ m, d.replacer? = some m → m = n ∨ opened ≤ m) :
    Kept path key v n opened w' := by
  induction run with
  | nil => exact k
  | @cons _ _ _ d ds step _ ih =>
    refine ih (k.step step (fresh d (.head _)) (recent d (.head _))) ?_ ?_
    · exact fun d' known => fresh d' (.tail _ known)
    · exact fun d' known => recent d' (.tail _ known)

/-- How many stores are opened. -/
def openings (ds : List Deed) : Nat := ds.countP Deed.opens

/-- Every opening adds a store. -/
lemma Run.length_handles (run : Run path w ds w') :
    w'.handles.length = w.handles.length + openings ds := by
  induction run with
  | nil => rfl
  | @cons w₁ w₂ w₃ d ds step _ ih =>
    rw [ih, openings, openings, List.countP_cons]
    cases step with
    | opens =>
      rw [List.length_append, List.length_singleton, Nat.add_right_comm]
      rfl
    | acts =>
      rw [List.length_set]
      rfl

/-- When a store has replaced the file by a write that was not written over, the value is there to
stay. -/
lemma Told.kept {before first : List Deed} {write : Event} (told : Told path
      (before ++ .acted n write :: first) w) (known : w.handles[n]? = some h)
    (step : Interleaving.Step (h.on w.disk) e u) (update : write.update? = some (key, v))
    (fresh : ∀ d ∈ first ++ [.acted n e], ∀ x, d.update? ≠ some (key, x)) (replaces : e.Replaces)
    (reached : (updates (eventsOf n before)).length < u.store.persisted) :
    Kept path key v n w.handles.length ⟨u.disk, w.handles.set n (.off u)⟩ := by
  obtain ⟨values, own, c⟩ := told.coherent n h known
  obtain ⟨own', c', is⟩ := coherent_step c step
  cases is replaces
  have trace : eventsOf n (before ++ .acted n write :: first) ++ [e] =
      eventsOf n before ++ write :: eventsOf n (first ++ [.acted n e]) := by
    rw [eventsOf_append, eventsOf_append, eventsOf_acted_self, List.append_assoc]
    simp [eventsOf, Deed.event?]
  rw [trace] at c'
  have fresh : ∀ x, (key, x) ∉ updates (eventsOf n (first ++ [.acted n e])) := not_written fresh
  have carries : Carries key v (.off u) := .of_coherent c' update fresh reached
  constructor
  case file =>
    have text := c'.file (c'.replaced (Nat.zero_lt_of_lt reached))
    -- what is on disk is a snapshot like any other
    have known : Faithful values (updates _) ⟨u.store.persisted,
      valuesAfter values ((updates _).take u.store.persisted)⟩ := ⟨c'.persisted, rfl⟩
    rw [updates_append, updates_cons update] at text known
    exact ⟨_, text, get?_of_faithful known fresh reached⟩
  case place =>
    intro m h' known'
    rw [getElem?_set_off known] at known'
    split at known'
    · cases known'
      exact c'.place
    · obtain ⟨_, _, other⟩ := told.coherent m h' known'
      exact other.place
  case carries =>
    intro m h' known' which
    rw [getElem?_set_off known] at known'
    split at known'
    · cases known'
      exact carries
    next other =>
      obtain ⟨bound, -⟩ := List.getElem?_eq_some_iff.1 known'
      exact absurd bound (Nat.not_lt.2 (which.resolve_left other))

/-- A store replaces the file by a snapshot that has its update of this number, or by one that has
overtaken it. -/
structure Reaches (path : Path) (n generation : Nat) (w : Desk) (e : Event) (w' : Desk) : Prop where
  step : Step path w (.acted n e) w'
  replaces : e.Replaces
  current : ∃ h, w'.handles[n]? = some h ∧ generation ≤ h.store.persisted

/-- Before a commit of a store returns without a failure, that store replaces the file by a snapshot
that has the commit. From then on the file has its value, unless the key is written again or a store
that was opened before replaces the file: a store that is opened at any later time has the value
under the key. -/
theorem committed_value_survives_stores_opened_since {disk : Disk} {before after : List Deed}
    {c : Nat} (run : Run path ⟨disk, []⟩ (before ++ .acted n (.updated c key v) :: after) w)
    (returned : (eventsOf n after).findSome? (Event.result? (.caller c)) = some (.ok ())) :
    ∃ first e since w₁ w₂, after = first ++ .acted n e :: since ∧
      Run path ⟨disk, []⟩ (before ++ .acted n (.updated c key v) :: first) w₁ ∧
      Reaches path n ((updates (eventsOf n before)).length + 1) w₁ e w₂ ∧
      Run path w₂ since w ∧ ∀ more w', Run path w more w' →
        (∀ d ∈ after ++ more, ∀ x, d.update? ≠ some (key, x)) →
        (∀ d ∈ since ++ more, ∀ m, d.replacer? = some m →
          m = n ∨ openings (before ++ first) ≤ m) →
        ∃ reopened, FileStore.openAt w'.disk path = .ok reopened ∧
          Store.read (⟨reopened, w'.disk⟩ : Mounted) key = .ok (some v) := by
  obtain ⟨w₀, start, rest⟩ := Run.split before run
  have told : Told path before w₀ := (Told.start disk).run start
  cases rest with
  | cons step rest =>
    obtain ⟨first, e, since, w₁, h, u, rfl, till, known, own, replaces, reached, rest⟩ :=
      told.replacedIn step rest returned
    have whole : Run path ⟨disk, []⟩ (before ++ .acted n (.updated c key v) :: first) w₁ :=
      start.append (.cons step till)
    have reaches : Reaches path n ((updates (eventsOf n before)).length + 1) w₁ e
        ⟨u.disk, w₁.handles.set n (.off u)⟩ := by
      refine ⟨.acts known own, replaces, .off u, ?_, reached⟩
      rw [getElem?_set_off known, if_pos rfl]
    refine ⟨first, e, since, w₁, _, rfl, whole, reaches, rest, ?_⟩
    intro more w' further fresh recent
    have told₁ : Told path (before ++ .acted n (.updated c key v) :: first) w₁ :=
      told.run (.cons step till)
    have kept : Kept path key v n w₁.handles.length ⟨u.disk, w₁.handles.set n (.off u)⟩ := by
      refine told₁.kept known own rfl (fun d among => fresh d ?_) replaces reached
      rw [List.append_cons, List.append_assoc]
      exact List.mem_append_left _ among
    have opened : w₁.handles.length = openings (before ++ first) := by
      rw [whole.length_handles]
      simp [openings, Deed.opens]
    rw [opened] at kept
    obtain ⟨values, text, found⟩ := (kept.run (rest.append further) (fun d among => fresh d (by
      rw [List.append_assoc]
      exact List.mem_append_right _ (.tail _ among))) recent).file
    refine ⟨⟨path, ⟨0, values⟩, 0, [], true⟩, ?_, congrArg Except.ok found⟩
    rw [FileStore.openAt, PreferenceFile.load_of_readText text]
    rfl

/-- The snapshot in the hand of an agent is written to the file. -/
lemma acts_persist {a : Agent} {snapshot : Snapshot} {disk : Disk} (known : w.handles[n]? = some h)
    (inHand : h.held a = some snapshot) (current : h.store.persisted ≤ snapshot.generation)
    (saved : PreferenceFile.save w.disk h.store.path snapshot.values = .ok disk) :
    Step path w (.acted n (.persisted a false (.ok ()))) ⟨disk, w.handles.set n (.off
      (InUse.hand ⟨{ h.store with persisted := snapshot.generation }, disk, h.held⟩ a none))⟩ := by
  have written : PreferenceFile.write w.disk h.store.path snapshot.values = (.ok (), disk) := by
    rw [PreferenceFile.write, saved]
  refine .acts known (.persist inHand .done (decide_eq_false (Nat.not_lt.2 current)) ?_)
  show h.store.persistAs w.disk snapshot (PreferenceFile.write w.disk h.store.path _) = _
  rw [written, FileStore.persistAs.eq_def, if_neg (Nat.not_lt.2 current)]

/-- A second store is opened after the commit of the first and has another key written to the file:
the committed value is still there. -/
theorem committed_value_survives_second_store :
    ∃ w w', Run ⟨true, ["prefs"], .name, []⟩ ⟨.fresh [], []⟩
        [.opened, .acted 0 (.updated 0 "a" (.bool true)),
          .acted 0 (.persisted (.caller 0) false (.ok ()))] w ∧
      Run ⟨true, ["prefs"], .name, []⟩ w
        [.opened, .acted 1 (.applied "b" (.bool false) (.ok ())), .acted 1 .taken,
          .acted 1 (.persisted .writer false (.ok ()))] w' ∧
      ∃ reopened, FileStore.openAt w'.disk ⟨true, ["prefs"], .name, []⟩ = .ok reopened ∧
        Store.read (⟨reopened, w'.disk⟩ : Mounted) "a" = .ok (some (.bool true)) := by
  obtain ⟨d₁, saved⟩ : ∃ d, PreferenceFile.save (.fresh []) ⟨true, ["prefs"], .name, []⟩
      (Table.insert ∅ "a" (.bool true)) = .ok d := ⟨_, rfl⟩
  obtain ⟨d₂, again⟩ := PreferenceFile.save_again saved
    ((Table.insert ∅ "a" (.bool true)).insert "b" (.bool false))
  have opened : FileStore.openAt d₁ ⟨true, ["prefs"], .name, []⟩ =
      .ok ⟨⟨true, ["prefs"], .name, []⟩, ⟨0, Table.insert ∅ "a" (.bool true)⟩, 0, [], true⟩ := by
    rw [FileStore.openAt, PreferenceFile.load_of_readText (PreferenceFile.readText_save saved)]
    rfl
  have runs : ∃ w w', Run ⟨true, ["prefs"], .name, []⟩ ⟨.fresh [], []⟩
        ([.opened] ++ .acted 0 (.updated 0 "a" (.bool true)) ::
          [.acted 0 (.persisted (.caller 0) false (.ok ()))]) w ∧
      Run ⟨true, ["prefs"], .name, []⟩ w
        [.opened, .acted 1 (.applied "b" (.bool false) (.ok ())), .acted 1 .taken,
          .acted 1 (.persisted .writer false (.ok ()))] w' :=
    ⟨_, _, .cons (.opens rfl) <| .cons (.acts rfl (.update _ 0 "a" (.bool true) rfl)) <|
      .cons (acts_persist rfl rfl (Nat.zero_le _) saved) <| .nil _,
      .cons (.opens opened) <| .cons (.acts rfl (.apply _ "b" (.bool false))) <|
      .cons (.acts rfl (.take _ _ _ rfl rfl)) <|
      .cons (acts_persist rfl rfl (Nat.zero_le _) again) <| .nil _⟩
  obtain ⟨w, w', committed, further⟩ := runs
  obtain ⟨first, e, since, w₁, w₂, parts, -, reaches, -, survives⟩ :=
    committed_value_survives_stores_opened_since committed rfl
  -- the commit came to the file by the last of its deeds
  have ends : first = [] ∧ since = [] := by
    have sizes := congrArg List.length parts
    simp only [List.length_append, List.length_cons, List.length_nil] at sizes
    exact ⟨List.length_eq_zero_iff.1 (by omega), List.length_eq_zero_iff.1 (by omega)⟩
  obtain ⟨rfl, rfl⟩ := ends
  refine ⟨w, w', committed, further, survives _ w' further ?_ ?_⟩
  · simp [Deed.update?, Event.update?]
  · have opened : openings ([.opened] ++ []) ≤ 1 := Nat.le_refl 1
    intro d among m replacer
    simp only [List.nil_append, List.mem_cons, List.not_mem_nil, or_false] at among
    rcases among with rfl | rfl | rfl | rfl
    · cases replacer
    · cases replacer
    · cases replacer
    · cases replacer
      exact .inr opened

/-- Two stores are opened; the first one commits a value, and then the second one another. The
first value is lost, though its key was not written again. -/
theorem committed_value_lost_to_older_store :
    ∃ w, Run ⟨true, ["prefs"], .name, []⟩ ⟨.fresh [], []⟩
        [.opened, .opened, .acted 0 (.updated 0 "a" (.bool true)),
          .acted 0 (.persisted (.caller 0) false (.ok ())),
          .acted 1 (.updated 0 "b" (.bool false)),
          .acted 1 (.persisted (.caller 0) false (.ok ()))] w ∧
      ∃ reopened, FileStore.openAt w.disk ⟨true, ["prefs"], .name, []⟩ = .ok reopened ∧
        Store.read (⟨reopened, w.disk⟩ : Mounted) "a" = .ok none := by
  obtain ⟨d₁, saved⟩ : ∃ d, PreferenceFile.save (.fresh []) ⟨true, ["prefs"], .name, []⟩
      (Table.insert ∅ "a" (.bool true)) = .ok d := ⟨_, rfl⟩
  obtain ⟨d₂, again⟩ := PreferenceFile.save_again saved (Table.insert ∅ "b" (.bool false))
  refine ⟨_, .cons (.opens rfl) <| .cons (.opens rfl) <|
    .cons (.acts rfl (.update _ 0 "a" (.bool true) rfl)) <|
    .cons (acts_persist rfl rfl (Nat.zero_le _) saved) <|
    .cons (.acts rfl (.update _ 0 "b" (.bool false) rfl)) <|
    .cons (acts_persist rfl rfl (Nat.zero_le _) again) <| .nil _,
    ⟨⟨true, ["prefs"], .name, []⟩, ⟨0, Table.insert ∅ "b" (.bool false)⟩, 0, [], true⟩, ?_, rfl⟩
  rw [FileStore.openAt, PreferenceFile.load_of_readText (PreferenceFile.readText_save again)]
  rfl

end Preferences.Handles
