import Mathlib.Data.List.Nodup
import Preferences.Proofs.Envelope.Journal
import Preferences.Proofs.Keys.Record

/-!
# An envelope shared by threads

Any number of threads choose aliases and use one envelope, each look-up of a keypair being one
section of the lock. The facility may fail at any call, and others may change it at any time. The
keypair at hand is always one that the facility gave for the active alias in one section, a section
that fails leaves the alias and the keypair alone, and a keypair is generated only where the same
section was told that there is none: so no alias ever gets two. Main statement:
`alias_and_keypair_agree`.
-/

namespace Preferences.Shared

variable {φ : Type}

/-! ## Steps and runs -/

/-- What a thread uses an envelope for: it seals a text or opens a sealed one. -/
inductive Use where
  | seals (text : String)
  | opens (sealedText : String)

namespace Use

/-- The text that a use is given. -/
def argument : Use → String
  | seals text => text
  | opens sealedText => sealedText

/-- Why the use refuses an empty text. -/
def emptyFault : Use → ArgumentFault
  | seals _ => .emptyPlaintext
  | opens _ => .emptyCiphertext

/-- What is left to do with the keypair at hand, outside of the lock. -/
def finish (suite : Suite) (chance : Chance) (pair : Keypair) : Use → Except Error String
  | seals text => .ok (suite.sealFor pair.publicKey chance.ephemeral chance.nonce text).render
  | opens sealedText => (Envelope.openWith suite pair sealedText).mapError .cipher

/-- All of the use at once. -/
def whole [KeyFacility φ] (suite : Suite) (chance : Chance) (e : Envelope) (f : φ) :
    Use → Except (Halt Error) String × Envelope × φ
  | seals text => e.encrypt suite chance f text
  | opens sealedText => e.decrypt suite chance f sealedText

/-- A use refuses an empty text, looks the keypair up and does the rest with it. -/
lemma whole_eq [KeyFacility φ] (suite : Suite) (chance : Chance) (e : Envelope) (f : φ)
    (use : Use) : use.whole suite chance e f =
      if use.argument = "" then (.error (.error (.invalidArgument use.emptyFault)), e, f)
      else
        match e.ready suite chance f with
        | (.error stop, e, f) => (.error stop, e, f)
        | (.ok handle, e, f) => ((use.finish suite chance handle.pair).mapError .error, e, f) := by
  cases use with
  | seals text => rfl
  | opens sealedText =>
    rw [whole, Envelope.decrypt, argument]
    congr 1
    rcases e.ready suite chance f with ⟨stop | handle, e', f'⟩
    · rfl
    · dsimp only [finish]
      cases Envelope.openWith suite handle.pair sealedText <;> rfl

end Use

/-- An envelope in use by threads that have numbers. -/
structure InUse (φ : Type) where
  facility : φ
  envelope : Envelope := {}
  /-- The use for which a thread has a keypair at hand, and its random choices. -/
  held : Nat → Option (Use × Chance × Keypair) := fun _ => none

namespace InUse

/-- Gives a thread what it has to finish, or takes it away. -/
def hand (w : InUse φ) (n : Nat) (use : Option (Use × Chance × Keypair)) : InUse φ :=
  { w with held := fun m => if m = n then use else w.held m }

/-- A thread has what it was given. -/
lemma held_hand (w : InUse φ) (n : Nat) (use : Option (Use × Chance × Keypair)) :
    (w.hand n use).held n = use := if_pos rfl

/-- To give a thread what it has changes nothing. -/
lemma hand_eq_self {w : InUse φ} {n : Nat} {use : Option (Use × Chance × Keypair)}
    (same : w.held n = use) : w.hand n use = w := by
  have held : (fun m => if m = n then use else w.held m) = w.held := by
    funext m
    split
    next self => rw [self, same]
    next => rfl
  rw [hand, held]

/-- Of two things given to a thread it has the second. -/
lemma hand_hand (w : InUse φ) (n : Nat) (use use' : Option (Use × Chance × Keypair)) :
    (w.hand n use).hand n use' = w.hand n use' := by
  simp only [hand, mk.injEq, true_and]
  funext m
  split <;> rfl

end InUse

/-- What a thread did. -/
inductive Event where
  | chose (n : Nat) (result : Except Error Unit)
  | entered (n : Nat) (calls : List Exchange) (result : Except (Halt Error) KeyHandle)
  -- a use that is over, with no call and outside of the lock
  | returned (n : Nat) (result : Except Error String)
  -- not a thread, but someone else who has the facility
  | disturbed

namespace Event

/-- The calls that an event put to the facility. -/
def calls : Event → List Exchange
  | entered _ calls _ => calls
  | _ => []

/-- Did what the event tells of fail? -/
def Failed : Event → Prop
  | chose _ (.error _) | entered _ _ (.error _) | returned _ (.error _) => True
  | _ => False

/-- How a use of the envelope ended with the event. -/
def result? : Event → Option (Except (Halt Error) String)
  | entered _ _ (.error stop) => some (.error stop)
  | returned _ result => some (result.mapError .error)
  | _ => none

/-- The section ended with both halves of a keypair. -/
def Fetches (handle : KeyHandle) (event : Event) : Prop :=
  ∃ before, event.calls = before ++
    [⟨.publicKey handle.keyAlias, .ok handle.pair.publicKey⟩,
      ⟨.secretKey handle.keyAlias, .ok handle.pair.secretKey⟩]

end Event

variable [KeyFacility φ]

/-- One step of one thread. The section of a look-up starts with an empty journal. -/
inductive Step (suite : Suite) : InUse φ → Event → InUse φ → Prop where
  | choose {w : InUse φ} {n : Nat} {a : String} {e' : Envelope} (free : w.held n = none)
    (chosen : w.envelope.setAlias a = .ok e') :
    Step suite w (.chose n (.ok ())) { w with envelope := e' }
  | misname {w : InUse φ} {n : Nat} {a : String} {error : Error} (free : w.held n = none)
    (refused : w.envelope.setAlias a = .error error) : Step suite w (.chose n (.error error)) w
  | refuse {w : InUse φ} {n : Nat} (free : w.held n = none) (use : Use)
    (empty : use.argument = "") :
    Step suite w (.returned n (.error (.invalidArgument use.emptyFault))) w
  | enter {w : InUse φ} {n : Nat} {chance : Chance} {r : Except (Halt Error) KeyHandle}
    {e' : Envelope} {f' : Journaled φ} (free : w.held n = none) (use : Use)
    (nonempty : use.argument ≠ "")
    (ready : w.envelope.ready suite chance (⟨w.facility, []⟩ : Journaled φ) = (r, e', f')) :
    Step suite w (.entered n f'.journal r)
      (InUse.hand ⟨f'.base, e', w.held⟩ n (r.toOption.map fun handle => (use, chance, handle.pair)))
  | finish {w : InUse φ} {n : Nat} {use : Use} {chance : Chance} {pair : Keypair}
    (inHand : w.held n = some (use, chance, pair)) :
    Step suite w (.returned n (use.finish suite chance pair)) (w.hand n none)
  -- what others do to the facility within a section is up to its own calls, which may do anything
  | disturb (w : InUse φ) (f' : φ) : Step suite w .disturbed { w with facility := f' }

/-- Steps one after another, with what was done. -/
inductive Run (suite : Suite) : InUse φ → List Event → InUse φ → Prop where
  | nil (w : InUse φ) : Run suite w [] w
  | cons {w w' w'' : InUse φ} {event : Event} {trace : List Event} :
    Step suite w event w' → Run suite w' trace w'' → Run suite w (event :: trace) w''

variable {suite : Suite} {chance : Chance} {w w' : InUse φ} {event : Event} {trace : List Event}

/-- A whole use is a run of one thread, with the same result. -/
lemma run_whole {n : Nat} (free : w.held n = none) (use : Use) :
    ∃ trace r e' f', use.whole suite chance w.envelope w.facility = (r, e', f') ∧
      Run suite w trace ⟨f', e', w.held⟩ ∧ trace.filterMap Event.result? = [r] := by
  rw [Use.whole_eq]
  by_cases empty : use.argument = ""
  · rw [if_pos empty]
    exact ⟨_, _, _, _, rfl, .cons (.refuse free use empty) (.nil w), rfl⟩
  · rw [if_neg empty]
    obtain ⟨calls, r, e', f', ran, noted, _⟩ :=
      ready_section suite chance w.envelope w.facility
    rw [ran]
    have same : InUse.hand ⟨f', e', w.held⟩ n none = ⟨f', e', w.held⟩ := InUse.hand_eq_self free
    have entered : Step suite w _ (InUse.hand ⟨f', e', w.held⟩ n _) := .enter free use empty noted
    cases r with
    | error stop =>
      have halted : Step suite w _ (InUse.hand ⟨f', e', w.held⟩ n none) := entered
      rw [same] at halted
      exact ⟨_, _, _, _, rfl, .cons halted (.nil _), rfl⟩
    | ok handle =>
      have finished : Step suite _ _ _ := .finish
        (InUse.held_hand ⟨f', e', w.held⟩ n (some (use, chance, handle.pair)))
      rw [InUse.hand_hand, same] at finished
      exact ⟨_, _, _, _, rfl, .cons entered (.cons finished (.nil _)), rfl⟩

/-! ## What every step keeps -/

/-- A step that failed leaves the alias and the keypair of the envelope as they were. -/
lemma Step.failed (step : Step suite w event w') (failed : event.Failed) :
    w'.envelope.keyAlias = w.envelope.keyAlias ∧ w'.envelope.key = w.envelope.key := by
  cases step with
  | choose | disturb => exact failed.elim
  | misname | refuse | finish => exact ⟨rfl, rfl⟩
  | @enter _ _ r _ _ _ _ _ ready =>
    cases r with
    | ok handle => exact failed.elim
    | error stop => exact (section_of_ready ready).failed

/-- The calls of an event are none, or those of a look-up. -/
lemma Step.lookedUp (step : Step suite w event w') :
    event.calls = [] ∨ ∃ a result, LookedUp a event.calls result := by
  cases step with
  | enter _ _ _ ready => exact (section_of_ready ready).lookedUp
  | choose | misname | refuse | finish | disturb => exact .inl rfl

/-- Nothing but the calls of a step, or someone else, changes the facility. -/
lemma Step.asked (step : Step suite w event w') (undisturbed : event ≠ .disturbed) :
    Asked w.facility event.calls w'.facility := by
  cases step with
  | enter _ _ _ ready => exact (section_of_ready ready).asked
  | choose | misname | refuse | finish => exact .nil _
  | disturb => exact absurd rfl undisturbed

/-- The keypair at hand is that of the active alias, and some section fetched it. -/
def Sound (trace : List Event) (w : InUse φ) : Prop :=
  ∀ handle, w.envelope.key = some handle →
    w.envelope.keyAlias = some handle.keyAlias ∧ ∃ event ∈ trace, event.Fetches handle

/-- After a step the keypair at hand is still the active alias's own. -/
lemma Sound.step (sound : Sound trace w) (step : Step suite w event w') :
    Sound (trace ++ [event]) w' := by
  have kept : Sound (trace ++ [event]) w := by
    intro handle hand
    obtain ⟨chosen, event', there, fetches⟩ := sound handle hand
    exact ⟨chosen, event', List.mem_append_left _ there, fetches⟩
  cases step with
  | misname | refuse | finish | disturb => exact kept
  | choose _ chosen =>
    -- with a new alias the keypair at hand is dropped
    rcases setAlias_cases chosen with rfl | dropped
    · exact kept
    · intro handle hand
      cases dropped.symm.trans hand
  | @enter _ _ _ _ f' _ _ _ ready =>
    obtain ⟨facility, calls⟩ := f'
    intro handle hand
    cases section_of_ready ready with
    | idle => exact kept handle hand
    | found chosen _ looked =>
      cases hand
      obtain ⟨rfl, fetches⟩ := looked.halves
      exact ⟨chosen, _, List.mem_append_right _ List.mem_cons_self, fetches⟩
    | halted _ _ _ same =>
      rcases same with rfl | rfl
      · exact kept handle hand
      · exact kept handle hand

/-- The aliases for which a keypair was generated, in turn. -/
def generated (trace : List Event) : List String :=
  (trace.flatMap Event.calls).filterMap Exchange.generated?

/-- No alias got two keypairs, and the facility keeps those that were generated. -/
structure Single (keeps : φ → String → Prop) (trace : List Event) (w : InUse φ) : Prop where
  nodup : (generated trace).Nodup
  kept : ∀ a ∈ generated trace, keeps w.facility a

variable {keeps : φ → String → Prop}

/-- After a step no alias has got a second keypair. -/
lemma Single.step (truthful : KeyFacility.Truthful keeps) (single : Single keeps trace w)
    (step : Step suite w event w') (undisturbed : event ≠ .disturbed) :
    Single keeps (trace ++ [event]) w' := by
  have asked := step.asked undisturbed
  have kept (a : String) (there : a ∈ generated trace) : keeps w'.facility a :=
    truthful.asked asked (single.kept a there)
  have more : generated (trace ++ [event]) =
      generated trace ++ event.calls.filterMap Exchange.generated? := by
    simp only [generated, List.flatMap_append, List.filterMap_append, List.flatMap_singleton]
  have silent (none : event.calls.filterMap Exchange.generated? = []) :
      Single keeps (trace ++ [event]) w' := by
    rw [none, List.append_nil] at more
    exact ⟨more ▸ single.nodup, more ▸ kept⟩
  rcases step.lookedUp with none | ⟨a, result, looked⟩
  · exact silent (none ▸ rfl)
  · rcases truthful.lookedUp asked looked with none | ⟨one, absent, present⟩
    · exact silent none
    · -- the alias had no keypair, so none had been generated for it
      have new : a ∉ generated trace := fun there => absent (single.kept a there)
      rw [one] at more
      refine ⟨?_, ?_⟩
      · rw [more]
        refine List.nodup_append.2 ⟨single.nodup, List.nodup_singleton a, ?_⟩
        rintro _ there _ now rfl
        exact new (List.mem_singleton.1 now ▸ there)
      · rw [more]
        intro b there
        rcases List.mem_append.1 there with earlier | now
        · exact kept b earlier
        · rwa [List.mem_singleton.1 now]

/-! ## Whole runs -/

/-- After a run the keypair at hand is still the active alias's own. -/
lemma Run.sound {before : List Event} (sound : Sound before w) (run : Run suite w trace w') :
    Sound (before ++ trace) w' := by
  induction run generalizing before with
  | nil => rwa [List.append_nil]
  | cons step _ ih =>
    rw [List.append_cons]
    exact ih (sound.step step)

/-- After a run no alias has got a second keypair. -/
lemma Run.single (truthful : KeyFacility.Truthful keeps) {before : List Event}
    (single : Single keeps before w) (run : Run suite w trace w')
    (undisturbed : ∀ event ∈ trace, event ≠ .disturbed) : Single keeps (before ++ trace) w' := by
  induction run generalizing before with
  | nil => rwa [List.append_nil]
  | cons step _ ih =>
    rw [List.append_cons]
    exact ih (single.step truthful step (undisturbed _ List.mem_cons_self))
      fun event later => undisturbed event (List.mem_cons_of_mem _ later)

/-- The calls of every event of a run are none, or those of a look-up. -/
lemma Run.lookedUp (run : Run suite w trace w') (there : event ∈ trace) :
    event.calls = [] ∨ ∃ a result, LookedUp a event.calls result := by
  induction run with
  | nil => cases there
  | cons step _ ih =>
    rcases List.mem_cons.1 there with rfl | later
    · exact step.lookedUp
    · exact ih later

/-- Whatever threads do with a new envelope, and whichever calls of the facility fail: a keypair at
hand is that of the active alias, and both halves came from the facility in one section. A step that
fails leaves the alias and the keypair as they were. A keypair is generated only right after its
section was told that the alias has none. And where the facility tells the truth and nobody else
changes it, no alias gets a keypair twice. -/
theorem alias_and_keypair_agree {facility : φ} (run : Run suite { facility } trace w) :
    (∀ handle, w.envelope.key = some handle →
      w.envelope.keyAlias = some handle.keyAlias ∧ ∃ event ∈ trace, event.Fetches handle) ∧
    (∀ event w', Step suite w event w' → event.Failed →
      w'.envelope.keyAlias = w.envelope.keyAlias ∧ w'.envelope.key = w.envelope.key) ∧
    (∀ event ∈ trace, ∀ before a validity pair reply after,
      event.calls = before ++ ⟨.generate a validity pair, reply⟩ :: after →
      before.getLast? = some ⟨.hasKeypair a, .ok false⟩) ∧
    ∀ keeps, KeyFacility.Truthful (φ := φ) keeps → (∀ event ∈ trace, event ≠ .disturbed) →
      (generated trace).Nodup := by
  have fresh : Sound [] (InUse.mk facility {} fun _ => none) := nofun
  refine ⟨run.sound fresh, fun _ _ => Step.failed, ?_, ?_⟩
  · intro event there before a validity pair reply after made
    rcases run.lookedUp there with none | ⟨b, result, looked⟩
    · rw [none] at made
      cases List.append_eq_nil_iff.1 made.symm |>.2
    · exact looked.denied made
  · intro keeps truthful undisturbed
    have none : Single keeps [] (InUse.mk facility {} fun _ => none) := ⟨List.nodup_nil, nofun⟩
    exact (run.single truthful none undisturbed).nodup

/-- A keypair that is kept in memory is looked up there, once no more calls are lost. -/
lemma ready_of_kept {chance : Chance} {f : MemoryFacility} (up : f.unavailable = false) {a : String}
    {validity : Validity} {pair : Keypair}
    (kept : f.records.get? a = some (KeypairRecord.make a validity pair).render) :
    Envelope.ready suite chance ⟨some a, none, false⟩
        (⟨⟨f, []⟩, []⟩ : Journaled (Flaky MemoryFacility)) =
      (.ok ⟨a, pair⟩, ⟨some a, some ⟨a, pair⟩, false⟩, ⟨⟨f, []⟩,
        [⟨.hasKeypair a, .ok true⟩, ⟨.publicKey a, .ok pair.publicKey⟩,
          ⟨.secretKey a, .ok pair.secretKey⟩]⟩) := by
  have known : KeyFacility.hasKeypair a f = (.ok true, f) := by
    show ((f.hasKeypair a).mapError Halt.error, f) = _
    rw [MemoryFacility.hasKeypair, MemoryFacility.checkAvailable, up, Table.contains, kept]
    rfl
  have loaded : f.load a = .ok (KeypairRecord.make a validity pair).render := by
    rw [MemoryFacility.load, MemoryFacility.checkAvailable, up, kept]
    rfl
  have publicKey : KeyFacility.publicKey a f = (.ok pair.publicKey, f) := by
    show ((f.load a >>= decodePublic a).mapError Halt.error, f) = _
    simp only [loaded, bind, Except.bind, decodePublic_render]
    rfl
  have secretKey : KeyFacility.secretKey a f = (.ok pair.secretKey, f) := by
    show ((f.load a >>= decodeSecret a).mapError Halt.error, f) = _
    simp only [loaded, bind, Except.bind, decodeSecret_render]
    rfl
  -- every call comes through and is noted
  have through {q : KeyRequest} {reply : Except (Halt KeyError) q.Answer} (log : List Exchange)
      (came : q.put f = (reply, f)) :
      Journaled.put q ⟨(⟨f, []⟩ : Flaky MemoryFacility), log⟩ =
        (reply, ⟨⟨f, []⟩, log ++ [⟨q, reply⟩]⟩) := by
    have passed : Flaky.put q ⟨f, []⟩ = ((q.put f).1, ⟨(q.put f).2, []⟩) := rfl
    rw [came] at passed
    have put : q.put (⟨f, []⟩ : Flaky MemoryFacility) = (reply, ⟨f, []⟩) := by
      cases q <;> exact passed
    rw [Journaled.put, put]
  have ensured : ensureKeypair suite chance a (⟨⟨f, []⟩, []⟩ : Journaled (Flaky MemoryFacility)) =
      (.ok (), ⟨⟨f, []⟩, [⟨.hasKeypair a, .ok true⟩]⟩) := by
    simp only [ensureKeypair, bind, Attempt.bind, KeyFacility.hasKeypair,
      through (q := .hasKeypair a) _ known]
    rfl
  have fetched : fetchKeypair a
      (⟨⟨f, []⟩, [⟨.hasKeypair a, .ok true⟩]⟩ : Journaled (Flaky MemoryFacility)) =
      (.ok ⟨a, pair⟩, ⟨⟨f, []⟩, [⟨.hasKeypair a, .ok true⟩, ⟨.publicKey a, .ok pair.publicKey⟩,
        ⟨.secretKey a, .ok pair.secretKey⟩]⟩) := by
    simp only [fetchKeypair, bind, Attempt.bind, KeyFacility.publicKey, KeyFacility.secretKey,
      through (q := .publicKey a) _ publicKey, through (q := .secretKey a) _ secretKey]
    rfl
  simp only [Envelope.ready, provision, bind, Attempt.bind, ensured, fetched]
  rfl

/-- The first thread has a keypair generated and then cannot read it. The second one finds it. -/
theorem retried_read_finds_first_keypair :
    let chance : Chance := .sample 3
    let pair := Suite.standard.keypair chance.keypairSecret
    let outage : KeyError := .unavailable .marked
    ∃ validity w,
      let trace : List Event := [
        .chose 0 (.ok ()),
        .entered 0 [⟨.hasKeypair "a", .ok false⟩, ⟨.generate "a" validity pair, .ok ()⟩,
          ⟨.publicKey "a", .error (.error outage)⟩] (.error (.error (.keyFacility outage))),
        .entered 1 [⟨.hasKeypair "a", .ok true⟩, ⟨.publicKey "a", .ok pair.publicKey⟩,
          ⟨.secretKey "a", .ok pair.secretKey⟩] (.ok ⟨"a", pair⟩)]
      Run .standard { facility := (⟨{}, [false, false, true]⟩ : Flaky MemoryFacility) } trace w ∧
        w.envelope.key = some ⟨"a", pair⟩ ∧ w.envelope.keyAlias = some "a" ∧
        generated trace = ["a"] ∧ (generated trace).Nodup := by
  intro chance pair outage
  obtain ⟨validity, year⟩ : ∃ validity, Validity.oneYearFrom? chance.now = some validity :=
    Option.ne_none_iff_exists'.1 (by decide)
  let text := (KeypairRecord.make "a" validity pair).render
  let found : Flaky MemoryFacility := ⟨⟨(∅ : Table String String).insert "a" text, 1, false⟩, []⟩
  have first : Envelope.ready .standard chance ⟨some "a", none, false⟩
      (⟨⟨{}, [false, false, true]⟩, []⟩ : Journaled (Flaky MemoryFacility)) =
      (.error (.error (.keyFacility outage)), ⟨some "a", none, false⟩, ⟨found,
        [⟨.hasKeypair "a", .ok false⟩, ⟨.generate "a" validity pair, .ok ()⟩,
          ⟨.publicKey "a", .error (.error outage)⟩]⟩) := by
    have generated : ensureKeypair .standard chance "a"
        (⟨⟨{}, [false, false, true]⟩, []⟩ : Journaled (Flaky MemoryFacility)) =
        (.ok (), ⟨⟨found.base, [true]⟩,
          [⟨.hasKeypair "a", .ok false⟩, ⟨.generate "a" validity pair, .ok ()⟩]⟩) := by
      rw [ensureKeypair, year]
      rfl
    simp only [Envelope.ready, provision, bind, Attempt.bind, generated]
    rfl
  have second : Envelope.ready .standard chance ⟨some "a", none, false⟩
      (⟨found, []⟩ : Journaled (Flaky MemoryFacility)) =
      (.ok ⟨"a", pair⟩, ⟨some "a", some ⟨"a", pair⟩, false⟩, ⟨found,
        [⟨.hasKeypair "a", .ok true⟩, ⟨.publicKey "a", .ok pair.publicKey⟩,
          ⟨.secretKey "a", .ok pair.secretKey⟩]⟩) := by
    exact ready_of_kept rfl (Table.get?_insert_self _ _ _)
  have run : Run .standard
      { facility := (⟨{}, [false, false, true]⟩ : Flaky MemoryFacility) } _ _ :=
    .cons (.choose (n := 0) (a := "a") rfl rfl) <|
    .cons (.enter (n := 0) rfl (.seals "x") (by decide) first) <|
    .cons (.enter (n := 1) rfl (.seals "y") (by decide) second) <|
    .nil _
  obtain ⟨agree, _, _, single⟩ := alias_and_keypair_agree run
  refine ⟨validity, _, run, rfl, (agree _ rfl).1, rfl, ?_⟩
  exact single _ (Flaky.truthful MemoryFacility.truthful) (by simp)

end Preferences.Shared
