import Preferences.Proofs.Envelope.Ready
import Preferences.Proofs.Envelope.Shared

/-!
# Envelopes that share a facility

Any number of envelopes, each used by many threads, have one alias and one facility in common. An
envelope locks itself while it looks its keypair up, but nothing locks the facility: between two
calls of one look-up, those of another may come. So two envelopes that were both told that there is
no keypair both have one generated, and the second one takes the place of the first. What was sealed
for the first one is lost then, and for no other reason. Main statements: `run_whole`, that a use
which nobody interrupts is a run of such calls, and `sealed_text_opens_unless_rival_generates`.
-/

namespace Preferences.Rivals

open Shared (Use)

variable {φ : Type} [KeyFacility φ]

/-! ## A look-up call by call -/

/-- Where a look-up stands: what it is to ask next. -/
inductive Stage where
  | asks
  /-- It was told that there is no keypair. -/
  | generates (validity : Validity)
  | readsPublic
  | readsSecret (publicKey : PublicKey)

/-- What comes of a call. -/
inductive Progress where
  | next (stage : Stage)
  | found (handle : KeyHandle)
  | halted (stop : Halt KeyError)

section

variable (suite : Suite) (chance : Chance) (a : String)

/-- What a look-up asks at each stage. -/
def Stage.request : Stage → KeyRequest
  | asks => .hasKeypair a
  | generates validity => .generate a validity (suite.keypair chance.keypairSecret)
  | readsPublic => .publicKey a
  | readsSecret _ => .secretKey a

/-- How the look-up goes on with an answer. -/
def Stage.resume : (stage : Stage) → (stage.request suite chance a).Answer → Progress
  | asks, known =>
    if (show Bool from known) then .next readsPublic
    else
      match Validity.oneYearFrom? chance.now with
      | some validity => .next (generates validity)
      | none => .halted .crash
  | generates _, _ => .next readsPublic
  | readsPublic, publicKey => .next (readsSecret publicKey)
  | readsSecret publicKey, secretKey => .found ⟨a, publicKey, secretKey⟩

/-- How the look-up goes on with the reply to a call, which may be that it failed. -/
def Stage.proceed (stage : Stage) :
    Except (Halt KeyError) (stage.request suite chance a).Answer → Progress
  | .ok answer => stage.resume suite chance a answer
  | .error stop => .halted stop

/-- All of a look-up that is left. -/
def Stage.rest : Stage → KeyCall φ KeyHandle
  | asks => provision suite chance a
  | generates validity => do
    KeyFacility.generate a validity (suite.keypair chance.keypairSecret)
    fetchKeypair a
  | readsPublic => fetchKeypair a
  | readsSecret publicKey => do
    let secretKey ← KeyFacility.secretKey a
    return ⟨a, publicKey, secretKey⟩

/-- All of a look-up that is left after a call. -/
def Progress.rest : Progress → KeyCall φ KeyHandle
  | next stage => stage.rest suite chance a
  | found handle => pure handle
  | halted stop => .halt stop

variable {suite chance a}

/-- What is left of a look-up is its next call, and then what is left with the reply. -/
lemma Stage.rest_eq (stage : Stage) (f : φ) {reply : Except (Halt KeyError) _} {f' : φ}
    (put : (stage.request suite chance a).put f = (reply, f')) :
    stage.rest suite chance a f =
      (stage.proceed suite chance a reply).rest suite chance a f' := by
  -- the call of a stage is the first step of what is left there
  cases stage with
  | asks =>
    have put : KeyFacility.hasKeypair a f = (reply, f') := put
    simp only [rest, provision, ensureKeypair, bind, Attempt.bind, put]
    cases reply with
    | error stop => rfl
    | ok known =>
      cases known with
      | true => rfl
      | false =>
        simp only [proceed, resume]
        cases Validity.oneYearFrom? chance.now with
        | none => rfl
        | some validity => rfl
  | generates validity =>
    have put : KeyFacility.generate a validity (suite.keypair chance.keypairSecret) f =
      (reply, f') := put
    simp only [rest, bind, Attempt.bind, put]
    cases reply with
    | error stop => rfl
    | ok _ => rfl
  | readsPublic =>
    have put : KeyFacility.publicKey a f = (reply, f') := put
    simp only [rest, fetchKeypair, bind, Attempt.bind, put]
    cases reply with
    | error stop => rfl
    | ok publicKey => rfl
  | readsSecret publicKey =>
    have put : KeyFacility.secretKey a f = (reply, f') := put
    simp only [rest, bind, Attempt.bind, put]
    cases reply with
    | error stop => rfl
    | ok secretKey => rfl

end

/-! ## Steps and runs -/

/-- The look-up that has locked an envelope, and the thread and the use that it is for. -/
structure Section where
  thread : Nat
  use : Use
  chance : Chance
  stage : Stage

/-- The use that a thread is about to finish, with a keypair or without. -/
structure Pending where
  use : Use
  chance : Chance
  outcome : Except (Halt Error) Keypair

/-- What a thread returns when it finishes its use. -/
def Pending.result (suite : Suite) (p : Pending) : Except (Halt Error) String :=
  match p.outcome with
  | .ok pair => (p.use.finish suite p.chance pair).mapError .error
  | .error stop => .error stop

/-- An envelope in use by threads that have numbers. -/
structure Member where
  envelope : Envelope
  locked : Option Section := none
  held : Nat → Option Pending := fun _ => none

namespace Member

/-- Gives a thread what it is about to finish with, or takes it away. -/
def hand (m : Member) (t : Nat) (pending : Option Pending) : Member :=
  { m with held := fun s => if s = t then pending else m.held s }

/-- A thread comes to the envelope. -/
def enter (m : Member) (t : Nat) (use : Use) (chance : Chance) : Member :=
  if m.envelope.poisoned then m.hand t (some ⟨use, chance, .error (.error Envelope.poisonedError)⟩)
  else
    match m.envelope.key with
    | some handle => m.hand t (some ⟨use, chance, .ok handle.pair⟩)
    | none => { m with locked := some ⟨t, use, chance, .asks⟩ }

/-- The look-up goes on, or it is over and its thread has the outcome. -/
def advance (m : Member) (s : Section) : Progress → Member
  | .next stage => { m with locked := some { s with stage } }
  | .found handle =>
    { m with locked := none, envelope := { m.envelope with key := some handle } }.hand s.thread
      (some ⟨s.use, s.chance, .ok handle.pair⟩)
  | .halted (.error e) =>
    { m with locked := none }.hand s.thread
      (some ⟨s.use, s.chance, .error (.error (.keyFacility e))⟩)
  | .halted .crash =>
    { m with locked := none, envelope := { m.envelope with poisoned := true } }.hand s.thread
      (some ⟨s.use, s.chance, .error .crash⟩)

end Member

/-- A facility and the envelopes that share it. -/
structure Party where
  vault : Vault
  member : Nat → Member

namespace Party

/-- New envelopes that have chosen the alias. -/
def start (vault : Vault) (a : String) : Party :=
  ⟨vault, fun _ => ⟨⟨some a, none, false⟩, none, fun _ => none⟩⟩

/-- Puts another envelope in the place of one. -/
def put (w : Party) (n : Nat) (m : Member) : Party :=
  { w with member := fun i => if i = n then m else w.member i }

end Party

/-- What a thread of an envelope did. -/
inductive Event where
  | entered (n : Nat)
  | called (n : Nat) (x : Exchange)
  | returned (n : Nat) (use : Use) (chance : Chance) (result : Except (Halt Error) String)
  -- not a thread, but the facility, which goes out or comes back
  | disturbed

/-- One step of one thread of one envelope. -/
inductive Step (suite : Suite) (a : String) : Party → Event → Party → Prop where
  | refuse (w : Party) (n : Nat) (use : Use) (chance : Chance) (empty : use.argument = "") :
    Step suite a w
      (.returned n use chance (.error (.error (.invalidArgument use.emptyFault)))) w
  | enter (w : Party) (n t : Nat) (use : Use) (chance : Chance) (nonempty : use.argument ≠ "")
    (unlocked : (w.member n).locked = none) (free : (w.member n).held t = none) :
    Step suite a w (.entered n) (w.put n ((w.member n).enter t use chance))
  | call {w : Party} {n : Nat} {s : Section} {reply : Except (Halt KeyError) _} {vault : Vault}
    (locked : (w.member n).locked = some s)
    (put : (s.stage.request suite s.chance a).put w.vault = (reply, vault)) :
    Step suite a w (.called n ⟨s.stage.request suite s.chance a, reply⟩)
      (Party.put { w with vault } n
        ((w.member n).advance s (s.stage.proceed suite s.chance a reply)))
  | finish {w : Party} {n t : Nat} {p : Pending} (held : (w.member n).held t = some p) :
    Step suite a w (.returned n p.use p.chance (p.result suite))
      (w.put n ((w.member n).hand t none))
  | disturb (w : Party) (d : Disturbance) (truthful : d.Truthful) :
    Step suite a w .disturbed { w with vault := w.vault.disturb d }

/-- Steps one after another, with what was done. -/
inductive Run (suite : Suite) (a : String) : Party → List Event → Party → Prop where
  | nil (w : Party) : Run suite a w [] w
  | cons {w w' w'' : Party} {event : Event} {trace : List Event} :
    Step suite a w event w' → Run suite a w' trace w'' → Run suite a w (event :: trace) w''

variable {suite : Suite} {a : String} {w w' w'' : Party} {event : Event} {trace more : List Event}

/-- Runs one after another are a run. -/
lemma Run.append (run : Run suite a w trace w') (further : Run suite a w' more w'') :
    Run suite a w (trace ++ more) w'' := by
  induction run with
  | nil => exact further
  | cons step _ ih => exact .cons step (ih further)

/-! ## Whole uses as runs -/

/-- Of two envelopes put in one place the second stays. -/
lemma Party.put_put (w : Party) (n : Nat) (m m' : Member) : (w.put n m).put n m' = w.put n m' := by
  simp only [Party.put, Party.mk.injEq, true_and]
  funext i
  split <;> rfl

/-- To put an envelope in its own place changes nothing. -/
lemma Party.put_self (w : Party) (n : Nat) : w.put n (w.member n) = w := by
  have same : (fun i => if i = n then w.member n else w.member i) = w.member := by
    funext i
    split
    next here => rw [here]
    next => rfl
  rw [Party.put, same]

/-- An envelope that was put in a place is found there. -/
lemma Party.member_put (w : Party) (n : Nat) (m : Member) : (w.put n m).member n = m := if_pos rfl

/-- A thread that had nothing in hand and put away what it got has nothing in hand. -/
lemma Member.hand_hand {m : Member} {t : Nat} (free : m.held t = none) (pending : Option Pending) :
    (m.hand t pending).hand t none = m := by
  have same : (fun s => if s = t then none else if s = t then pending else m.held s) = m.held := by
    funext s
    split
    next here => rw [here, free]
    next => rfl
  simp only [Member.hand, same]

/-- How many calls a look-up may yet make after the next one. -/
def Stage.left : Stage → Nat
  | asks => 3
  | generates _ => 2
  | readsPublic => 1
  | readsSecret _ => 0

/-- A look-up that goes on has fewer calls to make. -/
lemma Stage.left_lt {chance : Chance} {stage stage' : Stage} {reply : Except (Halt KeyError) _}
    (h : stage.proceed suite chance a reply = .next stage') : stage'.left < stage.left := by
  cases reply with
  | error stop => cases h
  | ok answer =>
    cases stage with
    | asks =>
      simp only [proceed, resume] at h
      split at h
      · cases h
        decide
      · split at h
        · cases h
          exact Nat.lt_succ_self 2
        · cases h
    | generates validity =>
      cases h
      exact Nat.lt_succ_self 1
    | readsPublic =>
      cases h
      exact Nat.lt_succ_self 0
    | readsSecret publicKey => cases h

/-- A look-up that is over. -/
def Progress.ofResult : Except (Halt KeyError) KeyHandle → Progress
  | .ok handle => .found handle
  | .error stop => .halted stop

/-- It does not matter to a look-up that goes on who has locked the envelope until now. -/
lemma Member.advance_locked (m : Member) (l : Option Section) (s : Section) (p : Progress) :
    { m with locked := l }.advance s p = m.advance s p := by
  cases p with
  | next | found => rfl
  | halted stop => cases stop <;> rfl

/-- A look-up that nobody interrupts is a run of its calls. -/
lemma run_section {n : Nat} {m : Member} {s : Section} {r : Except (Halt KeyError) KeyHandle}
    {vault : Vault} (rest : s.stage.rest suite s.chance a w.vault = (r, vault)) :
    ∃ trace, Run suite a (w.put n { m with locked := some s }) trace
      (Party.put { w with vault } n (m.advance s (.ofResult r))) := by
  -- the next call is made, and then the calls that are left are
  induction calls : s.stage.left using Nat.strong_induction_on generalizing w s with
  | h left ih =>
    rcases put : (s.stage.request suite s.chance a).put w.vault with ⟨reply, vault'⟩
    have locked : ((w.put n { m with locked := some s }).member n).locked = some s := by
      rw [Party.member_put]
    have step : Step suite a (w.put n { m with locked := some s }) _ _ := .call locked put
    have after : Party.put { w.put n { m with locked := some s } with vault := vault' } n
        (((w.put n { m with locked := some s }).member n).advance s
          (s.stage.proceed suite s.chance a reply)) =
        Party.put { w with vault := vault' } n
          (m.advance s (s.stage.proceed suite s.chance a reply)) := by
      rw [Party.member_put, Member.advance_locked]
      exact Party.put_put { w with vault := vault' } n _ _
    rw [after] at step
    rw [s.stage.rest_eq w.vault put] at rest
    cases progress : s.stage.proceed suite s.chance a reply with
    | next stage =>
      rw [progress] at rest step
      have fewer : stage.left < left := calls ▸ Stage.left_lt progress
      obtain ⟨trace, run⟩ := ih stage.left fewer (w := { w with vault := vault' })
        (s := { s with stage }) rest rfl
      have same : m.advance { s with stage } (.ofResult r) = m.advance s (.ofResult r) := by
        rcases r with (_ | _) | _ <;> rfl
      rw [same] at run
      exact ⟨_, .cons step run⟩
    | found handle =>
      rw [progress] at rest step
      cases rest
      exact ⟨_, .cons step (.nil _)⟩
    | halted stop =>
      rw [progress] at rest step
      cases rest
      exact ⟨_, .cons step (.nil _)⟩

/-- A thread finishes the use that it came with. -/
lemma step_finish {n t : Nat} {m : Member} {p : Pending} (free : m.held t = none) (w : Party) :
    Step suite a (w.put n (m.hand t (some p))) (.returned n p.use p.chance (p.result suite))
      (w.put n m) := by
  have held : ((w.put n (m.hand t (some p))).member n).held t = some p := by
    rw [Party.member_put]
    exact if_pos rfl
  have step : Step suite a _ _ _ := .finish held
  rwa [Party.put_put, Party.member_put, Member.hand_hand free] at step

/-- A whole use of an envelope that is not locked is a run, with the same result. -/
lemma run_whole {n t : Nat} (chosen : (w.member n).envelope.keyAlias = some a)
    (unlocked : (w.member n).locked = none) (free : (w.member n).held t = none) (use : Use)
    (chance : Chance) :
    ∃ trace r e' vault, use.whole suite chance (w.member n).envelope w.vault = (r, e', vault) ∧
      Run suite a w (trace ++ [.returned n use chance r])
        (Party.put { w with vault } n { w.member n with envelope := e' }) := by
  rw [Use.whole_eq]
  by_cases empty : use.argument = ""
  · rw [if_pos empty]
    refine ⟨[], _, _, _, rfl, .cons (.refuse w n use chance empty) ?_⟩
    have same : Party.put { w with vault := w.vault } n
      { w.member n with envelope := (w.member n).envelope } = w := Party.put_self w n
    rw [same]
    exact .nil w
  · rw [if_neg empty]
    have entered : Step suite a w _ _ := .enter w n t use chance empty unlocked free
    generalize w.member n = m at chosen unlocked free entered ⊢
    obtain ⟨⟨keyAlias, key, poisoned⟩, locked, held⟩ := m
    cases chosen
    cases unlocked
    rcases poisoned with _ | _
    · rcases key with _ | handle
      · rcases asked : provision suite chance a w.vault with ⟨r, vault⟩
        obtain ⟨trace, run⟩ := run_section (n := n) (m := ⟨⟨some a, none, false⟩, none, held⟩)
          (s := ⟨t, use, chance, .asks⟩) asked
        simp only [Envelope.ready, asked]
        -- the envelope that the look-up leaves
        have finish (e : Envelope) (p : Pending) : Run suite a
            (Party.put { w with vault } n (Member.hand ⟨e, none, held⟩ t (some p)))
            [.returned n p.use p.chance (p.result suite)]
            (Party.put { w with vault } n ⟨e, none, held⟩) :=
          .cons (step_finish (m := ⟨e, none, held⟩) free { w with vault }) (.nil _)
        rcases r with (fault | _) | handle
        · exact ⟨_, _, _, vault, rfl, (Run.cons entered run).append (finish _ _)⟩
        · exact ⟨_, _, _, vault, rfl, (Run.cons entered run).append (finish _ _)⟩
        · exact ⟨_, _, _, vault, rfl, (Run.cons entered run).append (finish _ _)⟩
      · exact ⟨[_], _, _, _, rfl, .cons entered (.cons (step_finish free w) (.nil _))⟩
    · exact ⟨[_], _, _, _, rfl, .cons entered (.cons (step_finish free w) (.nil _))⟩

/-! ## What a call does and tells -/

/-- The facility keeps a keypair for the alias, and this is its public half. -/
def Keeps (suite : Suite) (a : String) (v : Vault) (k : PublicKey) : Prop :=
  ∃ validity secret, k = suite.publicOf secret ∧
    v.kept? a = some (utf8 (KeypairRecord.make a validity (suite.keypair secret)).render)

/-- What the facility keeps for the alias, if anything, is a keypair. -/
def Proper (suite : Suite) (a : String) (v : Vault) : Prop :=
  v.kept? a = none ∨ ∃ k, Keeps suite a v k

section

variable {chance : Chance} {stage : Stage} {v v' : Vault}
  {reply : Except (Halt KeyError) (stage.request suite chance a).Answer}

/-- A call changes the facility only where it generates a keypair. -/
lemma call_vault (put : (stage.request suite chance a).put v = (reply, v')) :
    v' = v ∨ (∃ validity, stage = .generates validity) ∧
      (Exchange.mk _ reply).generated? = some a ∧ (v.Truthful → v'.Truthful) ∧
      ∃ k, Keeps suite a v' k := by
  cases stage with
  | asks =>
    have put : KeyFacility.hasKeypair a v = (reply, v') := put
    rw [Vault.hasKeypair_eq] at put
    cases put
    exact .inl rfl
  | readsPublic =>
    have put : KeyFacility.publicKey a v = (reply, v') := put
    rw [Vault.publicKey_eq] at put
    cases put
    exact .inl rfl
  | readsSecret k =>
    have put : KeyFacility.secretKey a v = (reply, v') := put
    rw [Vault.secretKey_eq] at put
    cases put
    exact .inl rfl
  | generates validity =>
    have put : KeyFacility.generate a validity (suite.keypair chance.keypairSecret) v =
      (reply, v') := put
    rcases Vault.generate_cases v a validity (suite.keypair chance.keypairSecret) with
      ⟨e, failed⟩ | ⟨v'', done, truthful, kept, -⟩
    · cases put.symm.trans failed
      exact .inl rfl
    · cases put.symm.trans done
      exact .inr ⟨⟨validity, rfl⟩, rfl, truthful, _, validity, _, rfl, kept⟩

/-- A keypair is to be generated only where the facility keeps none. -/
lemma proceed_generates {validity : Validity} (truthful : v.Truthful)
    (put : (stage.request suite chance a).put v = (reply, v'))
    (next : stage.proceed suite chance a reply = .next (.generates validity)) :
    v.kept? a = none := by
  cases reply with
  | error stop => cases next
  | ok answer =>
    cases stage with
    | generates | readsPublic | readsSecret => cases next
    | asks =>
      have put : KeyFacility.hasKeypair a v = (.ok answer, v') := put
      rw [Vault.hasKeypair_eq] at put
      rcases Vault.load_cases truthful a with
        ⟨text, kept, loaded⟩ | ⟨missing, _⟩ | ⟨outage, failed⟩
      · rw [loaded] at put
        cases put
        cases next
      · exact missing
      · rw [failed] at put
        cases put

/-- The public half that is read is that of the keypair that is kept. -/
lemma proceed_readsSecret {k : PublicKey} (truthful : v.Truthful)
    (put : (stage.request suite chance a).put v = (reply, v'))
    (next : stage.proceed suite chance a reply = .next (.readsSecret k)) :
    Exchange.mk _ reply = ⟨.publicKey a, .ok k⟩ ∧ (Proper suite a v → Keeps suite a v' k) := by
  cases reply with
  | error stop => cases next
  | ok answer =>
    -- the stage before is the one that reads the public half
    cases stage with
    | generates | readsSecret => cases next
    | asks =>
      simp only [Stage.proceed, Stage.resume] at next
      split at next
      · cases next
      · split at next <;> cases next
    | readsPublic =>
      cases next
      refine ⟨rfl, fun proper => ?_⟩
      have put : KeyFacility.publicKey a v = (.ok k, v') := put
      rw [Vault.publicKey_eq] at put
      rcases Vault.load_cases truthful a with
        ⟨text, kept, loaded⟩ | ⟨_, failed⟩ | ⟨_, failed⟩
      · rcases proper with missing | ⟨_, validity, secret, -, is⟩
        · cases missing.symm.trans kept
        · cases utf8_inj (Option.some.inj (is.symm.trans kept))
          rw [loaded] at put
          simp only [bind, Except.bind, decodePublic_render] at put
          cases put
          exact ⟨validity, secret, rfl, is⟩
      · rw [failed] at put
        cases put
      · rw [failed] at put
        cases put

/-- A keypair is found only with its secret half, after its public half has been read. -/
lemma proceed_found {handle : KeyHandle}
    (found : stage.proceed suite chance a reply = .found handle) :
    stage = .readsSecret handle.pair.publicKey := by
  cases reply with
  | error stop => cases found
  | ok answer =>
    cases stage with
    | generates | readsPublic => cases found
    | asks =>
      simp only [Stage.proceed, Stage.resume] at found
      split at found
      · cases found
      · split at found <;> cases found
    | readsSecret k =>
      cases found
      rfl

end

/-! ## What every step keeps -/

/-- The envelope has a public half: it is looking for the other one, it has a keypair, or one of its
threads has. -/
inductive Member.Has (m : Member) (k : PublicKey) : Prop where
  | reading {s : Section} (locked : m.locked = some s) (stage : s.stage = .readsSecret k)
  | keyed {handle : KeyHandle} (key : m.envelope.key = some handle)
    (same : handle.pair.publicKey = k)
  | pending {t : Nat} {p : Pending} {pair : Keypair} (held : m.held t = some p)
    (outcome : p.outcome = .ok pair) (same : pair.publicKey = k)

/-- The envelope is about to have a keypair generated. -/
def Member.Generating (m : Member) : Prop :=
  ∃ s validity, m.locked = some s ∧ s.stage = .generates validity

/-- A thread that is given an outcome may bring the envelope the public half of that keypair, and no
other. -/
lemma Member.Has.of_hand {m : Member} {t : Nat} {p : Pending} {k : PublicKey}
    (has : (m.hand t (some p)).Has k) :
    m.Has k ∨ ∃ pair, p.outcome = .ok pair ∧ pair.publicKey = k := by
  cases has with
  | reading locked stage => exact .inl (.reading locked stage)
  | keyed key same => exact .inl (.keyed key same)
  | @pending s q pair held outcome same =>
    have held : (if s = t then some p else m.held s) = some q := held
    split at held
    · cases held
      exact .inr ⟨pair, outcome, same⟩
    · exact .inl (.pending held outcome same)

/-- A thread that comes to an envelope brings no keypair. -/
lemma Member.Has.of_enter {m : Member} {t : Nat} {use : Use} {chance : Chance} {k : PublicKey}
    (has : (m.enter t use chance).Has k) : m.Has k := by
  rw [Member.enter] at has
  split at has
  · rcases has.of_hand with old | ⟨_, none, _⟩
    · exact old
    · cases none
  · split at has
    next handle key =>
      rcases has.of_hand with old | ⟨_, same, is⟩
      · exact old
      · cases same
        exact .keyed key is
    next =>
      cases has with
      | reading locked stage =>
        cases locked
        cases stage
      | keyed key same => exact .keyed key same
      | pending held outcome same => exact .pending held outcome same

/-- A look-up that goes on may bring the envelope the public half that was just read, and no other.
-/
lemma Member.Has.of_advance {m : Member} {s : Section} {p : Progress} {k : PublicKey}
    (has : (m.advance s p).Has k) (locked : m.locked = some s)
    (found : ∀ handle, p = .found handle → s.stage = .readsSecret handle.pair.publicKey) :
    m.Has k ∨ p = .next (.readsSecret k) := by
  cases p with
  | next stage =>
    cases has with
    | reading locked is =>
      cases locked
      exact .inr (congrArg _ is)
    | keyed key same => exact .inl (.keyed key same)
    | pending held outcome same => exact .inl (.pending held outcome same)
  | found handle =>
    -- the keypair has the half that was read before
    have old : handle.pair.publicKey = k → m.Has k := by
      rintro rfl
      exact .reading locked (found handle rfl)
    rcases has.of_hand with inner | ⟨_, same, is⟩
    · cases inner with
      | reading none => cases none
      | keyed key is =>
        cases key
        exact .inl (old is)
      | pending held outcome same => exact .inl (.pending held outcome same)
    · cases same
      exact .inl (old is)
  | halted stop =>
    cases stop with
    | error | crash =>
      rcases has.of_hand with inner | ⟨_, none, _⟩
      · cases inner with
        | reading none => cases none
        | keyed key same => exact .inl (.keyed key same)
        | pending held outcome same => exact .inl (.pending held outcome same)
      · cases none

/-- What a thread returns is no longer in the envelope. -/
lemma Member.Has.of_put_away {m : Member} {t : Nat} {k : PublicKey}
    (has : (m.hand t none).Has k) : m.Has k := by
  cases has with
  | reading locked stage => exact .reading locked stage
  | keyed key same => exact .keyed key same
  | @pending s q pair held outcome same =>
    have held : (if s = t then none else m.held s) = some q := held
    split at held
    · cases held
    · exact .pending held outcome same

/-- A thread that comes to an envelope does not have a keypair generated at once. -/
lemma Member.Generating.of_enter {m : Member} {t : Nat} {use : Use} {chance : Chance}
    (generating : (m.enter t use chance).Generating) : m.Generating := by
  obtain ⟨s, validity, locked, stage⟩ := generating
  rw [Member.enter] at locked
  split at locked
  · exact ⟨s, validity, locked, stage⟩
  · split at locked
    · exact ⟨s, validity, locked, stage⟩
    · cases locked
      cases stage

/-- After a look-up went on, a keypair is about to be generated only if that is its next stage. -/
lemma Member.Generating.of_advance {m : Member} {s : Section} {p : Progress}
    (generating : (m.advance s p).Generating) :
    ∃ validity, p = .next (.generates validity) := by
  obtain ⟨s', validity, locked, stage⟩ := generating
  cases p with
  | next stage' =>
    cases locked
    exact ⟨validity, congrArg _ stage⟩
  | found handle => cases locked
  | halted stop => cases stop <;> cases locked

/-- The others stay when one envelope is put in its place. -/
lemma Party.member_put_of_ne (w : Party) {n i : Nat} (other : i ≠ n) (m : Member) :
    (w.put n m).member i = w.member i := if_neg other

variable {n : Nat} {k : PublicKey}

/-- A step keeps what the facility keeps, unless it is the call of an envelope that was about to
have a keypair generated. -/
lemma Step.vault (step : Step suite a w event w') (truthful : w.vault.Truthful) :
    w'.vault.Truthful ∧ (w'.vault.kept? = w.vault.kept? ∨ ∃ n x, event = .called n x ∧
      x.generated? = some a ∧ (w.member n).Generating ∧ ∃ k, Keeps suite a w'.vault k) := by
  cases step with
  | refuse | enter | finish => exact ⟨truthful, .inl rfl⟩
  | disturb d told => exact ⟨truthful.disturb told, .inl (Vault.kept?_disturb w.vault d)⟩
  | @call n s reply vault locked put =>
    rcases call_vault put with rfl | ⟨⟨validity, stage⟩, generated, told, keeps⟩
    · exact ⟨truthful, .inl rfl⟩
    · exact ⟨told truthful, .inr ⟨n, _, rfl, generated, ⟨s, validity, locked, stage⟩, keeps⟩⟩

/-- To an envelope, a step is one of its own or does not concern it. -/
lemma Step.member (step : Step suite a w event w') (n : Nat) :
    w'.member n = w.member n ∨
    (∃ t use chance, w'.member n = (w.member n).enter t use chance) ∨
    (∃ t, w'.member n = (w.member n).hand t none) ∨
    ∃ s reply, (w.member n).locked = some s ∧
      (s.stage.request suite s.chance a).put w.vault = (reply, w'.vault) ∧
      event = .called n ⟨_, reply⟩ ∧
      w'.member n = (w.member n).advance s (s.stage.proceed suite s.chance a reply) := by
  cases step with
  | refuse | disturb => exact .inl rfl
  | enter m t use chance =>
    by_cases here : n = m
    · subst here
      exact .inr (.inl ⟨t, use, chance, Party.member_put ..⟩)
    · exact .inl (Party.member_put_of_ne _ here _)
  | @finish m t p held =>
    by_cases here : n = m
    · subst here
      exact .inr (.inr (.inl ⟨t, Party.member_put ..⟩))
    · exact .inl (Party.member_put_of_ne _ here _)
  | @call m s reply vault locked put =>
    by_cases here : n = m
    · subst here
      exact .inr (.inr (.inr ⟨s, reply, locked, put, rfl, Party.member_put ..⟩))
    · exact .inl (Party.member_put_of_ne _ here _)

/-- A public half that an envelope has was read just now, or the envelope had it before. -/
lemma Step.has (step : Step suite a w event w') (truthful : w.vault.Truthful)
    (has : (w'.member n).Has k) : (w.member n).Has k ∨
      event = .called n ⟨.publicKey a, .ok k⟩ ∧
        (Proper suite a w.vault → Keeps suite a w'.vault k) ∧ ¬ (w'.member n).Generating := by
  rcases step.member n with
    same | ⟨t, use, chance, is⟩ | ⟨t, is⟩ | ⟨s, reply, locked, put, rfl, is⟩
  · rw [same] at has
    exact .inl has
  · rw [is] at has
    exact .inl has.of_enter
  · rw [is] at has
    exact .inl has.of_put_away
  · rw [is] at has ⊢
    rcases has.of_advance locked fun handle => proceed_found with old | next
    · exact .inl old
    · obtain ⟨exchange, keeps⟩ := proceed_readsSecret truthful put next
      refine .inr ⟨congrArg _ exchange, keeps, fun generating => ?_⟩
      obtain ⟨validity, other⟩ := generating.of_advance
      cases next.symm.trans other

/-- An envelope is about to have a keypair generated only if there was none when it asked. -/
lemma Step.generating (step : Step suite a w event w') (truthful : w.vault.Truthful)
    (generating : (w'.member n).Generating) :
    (w.member n).Generating ∨ w.vault.kept? a = none := by
  rcases step.member n with
    same | ⟨t, use, chance, is⟩ | ⟨t, is⟩ | ⟨s, reply, locked, put, rfl, is⟩
  · rw [same] at generating
    exact .inl generating
  · rw [is] at generating
    exact .inl generating.of_enter
  · rw [is] at generating
    exact .inl generating
  · rw [is] at generating
    obtain ⟨validity, next⟩ := generating.of_advance
    exact .inr (proceed_generates truthful put next)

/-- A sealed text is for a public half that the envelope had. -/
lemma Step.sealed {text sealedText : String} {chance : Chance} (step : Step suite a w event w')
    (now : event = .returned n (.seals text) chance (.ok sealedText)) :
    ∃ k, (w.member n).Has k ∧
      sealedText = (suite.sealFor k chance.ephemeral chance.nonce text).render := by
  cases step with
  | refuse | enter | call | disturb => cases now
  | @finish m t p held =>
    obtain ⟨use, chance, outcome⟩ := p
    cases outcome with
    | error stop => cases now
    | ok pair =>
      cases now
      exact ⟨pair.publicKey, .pending held rfl rfl, rfl⟩

/-- The envelope has read the public half, and unless another one has had a keypair generated since,
the facility keeps the keypair, and the envelope will not have another one generated either. -/
def Read (suite : Suite) (a : String) (trace : List Event) (w : Party) (n : Nat) (k : PublicKey) :
    Prop :=
  ∃ before after, trace = before ++ .called n ⟨.publicKey a, .ok k⟩ :: after ∧
    ((∀ m x, .called m x ∈ after → x.generated? = some a → m = n) →
      Keeps suite a w.vault k ∧ ¬ (w.member n).Generating)

/-- What is kept is kept by any facility with the same records. -/
lemma Keeps.of_eq {v v' : Vault} (keeps : Keeps suite a v k) (same : v'.kept? = v.kept?) :
    Keeps suite a v' k := by
  obtain ⟨validity, secret, is, kept⟩ := keeps
  exact ⟨validity, secret, is, same ▸ kept⟩

/-- What an envelope has read stays read, through every step. -/
lemma Read.step (read : Read suite a trace w n k) (truthful : w.vault.Truthful)
    (step : Step suite a w event w') : Read suite a (trace ++ [event]) w' n k := by
  obtain ⟨before, after, rfl, kept⟩ := read
  refine ⟨before, after ++ [event], by simp, fun alone => ?_⟩
  obtain ⟨keeps, idle⟩ := kept fun m x among => alone m x (List.mem_append_left _ among)
  constructor
  · rcases (step.vault truthful).2 with same | ⟨m, x, rfl, generated, generating, -⟩
    · exact keeps.of_eq same
    · cases alone m x (List.mem_append_right _ (.head _)) generated
      exact absurd generating idle
  · intro generating
    rcases step.generating truthful generating with old | missing
    · exact idle old
    · obtain ⟨_, _, -, there⟩ := keeps
      cases missing.symm.trans there

/-- Every public half that an envelope has, or that it has sealed a text for, it has read. -/
structure Told (suite : Suite) (a : String) (trace : List Event) (w : Party) : Prop where
  truthful : w.vault.Truthful
  proper : Proper suite a w.vault
  has : ∀ n k, (w.member n).Has k → Read suite a trace w n k
  seals : ∀ n text chance sealedText, .returned n (.seals text) chance (.ok sealedText) ∈ trace →
    ∃ k, sealedText = (suite.sealFor k chance.ephemeral chance.nonce text).render ∧
      Read suite a trace w n k

/-- At the start no envelope has read anything. -/
lemma Told.start {v : Vault} (truthful : v.Truthful) (vacant : v.kept? a = none) :
    Told suite a [] (.start v a) where
  truthful := truthful
  proper := .inl vacant
  has n k has := by
    cases has with
    | reading locked => cases locked
    | keyed key => cases key
    | pending held => cases held
  seals n text chance sealedText there := absurd there List.not_mem_nil

/-- After a step too, envelopes have read what they have. -/
lemma Told.step (told : Told suite a trace w) (step : Step suite a w event w') :
    Told suite a (trace ++ [event]) w' := by
  obtain ⟨truthful, vault⟩ := step.vault told.truthful
  constructor
  case truthful => exact truthful
  case proper =>
    rcases vault with same | ⟨_, _, _, _, _, keeps⟩
    · rcases told.proper with missing | ⟨k, keeps⟩
      · exact .inl (same ▸ missing)
      · exact .inr ⟨k, keeps.of_eq same⟩
    · exact .inr keeps
  case has =>
    intro n k has
    rcases step.has told.truthful has with old | ⟨rfl, keeps, idle⟩
    · exact (told.has n k old).step told.truthful step
    · exact ⟨trace, [], rfl, fun _ => ⟨keeps told.proper, idle⟩⟩
  case seals =>
    intro n text chance sealedText there
    rcases List.mem_append.1 there with earlier | now
    · obtain ⟨k, is, read⟩ := told.seals n text chance sealedText earlier
      exact ⟨k, is, read.step told.truthful step⟩
    · obtain ⟨k, had, is⟩ := step.sealed (List.mem_singleton.1 now).symm
      exact ⟨k, is, (told.has n k had).step told.truthful step⟩

/-- And after a run. -/
lemma Told.run (told : Told suite a trace w) (run : Run suite a w more w') :
    Told suite a (trace ++ more) w' := by
  induction run generalizing trace with
  | nil => rwa [List.append_nil]
  | cons step _ ih =>
    rw [List.append_cons]
    exact ih (told.step step)

/-- No sealed text is empty. -/
lemma render_sealFor_ne_empty {chance : Chance} {text : String} :
    (suite.sealFor k chance.ephemeral chance.nonce text).render ≠ "" :=
  Sealed.render_ne_empty (suite.sealText_ne_nil _ _ _)

/-- Envelopes share an alias, for which their facility has no keypair at first. A text that one of
them has sealed is for a public half that it read from the facility, and unless another envelope has
had a keypair generated since then, a new envelope opens the text at any later time at which the
facility answers. -/
theorem sealed_text_opens_unless_rival_generates {vault : Vault} (truthful : vault.Truthful)
    (vacant : vault.kept? a = none) (ideal : suite.Ideal)
    (run : Run suite a (.start vault a) trace w) {text sealedText : String} {chance : Chance}
    (done : .returned n (.seals text) chance (.ok sealedText) ∈ trace) :
    ∃ before k after, trace = before ++ .called n ⟨.publicKey a, .ok k⟩ :: after ∧
      sealedText = (suite.sealFor k chance.ephemeral chance.nonce text).render ∧
      ((∀ m x, .called m x ∈ after → x.generated? = some a → m = n) → w.vault.Answers →
        ∀ c, (Envelope.decrypt suite c ⟨some a, none, false⟩ w.vault sealedText).1 = .ok text) := by
  have told : Told suite a trace w := (Told.start truthful vacant).run run
  obtain ⟨k, rfl, before, after, parts, kept⟩ := told.seals n text chance sealedText done
  refine ⟨before, k, after, parts, rfl, fun alone answers c => ?_⟩
  obtain ⟨⟨validity, secret, rfl, keeps⟩, -⟩ := kept alone
  rw [Envelope.decrypt_new (Vault.provision_of_kept answers keeps c) render_sealFor_ne_empty,
    Suite.openWith_own ideal.agree_comm]
  rfl

/-! ## Two envelopes -/

/-- A call with a known reply. -/
lemma step_call {s : Section} {reply : Except (Halt KeyError) _} {vault : Vault} {p : Progress}
    (locked : (w.member n).locked = some s)
    (put : (s.stage.request suite s.chance a).put w.vault = (reply, vault))
    (progress : s.stage.proceed suite s.chance a reply = p) :
    Step suite a w (.called n ⟨s.stage.request suite s.chance a, reply⟩)
      (Party.put { w with vault } n ((w.member n).advance s p)) := by
  subst progress
  exact .call locked put

/-- An envelope that is told that there is no keypair is to have one generated. -/
lemma proceed_denied {chance : Chance} {validity : Validity}
    (year : Validity.oneYearFrom? chance.now = some validity) :
    Stage.asks.proceed suite chance a (.ok false) = .next (.generates validity) := by
  simp only [Stage.proceed, Stage.resume, year]
  rfl

/-- A facility in memory with one keypair. -/
def keeping (a : String) (validity : Validity) (pair : Keypair) (generated : Nat) : Vault :=
  .memory ⟨Table.insert ∅ a (KeypairRecord.make a validity pair).render, generated, false⟩

/-- The one keypair is there, as its record. -/
lemma kept?_keeping (a : String) (validity : Validity) (pair : Keypair) (generated : Nat) :
    (keeping a validity pair generated).kept? a =
      some (utf8 (KeypairRecord.make a validity pair).render) := by
  rw [keeping, Vault.kept?, Table.get?_insert_self]
  rfl

/-- The one keypair can be looked up. -/
lemma load_keeping (a : String) (validity : Validity) (pair : Keypair) (generated : Nat) :
    (keeping a validity pair generated).load a = .ok (KeypairRecord.make a validity pair).render :=
  Vault.load_of_answers rfl (kept?_keeping a validity pair generated)

/-- The first envelope has a keypair generated and seals a text, and the second one finds the
keypair. A third one opens the text. -/
theorem sealed_text_opens_for_third_envelope :
    let chance := Chance.sample
    ∃ trace w sealedText, Run .tagged "a" (.start (.memory {}) "a") trace w ∧
      .returned 0 (.seals "p") (chance 1) (.ok sealedText) ∈ trace ∧
      .called 1 ⟨.hasKeypair "a", .ok true⟩ ∈ trace ∧
      ∀ c, (Envelope.decrypt .tagged c ⟨some "a", none, false⟩ w.vault sealedText).1 =
        .ok "p" := by
  intro chance
  obtain ⟨validity, year⟩ : ∃ validity, Validity.oneYearFrom? (chance 1).now = some validity :=
    Option.ne_none_iff_exists'.1 (by decide)
  let pair := Suite.tagged.keypair (chance 1).keypairSecret
  have loaded := load_keeping "a" validity pair 1
  have known : KeyFacility.hasKeypair "a" (keeping "a" validity pair 1) =
      (.ok true, keeping "a" validity pair 1) := by
    rw [Vault.hasKeypair_eq, loaded]
  have run : ∃ w, Run .tagged "a" (.start (.memory {}) "a")
      [.entered 0, .called 0 ⟨.hasKeypair "a", .ok false⟩,
        .called 0 ⟨.generate "a" validity pair, .ok ()⟩,
        .called 0 ⟨.publicKey "a", .ok pair.publicKey⟩,
        .called 0 ⟨.secretKey "a", .ok pair.secretKey⟩,
        .returned 0 (.seals "p") (chance 1) (.ok (Suite.tagged.sealFor pair.publicKey
          (chance 1).ephemeral (chance 1).nonce "p").render),
        .entered 1, .called 1 ⟨.hasKeypair "a", .ok true⟩] w ∧ w.vault.Answers :=
    ⟨_, .cons (.enter _ 0 0 (.seals "p") (chance 1) (by decide) rfl rfl) <|
      .cons (step_call (s := ⟨0, .seals "p", chance 1, .asks⟩) rfl rfl (proceed_denied year)) <|
      .cons (step_call (s := ⟨0, .seals "p", chance 1, .generates validity⟩) rfl rfl rfl) <|
      .cons (step_call (s := ⟨0, .seals "p", chance 1, .readsPublic⟩) rfl
        (Vault.publicKey_of_load loaded) rfl) <|
      .cons (step_call (s := ⟨0, .seals "p", chance 1, .readsSecret pair.publicKey⟩) rfl
        (Vault.secretKey_of_load loaded) rfl) <|
      .cons (.finish (t := 0) (p := ⟨.seals "p", chance 1, .ok pair⟩) rfl) <|
      .cons (.enter _ 1 0 (.seals "q") (chance 1) (by decide) rfl rfl) <|
      .cons (step_call (s := ⟨0, .seals "q", chance 1, .asks⟩) rfl known rfl) <| .nil _, rfl⟩
  obtain ⟨w, run, answers⟩ := run
  have truthful : (Vault.memory {}).Truthful := trivial
  obtain ⟨before, k, after, parts, -, opens⟩ := sealed_text_opens_unless_rival_generates
    truthful rfl Suite.tagged_ideal run (n := 0) (List.mem_of_getElem? (i := 5) rfl)
  refine ⟨_, w, _, run, List.mem_of_getElem? (i := 5) rfl, List.mem_of_getElem? (i := 7) rfl,
    opens (fun m x among generated => ?_) answers⟩
  have among : Event.called m x ∈ before ++ .called 0 ⟨.publicKey "a", .ok k⟩ :: after :=
    List.mem_append_right _ (.tail _ among)
  rw [← parts] at among
  simp only [List.mem_cons, reduceCtorEq, Event.called.injEq, List.not_mem_nil, or_false,
    false_or] at among
  rcases among with ⟨rfl, rfl⟩ | ⟨rfl, rfl⟩ | ⟨rfl, rfl⟩ | ⟨rfl, rfl⟩ | ⟨rfl, rfl⟩
  · rfl
  · rfl
  · rfl
  · rfl
  · cases generated

/-- Both envelopes are told that there is no keypair. The first one has one generated and seals a
text, and then the second one has another generated: a third envelope cannot open the text. -/
theorem sealed_text_lost_to_rival_keypair :
    let chance := Chance.sample
    ∃ trace w sealedText, Run .tagged "a" (.start (.memory {}) "a") trace w ∧
      .returned 0 (.seals "p") (chance 1) (.ok sealedText) ∈ trace ∧ w.vault.Answers ∧
      ∀ c, (Envelope.decrypt .tagged c ⟨some "a", none, false⟩ w.vault sealedText).1 =
        .error (.error (.cipher .rejected)) := by
  intro chance
  obtain ⟨validity, year⟩ : ∃ validity, Validity.oneYearFrom? (chance 1).now = some validity :=
    Option.ne_none_iff_exists'.1 (by decide)
  let pair := Suite.tagged.keypair (chance 1).keypairSecret
  let other := Suite.tagged.keypair (chance 2).keypairSecret
  have loaded := load_keeping "a" validity pair 1
  let sealedText := (Suite.tagged.sealFor pair.publicKey (chance 1).ephemeral (chance 1).nonce
    "p").render
  refine ⟨_, _, sealedText,
    .cons (.enter _ 0 0 (.seals "p") (chance 1) (by decide) rfl rfl) <|
    .cons (.enter _ 1 0 (.seals "q") (chance 2) (by decide) rfl rfl) <|
    .cons (step_call (n := 0) (s := ⟨0, .seals "p", chance 1, .asks⟩) rfl rfl
      (proceed_denied year)) <|
    .cons (step_call (n := 1) (s := ⟨0, .seals "q", chance 2, .asks⟩) rfl rfl
      (proceed_denied year)) <|
    .cons (step_call (n := 0) (s := ⟨0, .seals "p", chance 1, .generates validity⟩) rfl rfl rfl) <|
    .cons (step_call (n := 0) (s := ⟨0, .seals "p", chance 1, .readsPublic⟩) rfl
      (Vault.publicKey_of_load loaded) rfl) <|
    .cons (step_call (n := 0) (s := ⟨0, .seals "p", chance 1, .readsSecret pair.publicKey⟩) rfl
      (Vault.secretKey_of_load loaded) rfl) <|
    .cons (.finish (n := 0) (t := 0) (p := ⟨.seals "p", chance 1, .ok pair⟩) rfl) <|
    .cons (step_call (n := 1) (s := ⟨0, .seals "q", chance 2, .generates validity⟩) rfl rfl rfl) <|
    .nil _, List.mem_of_getElem? (i := 7) rfl, rfl, fun c => ?_⟩
  have apart : Suite.tagged.keyFor (chance 2).keypairSecret (chance 1).ephemeral ≠
      Suite.tagged.keyFor (chance 1).keypairSecret (chance 1).ephemeral := by
    rw [Suite.tagged_keyFor, Suite.tagged_keyFor]
    decide
  let first := (KeypairRecord.make "a" validity pair).render
  let second := (KeypairRecord.make "a" validity other).render
  let final : Vault := .memory ⟨(Table.insert ∅ "a" first).insert "a" second, 2, false⟩
  have answers : final.Answers := rfl
  have kept : final.kept? "a" = some (utf8 second) :=
    congrArg (Option.map utf8) (Table.get?_insert_self _ _ _)
  have opened : Envelope.openWith .tagged other sealedText = .error .rejected :=
    Suite.openWith_other Suite.tagged_ideal apart
  refine (Envelope.decrypt_new (Vault.provision_of_kept answers kept c)
    render_sealFor_ne_empty).trans ?_
  rw [opened]
  rfl

end Preferences.Rivals
