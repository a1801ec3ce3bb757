import Preferences.Proofs.Envelope.Shared
import Preferences.Proofs.Session.Provided

/-!
# What an envelope owes to its facility

An envelope with its keypair at hand answers out of that keypair alone: whatever becomes of the
facility meanwhile, two runs with the same calls and the same random choices end alike, and no call
comes to the facility. Another alias, or a typed store that is opened anew, ends that. The next use
goes by the record that the facility then has for the active alias, or by the one it has generated
then, and by nothing from before. Main statement: `ready_envelope_needs_no_facility`.
-/

namespace Preferences

open Shared (Use)

variable {φ ψ : Type}

/-! ## Calls amid changes of the facility -/

/-- What is asked of an envelope. -/
inductive EnvelopeCall where
  | uses (use : Use)
  | chooses (keyAlias : String)

namespace EnvelopeCall

/-- What comes of a call of an envelope. -/
def perform [KeyFacility φ] (suite : Suite) (chance : Chance) (e : Envelope) (f : φ) :
    EnvelopeCall → Except (Halt Error) (Option String) × Envelope × φ
  | uses use =>
    let (result, e, f) := use.whole suite chance e f
    (result.map some, e, f)
  | chooses keyAlias =>
    match e.setAlias keyAlias with
    | .ok e => (.ok none, e, f)
    | .error error => (.error (.error error), e, f)

/-- The call does not ask for another alias. -/
def Keeps (a : String) : EnvelopeCall → Prop
  | uses _ => True
  | chooses b => b = a

/-- The call is refused, or chooses an alias, before a keypair is needed. -/
def Idle : EnvelopeCall → Prop
  | uses use => use.argument = ""
  | chooses _ => True

/-- The answer to a call that has a keypair at hand. -/
def answer (suite : Suite) (chance : Chance) (pair : Keypair) :
    EnvelopeCall → Except (Halt Error) (Option String)
  | uses use =>
    if use.argument = "" then .error (.error (.invalidArgument use.emptyFault))
    else ((use.finish suite chance pair).mapError .error).map some
  | chooses keyAlias =>
    if keyAlias = "" then .error (.error (.invalidArgument .emptyAlias)) else .ok none

end EnvelopeCall

/-- A call with its random choices, or what others do to the facility. -/
inductive Occurrence (φ : Type) where
  | call (chance : Chance) (c : EnvelopeCall)
  | change (g : φ → φ)

namespace Occurrence

/-- The call that occurred, if it was one. -/
def call? : Occurrence φ → Option (Chance × EnvelopeCall)
  | call chance c => some (chance, c)
  | change _ => none

/-- The same to a facility with a journal, in which others do not write. -/
def journaled : Occurrence φ → Occurrence (Journaled φ)
  | call chance c => call chance c
  | change g => change fun f => { f with base := g f.base }

end Occurrence

/-- The calls among all that occurred. -/
def occurredCalls (os : List (Occurrence φ)) : List (Chance × EnvelopeCall) :=
  os.filterMap Occurrence.call?

/-- What others alone make of the facility. -/
def changedBy : List (Occurrence φ) → φ → φ
  | [], f => f
  | .call .. :: os, f => changedBy os f
  | .change g :: os, f => changedBy os (g f)

/-- A journal does not keep the facility from changing as it would. -/
lemma changedBy_journaled (os : List (Occurrence φ)) (f : φ) (log : List Exchange) :
    changedBy (os.map .journaled) ⟨f, log⟩ = ⟨changedBy os f, log⟩ := by
  induction os generalizing f with
  | nil => rfl
  | cons o os ih =>
    cases o with
    | call chance c => exact ih f
    | change g => exact ih (g f)

/-- A journal does not change what calls occur. -/
lemma occurredCalls_journaled (os : List (Occurrence φ)) :
    occurredCalls (os.map .journaled) = occurredCalls os := by
  rw [occurredCalls, List.filterMap_map]
  congr 1
  funext o
  cases o <;> rfl

namespace Envelope

/-- The answers to the calls among what occurs, and what is left. -/
def occur [KeyFacility φ] (suite : Suite) (e : Envelope) (f : φ) :
    List (Occurrence φ) → List (Except (Halt Error) (Option String)) × Envelope × φ
  | [] => ([], e, f)
  | .change g :: os => e.occur suite (g f) os
  | .call chance c :: os =>
    let (answer, e, f) := c.perform suite chance e f
    let (answers, e, f) := e.occur suite f os
    (answer :: answers, e, f)

/-! ## With a keypair at hand -/

section Ready

variable [KeyFacility φ] {suite : Suite} {chance : Chance} {e : Envelope} {f : φ}
  {handle : KeyHandle} {a : String}

/-- With the keypair at hand a look-up asks nothing. -/
lemma ready_of_hand (healthy : e.poisoned = false) (hand : e.key = some handle) :
    e.ready suite chance f = (.ok handle, e, f) := by
  rw [ready, healthy, hand]
  rfl

/-- A call that has a keypair at hand is answered from it, and changes nothing. -/
lemma perform_of_hand (healthy : e.poisoned = false) (hand : e.key = some handle)
    (chosen : e.keyAlias = some a) {c : EnvelopeCall} (keeps : c.Keeps a) :
    c.perform suite chance e f = (c.answer suite chance handle.pair, e, f) := by
  cases c with
  | uses use =>
    rw [EnvelopeCall.perform, use.whole_eq, EnvelopeCall.answer, ready_of_hand healthy hand]
    by_cases empty : use.argument = ""
    · rw [if_pos empty, if_pos empty]
      rfl
    · rw [if_neg empty, if_neg empty]
  | chooses b =>
    cases keeps
    rw [EnvelopeCall.perform, EnvelopeCall.answer, setAlias, healthy]
    by_cases empty : a = ""
    · rw [if_pos empty, if_pos empty]
    · rw [if_neg empty, if_neg empty, if_neg Bool.false_ne_true, if_pos chosen]

/-- So are calls in any number, whatever others do to the facility in between. -/
lemma occur_of_hand (healthy : e.poisoned = false) (hand : e.key = some handle)
    (chosen : e.keyAlias = some a) {os : List (Occurrence φ)}
    (keeps : ∀ call ∈ occurredCalls os, call.2.Keeps a) :
    e.occur suite f os =
      ((occurredCalls os).map fun call => call.2.answer suite call.1 handle.pair, e,
        changedBy os f) := by
  induction os generalizing f with
  | nil => rfl
  | cons o os ih =>
    cases o with
    | change g => exact ih keeps
    | call chance c =>
      obtain ⟨first, rest⟩ := List.forall_mem_cons.1 keeps
      rw [occur, perform_of_hand healthy hand chosen first]
      dsimp only
      rw [ih rest]
      rfl

end Ready

end Envelope

/-! ## Where a keypair comes from -/

namespace Vault

variable {suite : Suite} {chance : Chance} {v v' : Vault} {a : String}

/-- The keypair in the record that a facility has for an alias. -/
def keypair (v : Vault) (a : String) : Except KeyError Keypair := do
  let text ← v.load a
  return ⟨← decodePublic a text, ← decodeSecret a text⟩

/-- The keypair for an alias comes from the record that the facility has, or has generated where it
has none. -/
inductive Source (suite : Suite) (chance : Chance) (a : String) (v : Vault) :
    Except (Halt KeyError) Keypair → Vault → Prop where
  | held (there : ∀ b, v.load a ≠ .error (.notFound b)) :
    Source suite chance a v ((v.keypair a).mapError .error) v
  | generated {validity : Validity} {v' : Vault} (absent : v.load a = .error (.notFound a))
    (year : Validity.oneYearFrom? chance.now = some validity)
    (done : KeyFacility.generate a validity (suite.keypair chance.keypairSecret) v = (.ok (), v'))
    (new : v.Truthful → v'.keypair a = .ok (suite.keypair chance.keypairSecret)) :
    Source suite chance a v ((v'.keypair a).mapError .error) v'
  | refused {validity : Validity} {fault : KeyError} (absent : v.load a = .error (.notFound a))
    (year : Validity.oneYearFrom? chance.now = some validity)
    (failed : KeyFacility.generate a validity (suite.keypair chance.keypairSecret) v =
      (.error (.error fault), v)) :
    Source suite chance a v (.error (.error fault)) v
  -- the calendar ends before the validity of a new keypair would
  | late (absent : v.load a = .error (.notFound a))
    (year : Validity.oneYearFrom? chance.now = none) : Source suite chance a v (.error .crash) v

/-- What is told to be missing is the alias that was asked for. -/
lemma load_notFound {b : String} (absent : v.load a = .error (.notFound b)) : b = a := by
  cases v with
  | memory f =>
    rw [load, MemoryFacility.load, MemoryFacility.checkAvailable] at absent
    split at absent
    next => cases absent
    next =>
      cases found : f.records.get? a with
      | some text =>
        rw [found] at absent
        cases absent
      | none =>
        rw [found] at absent
        cases absent
        rfl
  | keyring k =>
    obtain ⟨text, loaded, -⟩ | ⟨loaded, -⟩ | ⟨fault, loaded⟩ := k.load_cases a
    · cases loaded.symm.trans absent
    · cases loaded.symm.trans absent
      rfl
    · cases loaded.symm.trans absent

/-- A facility that says truthfully that it has no record answers. -/
lemma answers_of_absent {b : String} (truthful : v.Truthful)
    (absent : v.load a = .error (.notFound b)) : v.Answers := by
  cases v with
  | memory f =>
    rw [load, MemoryFacility.load, MemoryFacility.checkAvailable] at absent
    split at absent
    next => cases absent
    next up => exact Bool.eq_false_of_not_eq_true up
  | keyring k =>
    have truthful : k.credentials.fault? .get ≠ some .noEntry := truthful
    simp only [load, Keyring.load, Keyring.entry, CredentialStore.pass, CredentialStore.getText]
      at absent
    cases built : k.credentials.fault? .build with
    | some fault =>
      rw [built] at absent
      cases absent
    | none =>
      cases got : k.credentials.fault? .get with
      | none => exact ⟨built, got⟩
      | some fault =>
        rw [built, got] at absent
        cases fault with
        | noEntry => exact absurd got truthful
        | platform | access | tooLong | invalid | notText => cases absent

/-- A facility that answers still does when it has generated a keypair. -/
lemma Answers.generate {validity : Validity} {pair : Keypair} (answers : v.Answers)
    (done : KeyFacility.generate a validity pair v = (.ok (), v')) : v'.Answers := by
  cases v with
  | memory f =>
    obtain ⟨records, generated, off⟩ := f
    cases answers
    cases done
    rfl
  | keyring k =>
    obtain ⟨built, got⟩ := answers
    simp only [KeyFacility.generate, call, Keyring.generate, Keyring.entry, CredentialStore.pass,
      CredentialStore.setText, built] at done
    cases put : k.credentials.fault? .set with
    | some fault =>
      rw [put] at done
      cases done
    | none =>
      rw [put] at done
      cases done
      exact ⟨built, got⟩

/-- The keypair in a record that was made for it. -/
lemma keypair_of_load {validity : Validity} {pair : Keypair}
    (loaded : v.load a = .ok (KeypairRecord.make a validity pair).render) :
    v.keypair a = .ok pair := by
  simp only [keypair, loaded, bind, Except.bind, decodePublic_render, decodeSecret_render]
  rfl

/-- A facility that had no record has that of the keypair that it generated. -/
lemma keypair_of_generate {validity : Validity} {pair : Keypair} (truthful : v.Truthful)
    (absent : v.load a = .error (.notFound a))
    (done : KeyFacility.generate a validity pair v = (.ok (), v')) : v'.keypair a = .ok pair := by
  obtain ⟨fault, failed⟩ | ⟨_, made, -, kept, -⟩ := generate_cases v a validity pair
  · cases failed.symm.trans done
  · cases made.symm.trans done
    have answers := (answers_of_absent truthful absent).generate done
    exact keypair_of_load (load_of_answers answers kept)

/-- Both halves are fetched from one record. -/
lemma fetchKeypair_eq (v : Vault) (a : String) :
    fetchKeypair a v = (((v.keypair a).mapError .error).map fun pair => ⟨a, pair⟩, v) := by
  simp only [fetchKeypair, bind, Attempt.bind, publicKey_eq, secretKey_eq, keypair]
  cases loaded : v.load a with
  | error fault => rfl
  | ok text =>
    simp only [Except.bind]
    cases decodePublic a text with
    | error fault => rfl
    | ok publicKey =>
      simp only [Except.mapError, loaded]
      cases decodeSecret a text <;> rfl

/-- What is looked up has one of these sources. -/
lemma provision_source (suite : Suite) (chance : Chance) (a : String) (v : Vault) :
    ∃ found v', v.Source suite chance a found v' ∧
      provision suite chance a v = (found.map fun pair => ⟨a, pair⟩, v') := by
  have fetched {v' : Vault} (there : ensureKeypair suite chance a v = (.ok (), v')) :
      provision suite chance a v =
        (((v'.keypair a).mapError .error).map fun pair => ⟨a, pair⟩, v') :=
    (provision_of_ensured there).trans (fetchKeypair_eq v' a)
  have asked := ensureKeypair_eq suite chance a v
  cases loaded : v.load a with
  | ok text =>
    rw [loaded] at asked
    have held (b : String) : v.load a ≠ .error (.notFound b) := by
      intro absent
      cases loaded.symm.trans absent
    exact ⟨_, v, .held held, fetched asked⟩
  | error fault =>
    rw [loaded] at asked
    cases fault with
    | unavailable | corrupt =>
      have held (b : String) : v.load a ≠ .error (.notFound b) := by
        intro absent
        cases loaded.symm.trans absent
      refine ⟨_, v, .held held, ?_⟩
      rw [provision_of_stopped asked, keypair, loaded]
      rfl
    | notFound b =>
      cases load_notFound loaded
      cases year : Validity.oneYearFrom? chance.now with
      | none =>
        simp only [year] at asked
        exact ⟨_, v, .late loaded year, provision_of_stopped asked⟩
      | some validity =>
        simp only [year] at asked
        rcases generate_cases v a validity (suite.keypair chance.keypairSecret) with
          ⟨fault, failed⟩ | ⟨v', done, -⟩
        · exact ⟨_, v, .refused loaded year failed, provision_of_stopped (asked.trans failed)⟩
        · exact ⟨_, v', .generated loaded year done fun truthful =>
            keypair_of_generate truthful loaded done, fetched (asked.trans done)⟩

end Vault

/-! ## After another alias or a reopening -/

/-- What a use comes to that goes by the alias, and by what is found for it, alone. -/
def Shared.Use.outcome (suite : Suite) (chance : Chance) (a : String) (use : Use) (f : φ) :
    Except (Halt KeyError) Keypair → Except (Halt Error) String × Envelope × φ
  | .ok pair =>
    ((use.finish suite chance pair).mapError .error, ⟨some a, some ⟨a, pair⟩, false⟩, f)
  | .error (.error fault) => (.error (.error (.keyFacility fault)), ⟨some a, none, false⟩, f)
  | .error .crash => (.error .crash, ⟨some a, none, true⟩, f)

namespace Envelope

variable {suite : Suite} {chance : Chance} {e e' : Envelope} {a b : String}

/-- No keypair is at hand, and nothing is in the way of looking one up. -/
def Open (e : Envelope) : Prop := e.key = none ∧ e.poisoned = false

/-- Whatever aliases are chosen first, and whatever is refused, no call comes to the facility; and
the first use that needs a keypair goes by the record that the facility then has for the active
alias, or has generated then. -/
def GoesByRecord (e : Envelope) : Prop :=
  ∀ (suite : Suite) (v : Vault) (os : List (Occurrence Vault)),
    (∀ call ∈ occurredCalls os, call.2.Idle) →
    ∃ answers e', e.occur suite v os = (answers, e', changedBy os v) ∧
      ∀ a, e'.activeAlias = some a → ∀ (chance : Chance) (use : Use), use.argument ≠ "" →
        ∃ found v', (changedBy os v).Source suite chance a found v' ∧
          use.whole suite chance e' (changedBy os v) = use.outcome suite chance a v' found

/-- To choose an alias keeps an envelope open. -/
lemma Open.setAlias (opened : e.Open) (chosen : e.setAlias b = .ok e') : e'.Open := by
  obtain ⟨none, healthy⟩ := opened
  rw [Envelope.setAlias, healthy] at chosen
  split at chosen
  next => cases chosen
  next =>
    rw [if_neg Bool.false_ne_true] at chosen
    split at chosen
    next =>
      cases chosen
      exact ⟨none, healthy⟩
    next =>
      cases chosen
      exact ⟨rfl, rfl⟩

/-- An idle call asks the facility nothing and keeps the envelope open. -/
lemma perform_idle [KeyFacility φ] (opened : e.Open) (suite : Suite) (chance : Chance)
    {c : EnvelopeCall} (idle : c.Idle) (f : φ) :
    ∃ answer e', c.perform suite chance e f = (answer, e', f) ∧ e'.Open := by
  cases c with
  | uses use =>
    have empty : use.argument = "" := idle
    have refused : use.whole suite chance e f =
        (.error (.error (.invalidArgument use.emptyFault)), e, f) := by
      rw [use.whole_eq, if_pos empty]
    rw [EnvelopeCall.perform, refused]
    exact ⟨_, e, rfl, opened⟩
  | chooses b =>
    rw [EnvelopeCall.perform]
    cases chosen : e.setAlias b with
    | ok e' => exact ⟨_, e', rfl, opened.setAlias chosen⟩
    | error error => exact ⟨_, e, rfl, opened⟩

/-- Idle calls, amid whatever changes, ask the facility nothing. -/
lemma occur_idle [KeyFacility φ] (opened : e.Open) {os : List (Occurrence φ)}
    (idle : ∀ call ∈ occurredCalls os, call.2.Idle) (f : φ) :
    ∃ answers e', e.occur suite f os = (answers, e', changedBy os f) ∧ e'.Open := by
  induction os generalizing e f with
  | nil => exact ⟨[], e, rfl, opened⟩
  | cons o os ih =>
    cases o with
    | change g => exact ih opened idle (g f)
    | call chance c =>
      obtain ⟨first, rest⟩ := List.forall_mem_cons.1 idle
      obtain ⟨answer, e₁, performed, opened₁⟩ :=
        perform_idle opened suite chance first f
      obtain ⟨answers, e₂, occurred, opened₂⟩ := ih opened₁ rest f
      refine ⟨answer :: answers, e₂, ?_, opened₂⟩
      rw [occur, performed]
      dsimp only
      rw [occurred]
      rfl

/-- Another alias drops the keypair at hand. -/
lemma open_of_other (healthy : e.poisoned = false) (chosen : e.keyAlias = some a) (other : b ≠ a)
    (named : e.setAlias b = .ok e') : e'.activeAlias = some b ∧ e'.Open := by
  have changed : e.keyAlias ≠ some b := by
    rw [chosen]
    exact fun same => other (Option.some.inj same).symm
  rw [setAlias, healthy, if_neg Bool.false_ne_true, if_neg changed] at named
  split at named
  next => cases named
  next =>
    cases named
    exact ⟨rfl, rfl, rfl⟩

/-- A use that has to look its keypair up goes by its source. -/
lemma whole_of_open (opened : e.Open) (active : e.activeAlias = some a) {use : Use}
    (given : use.argument ≠ "") (v : Vault) :
    ∃ found v', v.Source suite chance a found v' ∧
      use.whole suite chance e v = use.outcome suite chance a v' found := by
  obtain ⟨found, v', source, provided⟩ := Vault.provision_source suite chance a v
  refine ⟨found, v', source, ?_⟩
  obtain ⟨keyAlias, key, poisoned⟩ := e
  obtain ⟨rfl, rfl⟩ := opened
  cases active
  simp only [use.whole_eq, if_neg given, ready, provided]
  rcases found with (fault | _) | pair
  · rfl
  · rfl
  · rfl

/-- An open envelope goes by what the facility has on record. -/
lemma Open.goesByRecord (opened : e.Open) : e.GoesByRecord := by
  intro suite v os idle
  obtain ⟨answers, e', occurred, opened'⟩ := occur_idle opened idle v
  refine ⟨answers, e', occurred, fun a active chance use given => ?_⟩
  exact whole_of_open opened' active given _

/-- With its keypair at hand, an envelope gives the same answers to the same calls and random
choices over any two facilities, whatever others do to them in between, as long as no other alias is
asked for. It stays as it is, and the facility gets no call. Once another alias is chosen, or a
typed store opened anew, it goes by the record that the facility has at the first use. -/
theorem ready_envelope_needs_no_facility (ready : e.isReady = true)
    (active : e.activeAlias = some a) :
    (∀ {φ ψ : Type} [KeyFacility φ] [KeyFacility ψ] (suite : Suite) (f : φ) (g : ψ)
      (os : List (Occurrence φ)) (os' : List (Occurrence ψ)),
      (∀ call ∈ occurredCalls os, call.2.Keeps a) → occurredCalls os = occurredCalls os' →
      (e.occur suite f os).1 = (e.occur suite g os').1 ∧
      (e.occur suite f os).2 = (e, changedBy os f) ∧
      (e.occur suite (⟨f, []⟩ : Journaled φ) (os.map .journaled)).2.2.journal = []) ∧
    (∀ b e', b ≠ a → e.setAlias b = .ok e' → e'.activeAlias = some b ∧ e'.GoesByRecord) ∧
    ∀ (s : Session) (seat : Seat), s.newSeat = .ok seat → seat.envelope.GoesByRecord := by
  obtain ⟨healthy, chosen⟩ := activeAlias_eq_some.1 active
  rw [isReady, healthy] at ready
  obtain ⟨handle, hand⟩ := Option.isSome_iff_exists.1 ready
  refine ⟨fun {φ ψ} _ _ suite f g os os' keeps same => ⟨?_, ?_, ?_⟩, ?_, ?_⟩
  · rw [occur_of_hand healthy hand chosen keeps, same,
      occur_of_hand healthy hand chosen (same ▸ keeps)]
  · rw [occur_of_hand healthy hand chosen keeps]
  · have keeps' : ∀ call ∈ occurredCalls (os.map .journaled), call.2.Keeps a := by
      rwa [occurredCalls_journaled]
    rw [occur_of_hand healthy hand chosen keeps', changedBy_journaled]
  · intro b e' other named
    obtain ⟨active', opened⟩ := open_of_other healthy chosen other named
    exact ⟨active', opened.goesByRecord⟩
  · intro s seat fresh
    have opened : seat.envelope.Open := Session.newSeat_fresh fresh
    exact opened.goesByRecord

/-- An envelope goes on with its keypair while the facility is switched off, and with another alias
seals for the keypair that the facility has for that one. -/
theorem ready_envelope_outlasts_outage :
    let chance : Chance := .sample 3
    let pair := Suite.standard.keypair ⟨.replicate 32 5, rfl⟩
    let other := Suite.standard.keypair ⟨.replicate 32 9, rfl⟩
    let e : Envelope := ⟨some "a", some ⟨"a", pair⟩, false⟩
    let record := (KeypairRecord.make "b" ⟨chance.now, chance.now⟩ other).render
    let up : Vault := .memory { records := Table.insert ∅ "b" record }
    let off : Vault := .memory { unavailable := true }
    let first : Occurrence Vault := .call chance (.uses (.seals "x"))
    let second : Occurrence Vault := .call chance (.uses (.opens "y"))
    (e.occur .standard up [first, .change fun _ => off, second]).2 = (e, off) ∧
      (e.occur .standard up [first, .change fun _ => off, second]).1 =
        (e.occur .standard off [first, second]).1 ∧
      ∃ e', e.setAlias "b" = .ok e' ∧ (Use.seals "z").whole .standard chance e' up =
        (.ok (Suite.standard.sealFor other.publicKey chance.ephemeral chance.nonce "z").render,
          ⟨some "b", some ⟨"b", other⟩, false⟩, up) := by
  intro chance pair other e record up off first second
  obtain ⟨alike, chosen, -⟩ := ready_envelope_needs_no_facility (e := e) (a := "a") rfl rfl
  have keeps : ∀ call ∈ occurredCalls [first, .change fun _ => off, second], call.2.Keeps "a" := by
    rintro call (_ | ⟨_, _ | ⟨_, there⟩⟩)
    · exact trivial
    · exact trivial
    · cases there
  obtain ⟨same, left, -⟩ := alike .standard up off _ [first, second] keeps rfl
  refine ⟨left, same, _, rfl, ?_⟩
  have loaded : up.load "b" = .ok record := by
    have kept : (Table.insert ∅ "b" record).get? "b" = some record := Table.get?_insert_self _ _ _
    exact Vault.load_of_answers rfl (congrArg (Option.map utf8) kept)
  obtain ⟨-, byRecord⟩ := chosen "b" _ (by decide) rfl
  obtain ⟨answers, e', occurred, uses⟩ := byRecord .standard up [] (List.forall_mem_nil _)
  cases occurred
  obtain ⟨found, v', source, result⟩ := uses "b" rfl chance (.seals "z") (by decide)
  refine Eq.trans result ?_
  rw [changedBy] at source
  -- the facility has a record for the other alias
  cases source with
  | held =>
    rw [Vault.keypair_of_load loaded]
    rfl
  | generated absent | refused absent | late absent => cases loaded.symm.trans absent

end Envelope

end Preferences
