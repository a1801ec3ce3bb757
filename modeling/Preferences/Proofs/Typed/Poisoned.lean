import Preferences.Keys.Memory
import Preferences.Proofs.Envelope.Shared
import Preferences.Store.Memory
import Preferences.Typed.Request

/-!
# Typed stores after a crash

A crash while a keypair is looked up leaves the store alone and poisons the envelope. From then on
requests that need the envelope are refused before they come to the store or to the key facility,
and all other requests are answered as by a typed store that has never crashed. Main statement:
`poisoning_is_contained`.
-/

namespace Preferences

namespace Request

/-- Does the request need the envelope? -/
def confidential : Request → Bool
  | setAlias _ | activeAlias | isReady | encrypt _ | decrypt _ | setSealed .. | getSealed _ => true
  | _ => false

/-- Does the request put a sealed text into the store? -/
def putsSealed : Request → Bool
  | setSealed .. => true
  | _ => false

end Request

namespace Envelope

variable {φ : Type} [KeyFacility φ] {suite : Suite} {chance : Chance} {e : Envelope} {f : φ}

/-- Nothing but the look-up of a keypair crashes, and that poisons the envelope. -/
lemma ready_crash (crashed : (e.ready suite chance f).1 = .error .crash) :
    (e.ready suite chance f).2.1.poisoned = true := by
  rw [ready] at crashed ⊢
  split at crashed
  next => cases crashed
  next healthy =>
    rw [if_neg healthy]
    split at crashed
    next => cases crashed
    next =>
      split at crashed
      next => cases crashed
      next =>
        split at crashed
        next => cases crashed
        next => cases crashed
        next => rfl

/-- A use of the envelope that crashes leaves it poisoned. -/
lemma use_crash {use : Shared.Use} (crashed : (use.whole suite chance e f).1 = .error .crash) :
    (use.whole suite chance e f).2.1.poisoned = true := by
  rw [use.whole_eq] at crashed ⊢
  split at crashed
  next => cases crashed
  next given =>
    rw [if_neg given]
    have looked : (e.ready suite chance f).1 = .error .crash →
        (e.ready suite chance f).2.1.poisoned = true := ready_crash
    rcases out : e.ready suite chance f with ⟨stop | handle, e', f'⟩
    · rw [out] at crashed looked
      cases crashed
      exact looked rfl
    · rw [out] at crashed
      dsimp only at crashed
      cases finished : use.finish suite chance handle.pair <;> rw [finished] at crashed <;>
        cases crashed

/-- A poisoned envelope is of no use. -/
lemma use_poisoned (poisoned : e.poisoned = true) (use : Shared.Use) :
    use.whole suite chance e f = (.error (.error
      (if use.argument = "" then .invalidArgument use.emptyFault else poisonedError)), e, f) := by
  rw [use.whole_eq, ready, if_pos poisoned]
  split <;> rfl

end Envelope

namespace TypedStore

variable {σ φ ψ : Type} {s : TypedStore σ φ} {t : TypedStore σ ψ} {r : Request}

/-- The typed store over another key facility, all else the same. -/
def withFacility (s : TypedStore σ φ) (g : ψ) : TypedStore σ ψ :=
  { store := s.store
    facility := g
    envelope := s.envelope
    registry := s.registry
    calls := s.calls
    supply := s.supply
    suite := s.suite }

/-- The same values and the same adapters. -/
def SameView (s : TypedStore σ φ) (t : TypedStore σ ψ) : Prop :=
  t.store = s.store ∧ t.registry = s.registry

section Refusal

variable [Store σ]

/-- What a request for the envelope is checked for before the envelope is used. -/
def precheck (s : TypedStore σ φ) : Request → Except Error Unit
  | .setAlias keyAlias =>
    if keyAlias = "" then .error (.invalidArgument .emptyAlias) else .ok ()
  | .encrypt text => if text = "" then .error (.invalidArgument .emptyPlaintext) else .ok ()
  | .decrypt sealedText =>
    if sealedText = "" then .error (.invalidArgument .emptyCiphertext) else .ok ()
  | .setSealed key text => do
    requireKey key
    if text = "" then .error (.invalidArgument .emptyPlaintext)
  | .getSealed key => do
    requireKey key
    let sealedText ← (Store.get s.store .string key "").mapError .store
    if sealedText = "" then .error (.invalidArgument .emptyCiphertext)
  | _ => .ok ()

/-- The answer to a request for an envelope that is poisoned. -/
def refusal (s : TypedStore σ φ) : Request → Except (Halt Error) Reply
  | .activeAlias => .ok (.activeAlias none)
  | .isReady => .ok (.flag false)
  | r =>
    match s.precheck r with
    | .error e => .error (.error e)
    | .ok _ => .error (.error Envelope.poisonedError)

/-- With the same values and the same adapters a request is refused alike. -/
lemma refusal_eq (same : s.SameView t) (r : Request) : t.refusal r = s.refusal r := by
  have checked (r : Request) : t.precheck r = s.precheck r := by
    cases r <;> simp only [precheck, same.1]
  cases r <;> simp only [refusal, checked]

end Refusal

section Use

variable [KeyFacility φ]

/-- The two uses of the envelope, with the random choices of the next turn. -/
def useEnvelope (s : TypedStore σ φ) (use : Shared.Use) :
    Except (Halt Error) String × TypedStore σ φ :=
  let (result, envelope, facility) := use.whole s.suite s.supply.next.1 s.envelope s.facility
  (result, { s with envelope, facility, supply := s.supply.next.2 })

/-- To seal a text is a use of the envelope. -/
lemma encrypt_eq (text : String) : s.encrypt text = s.useEnvelope (.seals text) := rfl

/-- To open a sealed text is a use of the envelope. -/
lemma decrypt_eq (text : String) : s.decrypt text = s.useEnvelope (.opens text) := rfl

/-- A use that crashes leaves the values and the adapters alone and poisons the envelope. -/
lemma useEnvelope_crash (use : Shared.Use) (crashed : (s.useEnvelope use).1 = .error .crash) :
    s.SameView (s.useEnvelope use).2 ∧ (s.useEnvelope use).2.envelope.poisoned = true :=
  ⟨⟨rfl, rfl⟩, Envelope.use_crash crashed⟩

/-- Once its envelope is poisoned every use is refused for that, but an empty text for being empty.
-/
lemma useEnvelope_poisoned (poisoned : s.envelope.poisoned = true) (use : Shared.Use) :
    s.useEnvelope use = (.error (.error (if use.argument = "" then .invalidArgument use.emptyFault
      else Envelope.poisonedError)), { s with supply := s.supply.next.2 }) := by
  rw [useEnvelope, Envelope.use_poisoned poisoned]

end Use

variable [Store σ] [KeyFacility φ] [KeyFacility ψ]

/-! ## Requests that do without the envelope -/

/-- A request that does without the envelope has the same answer whatever the envelope and the key
facility are, and does not come to either. -/
lemma perform_plain (same : s.SameView t) (plain : r.confidential = false) :
    (t.perform r).1 = (s.perform r).1 ∧ (s.perform r).2.SameView (t.perform r).2 ∧
      (s.perform r).2.envelope = s.envelope ∧ (s.perform r).2.facility = s.facility := by
  obtain ⟨store, f, e, registry, calls, supply, suite⟩ := s
  obtain ⟨store', g, e', registry', calls', supply', suite'⟩ := t
  obtain ⟨rfl, rfl⟩ : store' = store ∧ registry' = registry := same
  cases r with
  | setAlias | activeAlias | isReady | encrypt | decrypt | setSealed | getSealed => cases plain
  | addAdapter | hasAdapter | serialize | deserialize | storeRead | storeGet | storeContains =>
    exact ⟨rfl, ⟨rfl, rfl⟩, rfl, rfl⟩
  | get type key default =>
    simp only [perform, get]
    cases requireKey key <;> exact ⟨rfl, ⟨rfl, rfl⟩, rfl, rfl⟩
  | set type key v mode =>
    simp only [perform, set]
    cases requireKey key with
    | error => exact ⟨rfl, ⟨rfl, rfl⟩, rfl, rfl⟩
    | ok =>
      rcases toStored registry' type v with ⟨error | stored, calls⟩ <;>
        exact ⟨rfl, ⟨rfl, rfl⟩, rfl, rfl⟩
  | contains key =>
    simp only [perform, contains]
    cases requireKey key <;> exact ⟨rfl, ⟨rfl, rfl⟩, rfl, rfl⟩
  | stage w finish =>
    simp only [perform, stage]
    cases Store.contains store' w.key with
    | error => exact ⟨rfl, ⟨rfl, rfl⟩, rfl, rfl⟩
    | ok => cases finish <;> exact ⟨rfl, ⟨rfl, rfl⟩, rfl, rfl⟩

/-- Of the requests for the envelope only a sealed write comes to the store. -/
lemma perform_confidential (confidential : r.confidential = true) (read : r.putsSealed = false) :
    s.SameView (s.perform r).2 := by
  cases r with
  | get | set | contains | addAdapter | hasAdapter | serialize | deserialize | storeRead | storeGet
    | storeContains | stage => cases confidential
  | setSealed => cases read
  | activeAlias | isReady | encrypt | decrypt => exact ⟨rfl, rfl⟩
  | setAlias keyAlias =>
    simp only [perform, setAlias]
    cases s.envelope.setAlias keyAlias <;> exact ⟨rfl, rfl⟩
  | getSealed key =>
    simp only [perform, getSealed, get]
    cases requireKey key with
    | error => exact ⟨rfl, rfl⟩
    | ok =>
      dsimp only
      cases (readAs s.store s.registry (.primitive .string) key none).1 <;> exact ⟨rfl, rfl⟩

/-! ## Requests for a poisoned envelope -/

/-- To get a sealed text is to read it and to open it. -/
lemma getSealed_eq (key : String) : s.getSealed key =
    match requireKey key with
    | .error e => (.error (.error e), s)
    | .ok _ =>
      match Store.get s.store .string key "" with
      | .error e => (.error (.error (.store e)), s)
      | .ok sealedText => s.useEnvelope (.opens sealedText) := by
  rw [getSealed, get]
  cases requireKey key with
  | error => rfl
  | ok =>
    simp only [readAs, Option.getD_none, Primitive.zero]
    cases Store.get s.store .string key "" <;> rfl

/-- A sealed write that crashes does so where it seals, and writes nothing. -/
lemma setSealed_crash {key text : String} (crashed : (s.setSealed key text).1 = .error .crash) :
    s.SameView (s.setSealed key text).2 ∧ (s.setSealed key text).2.envelope.poisoned = true := by
  rw [setSealed, encrypt_eq] at crashed ⊢
  cases given : requireKey key with
  | error =>
    rw [given] at crashed
    cases crashed
  | ok =>
    rw [given] at crashed
    have used := useEnvelope_crash (s := s) (.seals text)
    rcases out : s.useEnvelope (.seals text) with ⟨stop | sealedText, s'⟩
    · simp only [out] at crashed used
      cases crashed
      exact used rfl
    · simp only [out] at crashed
      cases stored : (s'.set (.primitive .string) key sealedText .apply).1 <;>
        rw [stored] at crashed <;> cases crashed

/-- A sealed read that crashes does so where it opens what it has read. -/
lemma getSealed_crash {key : String} (crashed : (s.getSealed key).1 = .error .crash) :
    s.SameView (s.getSealed key).2 ∧ (s.getSealed key).2.envelope.poisoned = true := by
  rw [getSealed_eq] at crashed ⊢
  cases given : requireKey key with
  | error =>
    rw [given] at crashed
    cases crashed
  | ok =>
    rw [given] at crashed
    cases found : Store.get s.store .string key "" with
    | error =>
      rw [found] at crashed
      cases crashed
    | ok =>
      rw [found] at crashed
      exact useEnvelope_crash _ crashed

/-- A crash leaves the values and the adapters alone and poisons the envelope. -/
lemma perform_crash (crashed : (s.perform r).1 = .error .crash) :
    s.SameView (s.perform r).2 ∧ (s.perform r).2.envelope.poisoned = true := by
  have replied {α : Type} {f : α → Reply} {x : Except Error α × TypedStore σ φ} :
      (reply f x).1 ≠ .error .crash := by
    obtain ⟨result, s'⟩ := x
    cases result <;> nofun
  have passed {α : Type} {f : α → Reply} {x : Except (Halt Error) α × TypedStore σ φ}
      (crashed : (replyOrCrash f x).1 = .error .crash) : x.1 = .error .crash := by
    obtain ⟨_ | _, s'⟩ := x
    · exact congrArg _ (Except.error.inj crashed)
    · cases crashed
  cases r with
  | get | set | contains | serialize | deserialize | setAlias | storeRead | storeGet
    | storeContains | stage => exact absurd crashed replied
  | addAdapter | hasAdapter | activeAlias | isReady => cases crashed
  | encrypt text => exact useEnvelope_crash (.seals text) (passed crashed)
  | decrypt text => exact useEnvelope_crash (.opens text) (passed crashed)
  | setSealed => exact setSealed_crash (passed crashed)
  | getSealed => exact getSealed_crash (passed crashed)

/-- A request for a poisoned envelope is refused and leaves everything alone, but for the random
choices that it was given. -/
lemma perform_poisoned (poisoned : s.envelope.poisoned = true)
    (confidential : r.confidential = true) :
    ∃ supply, s.perform r = (s.refusal r, { s with supply }) := by
  have used := useEnvelope_poisoned poisoned
  cases r with
  | get | set | contains | addAdapter | hasAdapter | serialize | deserialize | storeRead | storeGet
    | storeContains | stage => cases confidential
  | activeAlias =>
    refine ⟨s.supply, ?_⟩
    simp only [perform, refusal, Envelope.activeAlias, poisoned, if_true]
  | isReady =>
    refine ⟨s.supply, ?_⟩
    simp only [perform, refusal, Envelope.isReady, poisoned, Bool.not_true, Bool.false_and]
  | setAlias keyAlias =>
    refine ⟨s.supply, ?_⟩
    simp only [perform, refusal, precheck, setAlias, Envelope.setAlias, poisoned, if_true]
    by_cases empty : keyAlias = "" <;> simp only [empty, if_true, if_false] <;> rfl
  | encrypt text =>
    refine ⟨s.supply.next.2, ?_⟩
    simp only [perform, refusal, precheck, encrypt_eq, used, Shared.Use.argument]
    by_cases empty : text = "" <;> simp only [empty, if_true, if_false] <;> rfl
  | decrypt text =>
    refine ⟨s.supply.next.2, ?_⟩
    simp only [perform, refusal, precheck, decrypt_eq, used, Shared.Use.argument]
    by_cases empty : text = "" <;> simp only [empty, if_true, if_false] <;> rfl
  | setSealed key text =>
    simp only [perform, refusal, precheck, setSealed, encrypt_eq, used, Shared.Use.argument, bind,
      Except.bind]
    cases requireKey key with
    | error => exact ⟨s.supply, rfl⟩
    | ok =>
      refine ⟨s.supply.next.2, ?_⟩
      by_cases empty : text = "" <;> simp only [empty, if_true, if_false] <;> rfl
  | getSealed key =>
    simp only [perform, refusal, precheck, getSealed_eq, used, Shared.Use.argument, bind,
      Except.bind]
    cases requireKey key with
    | error => exact ⟨s.supply, rfl⟩
    | ok =>
      cases Store.get s.store .string key "" with
      | error => exact ⟨s.supply, rfl⟩
      | ok sealedText =>
        refine ⟨s.supply.next.2, ?_⟩
        by_cases empty : sealedText = "" <;>
          simp only [empty, Except.mapError, if_true, if_false] <;> rfl

/-! ## Steps and runs -/

/-- The answers to those requests of a run that do without the envelope. -/
def plainAnswers (s : TypedStore σ φ) : List Request → List (Except (Halt Error) Reply)
  | [] => []
  | r :: rs =>
    if r.confidential then (s.perform r).2.plainAnswers rs
    else (s.perform r).1 :: (s.perform r).2.plainAnswers rs

/-- A typed store with a poisoned envelope keeps it so, and never comes to its key facility. -/
lemma perform_of_poisoned (poisoned : s.envelope.poisoned = true) (r : Request) :
    (s.perform r).2.envelope.poisoned = true ∧ (s.perform r).2.facility = s.facility := by
  cases confidential : r.confidential with
  | true =>
    obtain ⟨supply, refused⟩ := perform_poisoned poisoned confidential
    rw [refused]
    exact ⟨poisoned, rfl⟩
  | false =>
    obtain ⟨-, -, envelope, facility⟩ := perform_plain (s := s) (t := s) ⟨rfl, rfl⟩ confidential
    exact ⟨envelope ▸ poisoned, facility⟩

/-- Once its envelope is poisoned it stays so, and the facility is left alone. -/
lemma performAll_of_poisoned (poisoned : s.envelope.poisoned = true) (rs : List Request) :
    (s.performAll rs).2.envelope.poisoned = true ∧ (s.performAll rs).2.facility = s.facility := by
  induction rs generalizing s with
  | nil => exact ⟨poisoned, rfl⟩
  | cons r rs ih =>
    obtain ⟨poisoned', kept⟩ := perform_of_poisoned poisoned r
    obtain ⟨poisoned'', kept'⟩ := ih poisoned'
    exact ⟨poisoned'', kept'.trans kept⟩

/-- Nothing that a typed store with a poisoned envelope answers depends on its key facility. -/
lemma perform_of_both_poisoned (same : s.SameView t) (poisoned : s.envelope.poisoned = true)
    (poisoned' : t.envelope.poisoned = true) (r : Request) :
    (t.perform r).1 = (s.perform r).1 ∧ (s.perform r).2.SameView (t.perform r).2 := by
  cases confidential : r.confidential with
  | true =>
    obtain ⟨supply, refused⟩ := perform_poisoned poisoned confidential
    obtain ⟨supply', refused'⟩ := perform_poisoned poisoned' confidential
    rw [refused, refused']
    exact ⟨refusal_eq same r, same⟩
  | false =>
    obtain ⟨answer, view, -⟩ := perform_plain same confidential
    exact ⟨answer, view⟩

/-- With both envelopes poisoned, the same values and the same adapters requests are answered alike.
-/
lemma performAll_of_both_poisoned (same : s.SameView t) (poisoned : s.envelope.poisoned = true)
    (poisoned' : t.envelope.poisoned = true) (rs : List Request) :
    (t.performAll rs).1 = (s.performAll rs).1 := by
  induction rs generalizing s t with
  | nil => rfl
  | cons r rs ih =>
    obtain ⟨answer, same'⟩ := perform_of_both_poisoned same poisoned poisoned' r
    have answers := ih same' (perform_of_poisoned poisoned r).1 (perform_of_poisoned poisoned' r).1
    exact congrArg₂ _ answer answers

/-- Requests for the envelope that put no sealed text into the store make no difference to the
others: these might be all that was asked, and of any other typed store. -/
lemma plainAnswers_eq (rs : List Request) (same : s.SameView t)
    (quiet : s.envelope.poisoned = true ∨ ∀ r ∈ rs, r.putsSealed = false) :
    s.plainAnswers rs = (t.performAll (rs.filter (!·.confidential))).1 := by
  induction rs generalizing s t with
  | nil => rfl
  | cons r rs ih =>
    have quiet' : (s.perform r).2.envelope.poisoned = true ∨ ∀ r ∈ rs, r.putsSealed = false :=
      quiet.imp (fun poisoned => (perform_of_poisoned poisoned r).1)
        fun unsealed r mem => unsealed r (.tail _ mem)
    cases confidential : r.confidential with
    | true =>
      -- a poisoned envelope refuses, and another one seals without putting anything
      have kept : s.SameView (s.perform r).2 := by
        rcases quiet with poisoned | unsealed
        · obtain ⟨supply, refused⟩ := perform_poisoned poisoned confidential
          rw [refused]
          exact ⟨rfl, rfl⟩
        · exact perform_confidential confidential (unsealed r (.head _))
      have view : (s.perform r).2.SameView t :=
        ⟨same.1.trans kept.1.symm, same.2.trans kept.2.symm⟩
      rw [plainAnswers, if_pos confidential, List.filter_cons_of_neg (by simp [confidential])]
      exact ih view quiet'
    | false =>
      obtain ⟨answer, view, -⟩ := perform_plain same confidential
      rw [plainAnswers, if_neg (by simp [confidential]), ih view quiet', ← answer,
        List.filter_cons_of_pos (by simp [confidential])]
      rfl

/-- Once a look-up of a keypair has crashed, the values are as they were, and whatever is asked
next: the key facility is not called (with any other in its place the answers would be the same,
and it would be left as it is); what needs the envelope is refused and changes neither values nor
adapters; and the other answers are those of a typed store that has not crashed, whether that is
asked for nothing else, or for all the same but no sealed writes. -/
theorem poisoning_is_contained {σ φ : Type} [Store σ] [KeyFacility φ] {s p : TypedStore σ φ}
    {r : Request} (crashed : s.perform r = (.error .crash, p)) :
    s.SameView p ∧ ∀ rs : List Request,
      let q := (p.performAll rs).2
      q.facility = p.facility ∧
      (∀ (ψ : Type) [KeyFacility ψ] (g : ψ),
        ((p.withFacility g).performAll rs).1 = (p.performAll rs).1 ∧
          ((p.withFacility g).performAll rs).2.facility = g) ∧
      (∀ c : Request, c.confidential = true →
        (q.perform c).1 = q.refusal c ∧ q.SameView (q.perform c).2 ∧
          (q.perform c).2.facility = q.facility) ∧
      ∀ (ψ : Type) [KeyFacility ψ] (t : TypedStore σ ψ), s.SameView t →
        p.plainAnswers rs = (t.performAll (rs.filter (!·.confidential))).1 ∧
          ((∀ r ∈ rs, r.putsSealed = false) → p.plainAnswers rs = t.plainAnswers rs) := by
  obtain ⟨same, poisoned⟩ : s.SameView p ∧ p.envelope.poisoned = true := by
    simpa only [crashed] using perform_crash (congrArg Prod.fst crashed)
  refine ⟨same, fun rs => ⟨(performAll_of_poisoned poisoned rs).2, fun ψ _ g => ?_,
    fun c needs => ?_, fun ψ _ t view => ?_⟩⟩
  · have poisoned' : (p.withFacility g).envelope.poisoned = true := poisoned
    have view : p.SameView (p.withFacility g) := ⟨rfl, rfl⟩
    exact ⟨performAll_of_both_poisoned view poisoned poisoned' rs,
      (performAll_of_poisoned poisoned' rs).2⟩
  · obtain ⟨supply, refused⟩ := perform_poisoned (performAll_of_poisoned poisoned rs).1 needs
    rw [refused]
    exact ⟨rfl, ⟨rfl, rfl⟩, rfl⟩
  · have view' : p.SameView t := ⟨view.1.trans same.1.symm, view.2.trans same.2.symm⟩
    have answers := plainAnswers_eq rs view' (.inl poisoned)
    refine ⟨answers, fun unsealed => ?_⟩
    rw [answers, plainAnswers_eq (s := t) (t := t) rs ⟨rfl, rfl⟩ (.inr unsealed)]

/-- The facility crashes while a text is being sealed. A value can still be put and read, beside a
sealed write and a look at the alias that come to nothing, and the facility is not called again. -/
theorem crashed_store_keeps_values :
    let s : TypedStore MemoryStore (Trapped MemoryFacility) :=
      { store := {}, facility := ⟨{}, true⟩, envelope := { keyAlias := some "a" }
        supply := .sample }
    let rs : List Request := [.setSealed "k" "secret", .set (.primitive .bool) "k" true .apply,
      .activeAlias, .get (.primitive .bool) "k" none]
    ∃ p, s.perform (.encrypt "text") = (.error .crash, p) ∧
      p.plainAnswers rs = [.ok .done, .ok (.value (.primitive .bool) true)] ∧
      ((p.performAll rs).2.perform (.decrypt "text")).1 = .error (.error Envelope.poisonedError) ∧
      (p.performAll rs).2.facility = ⟨{}, false⟩ := by
  intro s rs
  let t : TypedStore MemoryStore MemoryFacility :=
    { store := {}, facility := {}, supply := .sample }
  refine ⟨_, rfl, ?_⟩
  obtain ⟨-, contained⟩ := poisoning_is_contained (s := s) (r := .encrypt "text") rfl
  obtain ⟨kept, -, refused, answered⟩ := contained rs
  refine ⟨(answered _ t ⟨rfl, rfl⟩).1.trans rfl, (refused (.decrypt "text") rfl).1.trans ?_, kept⟩
  rfl

end TypedStore

end Preferences
