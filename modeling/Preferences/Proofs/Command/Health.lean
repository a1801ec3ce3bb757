import Mathlib
import Preferences.Command.Health
import Preferences.Proofs.Envelope.Accepted
import Preferences.Proofs.Outcome
import Preferences.Proofs.Typed.Provided
import Preferences.Proofs.Typed.RoundTrip

/-!
# What the health check finds

Over a map that refuses writes and lies to reads, the health check passes just where no write of a
probed key is refused and every lie about one is a value that the probe cannot tell from what was
written. What is wrong with other keys does not come into it, and their values stay. Main statement:
`health_check_finds_faults`.
-/

namespace Preferences

/-! ## Reads that lie -/

/-- A read as a kind gives what is stored as that kind, or the fallback where nothing is stored. -/
lemma Store.get_eq_ok_iff {σ : Type} [Store σ] {s : σ} {k : Primitive} {key : String}
    {fallback b : k.Carrier} : Store.get s k key fallback = .ok b ↔
      Store.read s key = .ok (some (.ofCarrier k b)) ∨
        Store.read s key = .ok none ∧ b = fallback := by
  rcases read : Store.read s key with e | v
  · rw [Store.get, read]
    exact iff_of_false (fun same => by cases same) (by simp)
  · cases v with
    | none =>
      rw [Store.get_of_none read]
      constructor
      · intro same
        exact .inr ⟨rfl, (Except.ok.inj same).symm⟩
      · rintro (same | ⟨-, rfl⟩)
        · cases same
        · rfl
    | some v =>
      by_cases kind : v.kind = k
      · obtain ⟨a, rfl⟩ : ∃ a, v = .ofCarrier k a := by
          subst kind
          cases v <;> exact ⟨_, rfl⟩
        rw [Store.get_of_carrier read]
        constructor
        · intro same
          exact .inl (by rw [Except.ok.inj same])
        · rintro (same | ⟨same, -⟩)
          · have payload := congrArg (Value.carrier? k) (Option.some.inj (Except.ok.inj same))
            rw [Value.carrier?_ofCarrier, Value.carrier?_ofCarrier] at payload
            exact congrArg Except.ok (Option.some.inj payload)
          · cases same
      · rw [Store.get_of_kind_ne read kind]
        refine iff_of_false (fun same => by cases same) ?_
        rintro (same | ⟨same, -⟩)
        · cases same
          exact kind (by cases k <;> rfl)
        · cases same

namespace FaultyStore

variable {s : FaultyStore} {key : String} {k : Primitive} {a fallback : k.Carrier}
  {good : k.Carrier → Prop}

/-- Every lie about the key is a payload of the kind that is good. -/
def Passes (s : FaultyStore) (key : String) (k : Primitive) (good : k.Carrier → Prop) : Prop :=
  ∀ lie, s.lie? key = some lie → ∃ b, lie = .value (.ofCarrier k b) ∧ good b

/-- Where what was written is good and the fallback is not, a read gives something good just where
all that is lied about the key is good. -/
lemma get_good_iff (held : s.base.values.get? key = some (.ofCarrier k a)) (honest : good a)
    (lost : ¬ good fallback) :
    (∃ b, Store.get s k key fallback = .ok b ∧ good b) ↔ s.Passes key k good := by
  have stored : (∃ b, Store.get s k key fallback = .ok b ∧ good b) ↔
      ∃ b, Store.read s key = .ok (some (.ofCarrier k b)) ∧ good b := by
    refine exists_congr fun b => and_congr_left fun fine => ?_
    rw [Store.get_eq_ok_iff, or_iff_left]
    rintro ⟨-, rfl⟩
    exact lost fine
  rw [stored, Passes]
  cases lying : s.lie? key with
  | none =>
    have read : Store.read s key = .ok (some (.ofCarrier k a)) := by
      simp only [Store.read, lying, held]
    refine iff_of_true ⟨a, read, honest⟩ fun lie told => ?_
    cases told
  | some lie => cases lie <;> simp [Store.read, lying]

end FaultyStore

/-! ## Steps of the check -/

namespace Health

variable {φ : Type} {s : TypedStore FaultyStore φ} {key : String} {k : Primitive} {β : Type} {x : β}

/-- The typed store with a value put under a key. -/
def putting (s : TypedStore FaultyStore φ) (key : String) (v : Value) (calls : Calls) :
    TypedStore FaultyStore φ :=
  { s with store := { s.store with base := s.store.base.insert key v }, calls := s.calls + calls }

/-- A key holds what was just put there. -/
@[simp]
lemma get?_putting_self (s : TypedStore FaultyStore φ) (key : String) (v : Value) (calls : Calls) :
    (putting s key v calls).store.base.values.get? key = some v :=
  Table.get?_insert_self _ _ _

/-- A key holds what it held while something is put elsewhere. -/
@[simp]
lemma get?_putting_of_ne (s : TypedStore FaultyStore φ) {key other : String} (v : Value)
    (calls : Calls) (apart : other ≠ key) :
    (putting s key v calls).store.base.values.get? other = s.store.base.values.get? other :=
  Table.get?_insert_of_ne _ _ apart

/-- A set under a name fails as the store reports, and otherwise puts the value there. -/
lemma set_eq (named : key ≠ "") {t : PrefType} {v : t.Val} {stored : Value} {calls : Calls}
    (stores : toStored s.registry t v = (.ok stored, calls)) (mode : SyncMode) :
    s.set t key v mode = match s.store.refusal? key with
      | some reason => (.error (.store (.storage (.reported reason))),
          { s with calls := s.calls + calls })
      | none => (.ok (), putting s key stored calls) := by
  simp only [TypedStore.set, requireKey, if_neg named, stores, PendingWrite.finish, Store.write]
  cases s.store.refusal? key <;> rfl

/-- A put in a check succeeds where the store takes it, and the check goes on with the value in
place. -/
lemma put_bind_eq_ok_iff (named : key ≠ "") {t : PrefType} {v : t.Val} {stored : Value}
    {calls : Calls} (stores : toStored s.registry t v = (.ok stored, calls))
    {f : Unit → Check FaultyStore φ β} : ((put t key v >>= f) s).1 = .ok x ↔
      s.store.refusal? key = none ∧ (f () (putting s key stored calls)).1 = .ok x := by
  rw [Attempt.bind_fst_eq_ok, put, set_eq named stores]
  cases s.store.refusal? key with
  | none =>
    constructor
    · rintro ⟨_, -, went⟩
      exact ⟨rfl, went⟩
    · rintro ⟨-, went⟩
      exact ⟨(), rfl, went⟩
  | some reason =>
    refine iff_of_false ?_ ?_
    · rintro ⟨_, failed, -⟩
      cases failed
    · rintro ⟨refused, -⟩
      cases refused

/-- A native kind is read as the store has it. -/
lemma fetch_native (named : key ≠ "") : fetch (.primitive k) key none s =
    ((Store.get s.store k key k.zero).mapError fun e => .error (.preferences (.store e)), s) := by
  have read : readAs s.store s.registry (.primitive k) key none =
      ((Store.get s.store k key k.zero).mapError .store, {}) := rfl
  rw [fetch, TypedStore.get_eq named, read]
  cases Store.get s.store k key k.zero <;> rfl

/-- A fetch in a check succeeds where the store gives a value of the kind, and the check goes on
with it. -/
lemma fetch_bind_eq_ok_iff (named : key ≠ "") {f : k.Carrier → Check FaultyStore φ β} :
    ((fetch (.primitive k) key none >>= f) s).1 = .ok x ↔
      ∃ b, Store.get s.store k key k.zero = .ok b ∧ (f b s).1 = .ok x := by
  rw [Attempt.bind_fst_eq_ok, fetch_native named]
  exact exists_congr fun b => and_congr_left fun _ => mapError_eq_ok_iff

/-- A structured type is decoded from the text that the store has. -/
lemma decode_bind_eq_ok_iff (named : key ≠ "") {m : Model} {default : m.Val}
    {f : m.Val → Check FaultyStore φ β} :
    ((fetch (.structured m) key (some default) >>= f) s).1 = .ok x ↔
      ∃ text, Store.get s.store .string key "" = .ok text ∧
        ∃ v, (s.registry.decode (.structured m) text default).1 = .ok v ∧
          (f v { s with
            calls := s.calls + (s.registry.decode (.structured m) text default).2 }).1 = .ok x := by
  rw [Attempt.bind_fst_eq_ok, fetch, TypedStore.get_eq named, readAs]
  cases Store.get s.store .string key "" with
  | error e =>
    refine iff_of_false ?_ (by simp)
    rintro ⟨_, failed, -⟩
    cases failed
  | ok text =>
    simp only [Except.ok.injEq, exists_eq_left']
    exact exists_congr fun v => and_congr_left fun _ => mapError_eq_ok_iff

/-- So does a fetch of a stored text. -/
lemma stored_bind_eq_ok_iff {f : String → Check FaultyStore φ β} :
    ((stored key >>= f) s).1 = .ok x ↔
      ∃ text, Store.get s.store .string key "" = .ok text ∧ (f text s).1 = .ok x := by
  rw [Attempt.bind_fst_eq_ok]
  exact exists_congr fun b => and_congr_left fun _ => mapError_eq_ok_iff

/-- A test in a check succeeds where what it tests holds. -/
lemma ensure_eq_ok_iff {good : Bool} {probe : Probe} :
    (ensure good probe s).1 = .ok () ↔ good = true := by
  cases good with
  | true => exact iff_of_true rfl rfl
  | false => exact iff_of_false nofun nofun

/-- A check goes on behind a test where what it tests holds. -/
lemma ensure_bind_eq_ok_iff {good : Bool} {probe : Probe} {f : Unit → Check FaultyStore φ β} :
    ((ensure good probe >>= f) s).1 = .ok x ↔ good = true ∧ (f () s).1 = .ok x := by
  cases good with
  | true => exact (and_iff_right rfl).symm
  | false => exact iff_of_false nofun nofun

/-- A native probe that its fallback would fail is passed just where all that is lied about it would
pass. -/
lemma probe_bind_eq_ok_iff (named : key ≠ "") {a : k.Carrier} {good : k.Carrier → Bool}
    (held : s.store.base.values.get? key = some (.ofCarrier k a)) (honest : good a = true)
    (lost : good k.zero = false) {probe : Probe} {f : Check FaultyStore φ β} :
    ((fetch (.primitive k) key none >>= fun b => ensure (good b) probe >>= fun _ => f) s).1 =
      .ok x ↔ s.store.Passes key k (good · = true) ∧ (f s).1 = .ok x := by
  have lost : ¬ good k.zero = true := by rw [lost]; decide
  rw [fetch_bind_eq_ok_iff named, ← FaultyStore.get_good_iff held honest lost, ← exists_and_right]
  refine exists_congr fun b => ?_
  rw [ensure_bind_eq_ok_iff, and_assoc]

/-- Without an adapter, decoding calls none. -/
lemma calls_decode {r : Registry} {t : PrefType} (bare : r.adapter? t = none) (text : String)
    (default : t.Val) : (r.decode t text default).2 = {} := by
  rw [Registry.decode, bare]
  split <;> rfl

/-- A structured probe that its fallback would fail is passed just where all that is lied about it
is a text from which something is decoded that would pass. -/
lemma probe_decoded_bind_eq_ok_iff (named : key ≠ "") {m : Model} {default : m.Val}
    {good : m.Val → Bool} {text : String}
    (held : s.store.base.values.get? key = some (.string text))
    (bare : s.registry.adapter? (.structured m) = none)
    (honest : ∃ v, (s.registry.decode (.structured m) text default).1 = .ok v ∧ good v = true)
    (lost : good default = false) {probe : Probe} {f : Check FaultyStore φ β} :
    ((fetch (.structured m) key (some default) >>= fun v =>
        ensure (good v) probe >>= fun _ => f) s).1 = .ok x ↔
      s.store.Passes key .string (fun text =>
        ∃ v, (s.registry.decode (.structured m) text default).1 = .ok v ∧ good v = true) ∧
      (f s).1 = .ok x := by
  -- the empty text is read as the fallback
  have lost : ¬ ∃ v, (s.registry.decode (.structured m) "" default).1 = .ok v ∧ good v = true := by
    rintro ⟨v, decoded, fine⟩
    cases (Except.ok.inj decoded : default = v)
    rw [lost] at fine
    cases fine
  rw [decode_bind_eq_ok_iff named,
    ← FaultyStore.get_good_iff (k := .string) held honest lost, ← exists_and_right]
  refine exists_congr fun text => ?_
  rw [and_assoc]
  refine and_congr_right fun _ => ?_
  rw [← exists_and_right]
  refine exists_congr fun v => ?_
  rw [ensure_bind_eq_ok_iff, calls_decode bare, and_assoc]
  rfl

/-! ## The parts of the check -/

/-- What the native probes leave. -/
def native (s : TypedStore FaultyStore φ) : TypedStore FaultyStore φ :=
  putting (putting (putting (putting s "health/long" (.long longProbe) {}) "health/int"
    (.int intProbe) {}) "health/bool" (.bool true) {}) "health/string" (.string "ok") {}

/-- The four plain values are put where the store takes all of them. -/
lemma putNative_bind_eq_ok_iff {f : Check FaultyStore φ β} :
    ((putNative >>= fun _ => f) s).1 = .ok x ↔
      (s.store.refusal? "health/long" = none ∧ s.store.refusal? "health/int" = none ∧
        s.store.refusal? "health/bool" = none ∧ s.store.refusal? "health/string" = none) ∧
      (f (native s)).1 = .ok x := by
  simp only [putNative, Attempt.bind_bind]
  rw [put_bind_eq_ok_iff (by decide) rfl, put_bind_eq_ok_iff (by decide) rfl,
    put_bind_eq_ok_iff (by decide) rfl, put_bind_eq_ok_iff (by decide) rfl]
  simp only [and_assoc]
  rfl

/-- The four plain values are found again where the store gives each of them as it was put. -/
lemma checkNative_bind_eq_ok_iff {f : Check FaultyStore φ β} :
    ((checkNative >>= fun _ => f) (native s)).1 = .ok x ↔
      (s.store.Passes "health/long" .long (· = longProbe) ∧
        s.store.Passes "health/int" .int (· = intProbe) ∧
        s.store.Passes "health/bool" .bool (· = true) ∧
        s.store.Passes "health/string" .string (· = "ok")) ∧
      (f (native s)).1 = .ok x := by
  simp only [checkNative, Attempt.bind_bind]
  have long : (native s).store.base.values.get? "health/long" =
      some (.ofCarrier .long longProbe) := by
    simp [native, Value.ofCarrier]
  have int : (native s).store.base.values.get? "health/int" = some (.ofCarrier .int intProbe) := by
    simp [native, Value.ofCarrier]
  have bool : (native s).store.base.values.get? "health/bool" = some (.ofCarrier .bool true) := by
    simp [native, Value.ofCarrier]
  have string : (native s).store.base.values.get? "health/string" =
      some (.ofCarrier .string "ok") := by
    simp [native, Value.ofCarrier]
  rw [probe_bind_eq_ok_iff (by decide) long (by decide) (by decide),
    probe_bind_eq_ok_iff (by decide) int (by decide) (by decide),
    probe_bind_eq_ok_iff (by decide) bool (by decide) (by decide),
    probe_bind_eq_ok_iff (by decide) string (by decide) (by decide)]
  simp only [and_assoc, beq_iff_eq]
  rfl

/-- The record is found again where the store takes its text and gives one that is decoded as the
record. -/
lemma checkRecord_bind_eq_ok_iff (engine : s.registry.engine = .json)
    (bare : s.registry.adapter? (.structured .probeRecord) = none) :
    ∃ text, ∀ {β : Type} {x : β} {f : Check FaultyStore φ β},
      ((checkRecord >>= fun _ => f) s).1 = .ok x ↔
        (s.store.refusal? "health/record" = none ∧
          s.store.Passes "health/record" .string fun text =>
            (s.registry.decode (.structured .probeRecord) text recordFallback).1 =
              .ok recordProbe) ∧
        (f (putting s "health/record" (.string text) {})).1 = .ok x := by
  have json : s.registry.engine.RoundTrips := by
    rw [engine]
    exact Engine.json_roundTrips
  obtain ⟨text, encoded, -, decoded⟩ :=
    Registry.decode_encode json bare (m := .probeRecord) (by decide) recordProbe
  have stores : toStored s.registry (.structured .probeRecord) recordProbe =
      (.ok (.string text), {}) := by
    simp only [toStored, encoded]
  have honest : ∃ v, (s.registry.decode (.structured .probeRecord) text recordFallback).1 = .ok v ∧
      (v == recordProbe) = true := ⟨recordProbe, by rw [decoded], by decide⟩
  refine ⟨text, fun {β x f} => ?_⟩
  simp only [checkRecord, Attempt.bind_bind]
  rw [put_bind_eq_ok_iff (by decide) stores, probe_decoded_bind_eq_ok_iff (by decide)
    (get?_putting_self _ _ _ _) bare honest (by decide), and_assoc]
  simp only [beq_iff_eq, exists_eq_right]
  rfl

/-- What the probe of an adapter leaves. -/
def coded (s : TypedStore FaultyStore φ) : TypedStore FaultyStore φ :=
  let s := putting (s.addAdapter (.structured .probeCode) .probeCode) "health/adapter"
    (.string codeText) { encodes := 1 }
  { s with calls := s.calls + { decodes := 1 } }

/-- The value with an adapter is found again where the store takes and gives the adapter's text. -/
lemma checkCode_bind_eq_ok_iff {f : Check FaultyStore φ β} :
    ((checkCode >>= fun _ => f) s).1 = .ok x ↔
      (s.store.refusal? "health/adapter" = none ∧
        s.store.Passes "health/adapter" .string (· = codeText)) ∧
      (f (coded s)).1 = .ok x := by
  let r := s.registry.add (.structured .probeCode) .probeCode
  have adapter : r.adapter? (.structured .probeCode) = some .probeCode := rfl
  have stores : toStored r (.structured .probeCode) codeProbe =
      (.ok (.string codeText), { encodes := 1 }) := by
    simp only [toStored, Registry.encode, adapter]
    rfl
  have decoded : r.decode (.structured .probeCode) codeText codeFallback =
      (.ok codeProbe, { decodes := 1 }) := by
    simp only [Registry.decode, adapter]
    rfl
  have adapted {g : Unit → Check FaultyStore φ β} : ((adapt >>= g) s).1 =
      (g () (s.addAdapter (.structured .probeCode) .probeCode)).1 := rfl
  simp only [checkCode, Attempt.bind_bind]
  rw [adapted, put_bind_eq_ok_iff (by decide) stores, stored_bind_eq_ok_iff, and_assoc]
  refine and_congr_right fun _ => ?_
  simp only [ensure_bind_eq_ok_iff, decode_bind_eq_ok_iff (show "health/adapter" ≠ "" by decide),
    beq_iff_eq]
  have told : (∃ text, Store.get (coded s).store .string "health/adapter" "" = .ok text ∧
      text = codeText) ↔ s.store.Passes "health/adapter" .string (· = codeText) :=
    FaultyStore.get_good_iff (get?_putting_self (s.addAdapter (.structured .probeCode) .probeCode)
      "health/adapter" (.string codeText) { encodes := 1 }) rfl (by decide)
  simp only [exists_eq_right] at told
  -- the second read of the key gives the same text as the first
  constructor
  · rintro ⟨_, got, rfl, text, again, v, read, rfl, went⟩
    cases again.symm.trans got
    exact ⟨told.1 got, went⟩
  · rintro ⟨passes, went⟩
    have got := told.2 passes
    exact ⟨codeText, got, rfl, codeText, got, codeProbe, congrArg Prod.fst decoded, rfl, went⟩

section Secret

variable [KeyFacility φ]

/-- An alias is active, and the facility finds or makes a keypair for it whose halves belong
together, unless it is at hand. -/
structure Working (s : TypedStore FaultyStore φ) (handle : KeyHandle) : Prop where
  active : s.envelope.activeAlias = some handle.keyAlias
  found : (s.envelope.ready s.suite s.supply.next.1 s.facility).1 = .ok handle
  matched : handle.pair = s.suite.keypair handle.pair.secretKey

/-- Where aliases have the keypairs that they are owned by, what is found for one belongs
together. -/
lemma working_of_provided {suite : Suite} {chance : Nat → Chance} {least : Nat}
    {owner : Vault.Owners} {s : TypedStore FaultyStore (Trapped Vault)}
    (provided : s.Provided suite chance least owner)
    {handle : KeyHandle}
    (found : (s.envelope.ready s.suite s.supply.next.1 s.facility).1 = .ok handle) :
    Working s handle := by
  obtain ⟨rfl, rfl, -, provided⟩ := provided
  obtain ⟨_, r, e, f, looked, -, -, outcome⟩ := Envelope.ready_spec provided
  have result : (s.envelope.ready s.suite s.supply.next.1 s.facility).1 = r :=
    congrArg Prod.fst looked
  cases result.symm.trans found
  cases outcome with
  | ok chosen owned => exact ⟨chosen, found, rfl⟩

/-- A sealed text is put where the store takes it, with the envelope's changes kept. -/
lemma putSealed_bind_eq_ok_iff (named : key ≠ "") {text sealedText : String}
    {s' : TypedStore FaultyStore φ} (encrypted : s.encrypt text = (.ok sealedText, s'))
    {f : Unit → Check FaultyStore φ β} : ((putSealed key text >>= f) s).1 = .ok x ↔
      s'.store.refusal? key = none ∧ (f () (putting s' key (.string sealedText) {})).1 = .ok x := by
  have stores : toStored s'.registry (.primitive .string) sealedText =
      (.ok (.string sealedText), {}) := rfl
  rw [Attempt.bind_fst_eq_ok, putSealed, TypedStore.setSealed, requireKey, if_neg named]
  simp only [encrypted, set_eq named stores]
  cases s'.store.refusal? key with
  | none =>
    constructor
    · rintro ⟨_, -, went⟩
      exact ⟨rfl, went⟩
    · rintro ⟨-, went⟩
      exact ⟨(), rfl, went⟩
  | some reason =>
    refine iff_of_false ?_ ?_
    · rintro ⟨_, failed, -⟩
      cases failed
    · rintro ⟨refused, -⟩
      cases refused

/-- With a keypair at hand, what the store has is opened with it. -/
lemma fetchSealed_eq_ok_iff (named : key ≠ "") {handle : KeyHandle}
    (healthy : s.envelope.poisoned = false) (hand : s.envelope.key = some handle) {text : String} :
    (fetchSealed key s).1 = .ok text ↔ ∃ sealedText,
      Store.get s.store .string key "" = .ok sealedText ∧
        Envelope.openWith s.suite handle.pair sealedText = .ok text := by
  have got : s.get (.primitive .string) key none =
      ((Store.get s.store .string key "").mapError .store, s) := TypedStore.get_eq named _ _
  rw [fetchSealed, TypedStore.getSealed, got]
  cases Store.get s.store .string key "" with
  | error e =>
    refine iff_of_false (fun failed => by cases failed) ?_
    rintro ⟨_, failed, -⟩
    cases failed
  | ok sealedText =>
    simp only [Except.ok.injEq, exists_eq_left']
    exact mapError_eq_ok_iff.trans (Envelope.decrypt_eq_ok_iff healthy hand)

/-- The secret is found again where the store takes the sealed text and gives one that is not the
secret itself but is opened as it. -/
lemma checkSecret_eq_ok_iff {handle : KeyHandle} (agrees : s.suite.Agrees)
    (working : Working s handle) : (checkSecret s).1 = .ok () ↔
      s.store.refusal? "health/secret" = none ∧
        s.store.Passes "health/secret" .string fun text =>
          text ≠ secretProbe ∧ Envelope.openWith s.suite handle.pair text = .ok secretProbe := by
  rcases looked : s.envelope.ready s.suite s.supply.next.1 s.facility with ⟨r, e, facility⟩
  obtain rfl : r = .ok handle := by
    rw [← working.found, looked]
  let s' : TypedStore FaultyStore φ :=
    { s with envelope := e, facility, supply := s.supply.next.2 }
  let sealedText := (s.suite.sealFor handle.pair.publicKey s.supply.next.1.ephemeral
    s.supply.next.1.nonce secretProbe).render
  have opened : Envelope.openWith s.suite handle.pair sealedText = .ok secretProbe := by
    simp only [sealedText]
    rw [working.matched]
    exact Suite.openWith_own agrees
  have encrypted : s.encrypt secretProbe = (.ok sealedText, s') := by
    have given : secretProbe ≠ "" := by decide
    simp only [TypedStore.encrypt, Envelope.encrypt, if_neg given, looked]
    rfl
  have foreign : sealedText ≠ secretProbe := by
    intro same
    have plain : Envelope.openWith s.suite handle.pair secretProbe =
      .error (.encoding .invalidPadding) := rfl
    rw [same, plain] at opened
    cases opened
  have told : (∃ text, Store.get (putting s' "health/secret" (.string sealedText) {}).store .string
        "health/secret" "" = .ok text ∧
      text ≠ secretProbe ∧ Envelope.openWith s.suite handle.pair text = .ok secretProbe) ↔
      s.store.Passes "health/secret" .string fun text =>
        text ≠ secretProbe ∧ Envelope.openWith s.suite handle.pair text = .ok secretProbe :=
    FaultyStore.get_good_iff (get?_putting_self s' "health/secret" (.string sealedText) {})
      ⟨foreign, opened⟩ fun empty => by cases empty.2
  have named : "health/secret" ≠ "" := by decide
  rw [checkSecret, putSealed_bind_eq_ok_iff named encrypted, stored_bind_eq_ok_iff]
  refine and_congr_right fun _ => Iff.trans ?_ told
  refine exists_congr fun text => and_congr_right fun got => ?_
  rw [ensure_bind_eq_ok_iff, Attempt.bind_fst_eq_ok, bne_iff_ne]
  refine and_congr_right fun _ => ?_
  simp only [ensure_eq_ok_iff, beq_iff_eq, exists_eq_right]
  rw [fetchSealed_eq_ok_iff named (Envelope.healthy_of_ready looked) (Envelope.key_of_ready looked)]
  -- the second read of the key gives the same text as the first
  constructor
  · rintro ⟨_, again, opens⟩
    cases again.symm.trans got
    exact opens
  · exact fun opens => ⟨text, got, opens⟩

end Secret

/-! ## What the check leaves alone -/

/-- The keys that are probed. -/
def probed : List String :=
  ["health/long", "health/int", "health/bool", "health/string", "health/record", "health/adapter",
    "health/secret"]

/-- The same is wrong with all keys, and the same is held under keys that are not probed. -/
structure Beside (a b : FaultyStore) : Prop where
  faults : b.faults = a.faults
  held : ∀ key ∉ probed, b.base.values.get? key = a.base.values.get? key

/-- The same is wrong with probed keys, and the same is held under some keys. -/
structure AlikeOn (ks : List String) (a b : FaultyStore) : Prop where
  refusal : ∀ key ∈ probed, b.refusal? key = a.refusal? key
  lie : ∀ key ∈ probed, b.lie? key = a.lie? key
  held : ∀ key ∈ ks, b.base.values.get? key = a.base.values.get? key

variable {ks ks' ks'' : List String} {a b c : FaultyStore} {α : Type}

/-- A store is beside itself. -/
lemma Beside.refl (a : FaultyStore) : Beside a a := ⟨rfl, fun _ _ => rfl⟩

/-- To be beside one another carries over. -/
lemma Beside.trans (h : Beside a b) (h' : Beside b c) : Beside a c :=
  ⟨h'.faults.trans h.faults, fun key other => (h'.held key other).trans (h.held key other)⟩

/-- A probed key that is known to be held alike reads alike. -/
lemma AlikeOn.read (alike : AlikeOn ks a b) (there : key ∈ probed) (known : key ∈ ks) :
    Store.read b key = Store.read a key := by
  simp only [Store.read, alike.lie key there, alike.held key known]

/-- Over stores that are alike on `ks`, the step does the same, and where it succeeds they are then
alike on `ks'`. In either it leaves all but the probed keys alone. -/
structure KeepsTo (ks ks' : List String) (c : Check FaultyStore φ α) : Prop where
  beside : ∀ s, Beside s.store (c s).2.store
  alike : ∀ {s b}, AlikeOn ks s.store b → ∃ b',
    c (s.withStore b) = ((c s).1, (c s).2.withStore b') ∧
    ∀ a, (c s).1 = .ok a → AlikeOn ks' (c s).2.store b'

namespace KeepsTo

/-- A check in two parts keeps to the keys it has put, and knows those that either part has put. -/
lemma bind {c : Check FaultyStore φ α} {f : α → Check FaultyStore φ β} (hc : KeepsTo ks ks' c)
    (hf : ∀ a, KeepsTo ks' ks'' (f a)) : KeepsTo ks ks'' (c >>= f) where
  beside s := by
    have first := hc.beside s
    show Beside s.store (Attempt.bind c f s).2.store
    rw [Attempt.bind]
    generalize c s = outcome at first ⊢
    obtain ⟨e | a, t⟩ := outcome
    · exact first
    · exact first.trans ((hf a).beside t)
  alike {s b} alike := by
    obtain ⟨b', same, after⟩ := hc.alike alike
    show ∃ b', Attempt.bind c f (s.withStore b) = ((Attempt.bind c f s).1,
      (Attempt.bind c f s).2.withStore b') ∧ ∀ a, (Attempt.bind c f s).1 = .ok a →
        AlikeOn ks'' (Attempt.bind c f s).2.store b'
    simp only [Attempt.bind, same]
    generalize c s = outcome at after ⊢
    obtain ⟨e | a, t⟩ := outcome
    · exact ⟨b', rfl, fun _ done => by cases done⟩
    · exact (hf a).alike (after a rfl)

/-- A step that leaves the store as it is. -/
lemma looking {c : Check FaultyStore φ α} (same : ∀ s, (c s).2.store = s.store)
    (alike : ∀ {s b}, AlikeOn ks s.store b → c (s.withStore b) = ((c s).1, (c s).2.withStore b)) :
    KeepsTo ks ks c where
  beside s := by
    rw [same]
    exact .refl _
  alike {s b} h := ⟨b, alike h, fun _ _ => by rw [same]; exact h⟩

/-- To read a value leaves the store alone. -/
lemma store_get (s : TypedStore FaultyStore φ) (t : PrefType) (key : String)
    (default : Option t.Val) : (s.get t key default).2.store = s.store := by
  rw [TypedStore.get]
  cases requireKey key <;> rfl

/-- Over stores that agree on the known keys a value is read alike. -/
lemma alike_get (there : key ∈ probed) (known : key ∈ ks) (alike : AlikeOn ks s.store b)
    (t : PrefType) (default : Option t.Val) : (s.withStore b).get t key default =
      ((s.get t key default).1, (s.get t key default).2.withStore b) := by
  rw [TypedStore.get, TypedStore.get]
  cases requireKey key with
  | error e => rfl
  | ok _ =>
    have same : readAs (s.withStore b).store (s.withStore b).registry t key default =
        readAs s.store s.registry t key default := readAs_congr (alike.read there known) _ _ _
    simp only [same]
    rfl

/-- A fetch under a known key keeps to the probed keys. -/
lemma fetch (there : key ∈ probed) (known : key ∈ ks) (t : PrefType) (default : Option t.Val) :
    KeepsTo (φ := φ) ks ks (Health.fetch t key default) := by
  refine looking (fun s => store_get s t key default) fun {s b} alike => ?_
  rw [Health.fetch, Health.fetch, alike_get there known alike]

/-- So does a fetch of a stored text. -/
lemma stored (there : key ∈ probed) (known : key ∈ ks) :
    KeepsTo (φ := φ) ks ks (Health.stored key) := by
  refine looking (fun s => rfl) fun {s b} alike => ?_
  have same : Store.get (s.withStore b).store .string key "" = Store.get s.store .string key "" :=
    Store.get_congr (alike.read there known) .string ""
  rw [Health.stored, Attempt.look, Attempt.look, same]

/-- A test does not touch the store. -/
lemma ensure (good : Bool) (probe : Probe) : KeepsTo (φ := φ) ks ks (Health.ensure good probe) := by
  cases good <;> exact looking (fun _ => rfl) fun _ => rfl

/-- To add the adapter does not touch the store. -/
lemma adapt : KeepsTo (φ := φ) ks ks Health.adapt := looking (fun _ => rfl) fun _ => rfl

/-- A set under a probed key leaves all other keys of the store as they were. -/
lemma beside_set (there : key ∈ probed) (s : TypedStore FaultyStore φ) (t : PrefType) (v : t.Val)
    (mode : SyncMode) : Beside s.store (s.set t key v mode).2.store := by
  rw [TypedStore.set]
  cases requireKey key with
  | error e => exact .refl _
  | ok _ =>
    rcases toStored s.registry t v with ⟨e | stored, calls⟩
    · exact .refl _
    · simp only [PendingWrite.finish, Store.write]
      cases s.store.refusal? key with
      | some reason => exact .refl _
      | none =>
        refine ⟨rfl, fun other apart => Table.get?_insert_of_ne _ _ ?_⟩
        rintro rfl
        exact apart there

/-- A set under a probed key goes alike over stores that agree on the known keys, and where it
succeeds they agree on its key too. -/
lemma alike_set (there : key ∈ probed) (alike : AlikeOn ks s.store b) (t : PrefType) (v : t.Val)
    (mode : SyncMode) : ∃ b', (s.withStore b).set t key v mode =
      ((s.set t key v mode).1, (s.set t key v mode).2.withStore b') ∧
      ∀ u, (s.set t key v mode).1 = .ok u →
        AlikeOn (key :: ks) (s.set t key v mode).2.store b' := by
  have registry : (s.withStore b).registry = s.registry := rfl
  rw [TypedStore.set, TypedStore.set, registry]
  cases requireKey key with
  | error e => exact ⟨b, rfl, fun _ done => by cases done⟩
  | ok _ =>
    rcases toStored s.registry t v with ⟨e | stored, calls⟩
    · exact ⟨b, rfl, fun _ done => by cases done⟩
    · have refusal : (s.withStore b).store.refusal? key = s.store.refusal? key :=
        alike.refusal key there
      simp only [PendingWrite.finish, Store.write, refusal]
      cases s.store.refusal? key with
      | some reason => exact ⟨b, rfl, fun _ done => by cases done⟩
      | none =>
        refine ⟨{ b with base := b.base.insert key stored }, rfl, fun _ _ =>
          ⟨alike.refusal, alike.lie, fun other known => ?_⟩⟩
        show (b.base.values.insert key stored).get? other =
          (s.store.base.values.insert key stored).get? other
        by_cases same : other = key
        · rw [same, Table.get?_insert_self, Table.get?_insert_self]
        · rw [Table.get?_insert_of_ne _ _ same, Table.get?_insert_of_ne _ _ same]
          exact alike.held other ((List.mem_cons.1 known).resolve_left same)

/-- A put keeps to the probed keys, and its key is known from then on. -/
lemma put (there : key ∈ probed) (t : PrefType) (v : t.Val) :
    KeepsTo (φ := φ) ks (key :: ks) (Health.put t key v) where
  beside s := beside_set there s t v .commit
  alike {s b} alike := by
    obtain ⟨b', same, after⟩ := alike_set there alike t v .commit
    refine ⟨b', ?_, fun u done => after u (ok_of_mapError done)⟩
    rw [Health.put, Health.put, same]

/-- So does a put of a sealed text. -/
lemma putSealed [KeyFacility φ] (there : key ∈ probed) (text : String) :
    KeepsTo (φ := φ) ks (key :: ks) (Health.putSealed key text) where
  beside s := by
    rw [Health.putSealed, TypedStore.setSealed]
    cases requireKey key with
    | error e => exact .refl _
    | ok _ =>
      have store : (s.encrypt text).2.store = s.store := rfl
      dsimp only
      generalize s.encrypt text = outcome at store ⊢
      obtain ⟨stop | sealedText, s'⟩ := outcome
      · rw [← store]
        exact .refl _
      · rw [← store]
        exact beside_set there s' _ _ _
  alike {s b} alike := by
    rw [Health.putSealed, Health.putSealed, TypedStore.setSealed, TypedStore.setSealed]
    cases requireKey key with
    | error e => exact ⟨b, rfl, fun _ done => by cases done⟩
    | ok _ =>
      have store : (s.encrypt text).2.store = s.store := rfl
      have same : (s.withStore b).encrypt text =
        ((s.encrypt text).1, (s.encrypt text).2.withStore b) := rfl
      dsimp only
      rw [same]
      generalize s.encrypt text = outcome at store ⊢
      obtain ⟨stop | sealedText, s'⟩ := outcome
      · exact ⟨b, rfl, fun _ done => by cases done⟩
      · rw [← store] at alike
        obtain ⟨b', same, after⟩ :=
          alike_set there alike (.primitive .string) sealedText .apply
        refine ⟨b', ?_, fun u done => after u (ok_of_mapError (ok_of_mapError done))⟩
        dsimp only
        rw [same]

/-- A sealed text is fetched under a known key alone. -/
lemma fetchSealed [KeyFacility φ] (there : key ∈ probed) (known : key ∈ ks) :
    KeepsTo (φ := φ) ks ks (Health.fetchSealed key) := by
  refine looking (fun s => ?_) fun {s b} alike => ?_
  · have same := store_get s (.primitive .string) key none
    rw [Health.fetchSealed, TypedStore.getSealed]
    generalize s.get (.primitive .string) key none = outcome at same ⊢
    obtain ⟨e | sealedText, s'⟩ := outcome <;> exact same
  · rw [Health.fetchSealed, Health.fetchSealed, TypedStore.getSealed, TypedStore.getSealed,
      alike_get there known alike]
    generalize s.get (.primitive .string) key none = outcome
    obtain ⟨e | sealedText, s'⟩ := outcome <;> rfl

end KeepsTo

/-- The four plain values are put under their own keys, which are then known. -/
lemma keepsTo_putNative : KeepsTo (φ := φ) []
    ["health/string", "health/bool", "health/int", "health/long"] putNative :=
  (KeepsTo.put (by decide) _ _).bind fun _ => (KeepsTo.put (by decide) _ _).bind fun _ =>
    (KeepsTo.put (by decide) _ _).bind fun _ => KeepsTo.put (by decide) _ _

/-- The four plain values are checked under known keys alone. -/
lemma keepsTo_checkNative :
    KeepsTo (φ := φ) ["health/string", "health/bool", "health/int", "health/long"]
      ["health/string", "health/bool", "health/int", "health/long"] checkNative := by
  refine (KeepsTo.fetch (by decide) (by decide) _ _).bind fun _ =>
    (KeepsTo.ensure _ _).bind fun _ => ?_
  refine (KeepsTo.fetch (by decide) (by decide) _ _).bind fun _ =>
    (KeepsTo.ensure _ _).bind fun _ => ?_
  refine (KeepsTo.fetch (by decide) (by decide) _ _).bind fun _ =>
    (KeepsTo.ensure _ _).bind fun _ => ?_
  exact (KeepsTo.fetch (by decide) (by decide) _ _).bind fun _ => KeepsTo.ensure _ _

/-- The record is put and checked under its own key. -/
lemma keepsTo_checkRecord (ks : List String) :
    KeepsTo (φ := φ) ks ("health/record" :: ks) checkRecord := by
  refine (KeepsTo.put (by decide) _ _).bind fun _ => ?_
  exact (KeepsTo.fetch (by decide) List.mem_cons_self _ _).bind fun _ => KeepsTo.ensure _ _

/-- The value with an adapter is put and checked under its own key. -/
lemma keepsTo_checkCode (ks : List String) :
    KeepsTo (φ := φ) ks ("health/adapter" :: ks) checkCode := by
  refine KeepsTo.adapt.bind fun _ => (KeepsTo.put (by decide) _ _).bind fun _ => ?_
  refine (KeepsTo.stored (by decide) List.mem_cons_self).bind fun _ =>
    (KeepsTo.ensure _ _).bind fun _ => ?_
  exact (KeepsTo.fetch (by decide) List.mem_cons_self _ _).bind fun _ => KeepsTo.ensure _ _

/-- The secret is put and checked under its own key. -/
lemma keepsTo_checkSecret [KeyFacility φ] (ks : List String) :
    KeepsTo (φ := φ) ks ("health/secret" :: ks) checkSecret := by
  refine (KeepsTo.putSealed (by decide) _).bind fun _ => ?_
  refine (KeepsTo.stored (by decide) List.mem_cons_self).bind fun _ =>
    (KeepsTo.ensure _ _).bind fun _ => ?_
  exact (KeepsTo.fetchSealed (by decide) List.mem_cons_self).bind fun _ => KeepsTo.ensure _ _

/-- The check keeps to the probed keys, and reads each of them only after it has written it. -/
lemma keepsTo_check [KeyFacility φ] : ∃ ks, KeepsTo (φ := φ) [] ks check :=
  ⟨_, keepsTo_putNative.bind fun _ => keepsTo_checkNative.bind fun _ =>
    (keepsTo_checkRecord _).bind fun _ => (keepsTo_checkCode _).bind fun _ =>
      keepsTo_checkSecret _⟩

/-! ## The check -/

variable [KeyFacility φ]

/-- No write of a probed key is refused, and all that is lied about one is a value that its probe
takes for what was written: the same value of a native kind, a text from which the record is
decoded, the text of the code, and a text that is not the secret and opens to it. -/
structure Kept (s : TypedStore FaultyStore φ) (pair : Keypair) : Prop where
  unrefused : ∀ key ∈ probed, s.store.refusal? key = none
  long : s.store.Passes "health/long" .long (· = longProbe)
  int : s.store.Passes "health/int" .int (· = intProbe)
  bool : s.store.Passes "health/bool" .bool (· = true)
  string : s.store.Passes "health/string" .string (· = "ok")
  record : s.store.Passes "health/record" .string fun text =>
    (s.registry.decode (.structured .probeRecord) text recordFallback).1 = .ok recordProbe
  adapter : s.store.Passes "health/adapter" .string (· = codeText)
  secret : s.store.Passes "health/secret" .string fun text =>
    text ≠ secretProbe ∧ Envelope.openWith s.suite pair text = .ok secretProbe

variable {handle : KeyHandle}

/-- The health check passes exactly if the store keeps every probe. -/
lemma check_eq_ok_iff (agrees : s.suite.Agrees) (working : Working s handle)
    (engine : s.registry.engine = .json)
    (bare : s.registry.adapter? (.structured .probeRecord) = none) :
    (check s).1 = .ok () ↔ Kept s handle.pair := by
  obtain ⟨text, checkRecord_iff⟩ := checkRecord_bind_eq_ok_iff (s := native s) engine bare
  -- nothing before it comes to the envelope or the facility
  have secret := checkSecret_eq_ok_iff (s := coded (putting (native s) "health/record"
    (.string text) {})) agrees ⟨working.active, working.found, working.matched⟩
  rw [check, putNative_bind_eq_ok_iff, checkNative_bind_eq_ok_iff, checkRecord_iff,
    checkCode_bind_eq_ok_iff, secret]
  constructor
  · rintro ⟨⟨long, int, bool, string⟩, ⟨l, i, b, t⟩, ⟨record, r⟩, ⟨adapter, a⟩, sealed, e⟩
    refine ⟨?_, l, i, b, t, r, a, e⟩
    simp only [probed, List.forall_mem_cons]
    exact ⟨long, int, bool, string, record, adapter, sealed, nofun⟩
  · rintro ⟨unrefused, l, i, b, t, r, a, e⟩
    simp only [probed, List.forall_mem_cons] at unrefused
    obtain ⟨long, int, bool, string, record, adapter, sealed, -⟩ := unrefused
    exact ⟨⟨long, int, bool, string⟩, ⟨l, i, b, t⟩, ⟨record, r⟩, ⟨adapter, a⟩, sealed, e⟩

/-- With an alias, a facility that works and no adapter for the probed record, the health check
passes just where no write of a probed key is refused and every lie about one passes for what was
written. What is wrong with other keys makes no difference to its outcome, and whatever the outcome
is, other keys hold and read what they did. -/
theorem health_check_finds_faults (s : TypedStore FaultyStore φ) (agrees : s.suite.Agrees)
    (working : Working s handle) (engine : s.registry.engine = .json)
    (bare : s.registry.adapter? (.structured .probeRecord) = none) :
    ((check s).1 = .ok () ↔ Kept s handle.pair) ∧
    (∀ other : FaultyStore, (∀ key ∈ probed, other.refusal? key = s.store.refusal? key ∧
        other.lie? key = s.store.lie? key) →
      (check (s.withStore other)).1 = (check s).1) ∧
    ∀ key ∉ probed,
      (check s).2.store.base.values.get? key = s.store.base.values.get? key ∧
      Store.read (check s).2.store key = Store.read s.store key := by
  obtain ⟨ks, keeps⟩ := keepsTo_check (φ := φ)
  refine ⟨check_eq_ok_iff agrees working engine bare, fun other same => ?_, fun key apart => ?_⟩
  · obtain ⟨b, went, -⟩ := keeps.alike (s := s) (b := other)
      ⟨fun key there => (same key there).1, fun key there => (same key there).2, nofun⟩
    rw [went]
  · have held := (keeps.beside s).held key apart
    have lie : (check s).2.store.lie? key = s.store.lie? key := by
      rw [FaultyStore.lie?, (keeps.beside s).faults]
      rfl
    refine ⟨held, ?_⟩
    simp only [Store.read, lie, held]

/-- The check passes over a store that lies with the probed integer and with another text of the
probed record, and takes no other key. It fails where the secret is lied about with itself, and
where a truth value is not written. -/
theorem check_passes_harmless_lies :
    let s (faults : List KeyFault) : TypedStore FaultyStore (Trapped Vault) :=
      { store := ⟨faults, {}⟩, facility := ⟨.memory {}, false⟩, suite := .tagged
        envelope := ⟨some "A", none, false⟩, supply := .sample }
    (check (s [⟨"health/long", none, some (.value (.long longProbe))⟩,
      ⟨"health/record", none,
        some (.value (.string "\x7b \"age\": 111, \"name\": \"Bilbo\" \x7d"))⟩,
      ⟨"elsewhere", some "read only", some .missing⟩])).1 = .ok () ∧
    (check (s [⟨"health/secret", none, some (.value (.string "secret"))⟩])).1 ≠ .ok () ∧
    (check (s [⟨"health/bool", some "read only", none⟩])).1 ≠ .ok () := by
  intro s
  have year : Validity.oneYearFrom? (Chance.sample 0).now ≠ none := by decide
  obtain ⟨handle, f, looked⟩ := Envelope.ready_memory .tagged (f := {}) rfl rfl year
  have working (faults : List KeyFault) : Working (s faults) handle := by
    have vacant : (Vault.memory {}).Owned .tagged Supply.sample.chance 0 fun _ => none :=
      .of_vacant trivial fun _ => rfl
    have provided : (s faults).Provided .tagged Supply.sample.chance 0 fun _ => none :=
      ⟨rfl, rfl, Nat.le_refl 0, rfl, vacant, .of_none rfl⟩
    exact working_of_provided provided (congrArg Prod.fst looked)
  have finds (faults : List KeyFault) :=
    (health_check_finds_faults (s faults) Suite.tagged_ideal.agree_comm (working faults) rfl rfl).1
  refine ⟨(finds _).2 ?_, fun passed => ?_, fun passed => ?_⟩
  · have decoded : (({} : Registry).decode (.structured .probeRecord)
        "\x7b \"age\": 111, \"name\": \"Bilbo\" \x7d" recordFallback).1 = .ok recordProbe := by
      cbv
    -- a key that is not lied about passes
    have honest {key : String} {k : Primitive} {good : k.Carrier → Prop} {a : FaultyStore}
        (none : a.lie? key = none) : a.Passes key k good := by
      intro lie told
      cases none.symm.trans told
    refine ⟨by decide, ?_, honest rfl, honest rfl, honest rfl, ?_, honest rfl, honest rfl⟩
    · intro lie told
      cases told
      exact ⟨longProbe, rfl, rfl⟩
    · intro lie told
      cases told
      exact ⟨_, rfl, decoded⟩
  · obtain ⟨_, same, other, -⟩ := ((finds _).1 passed).secret _ rfl
    cases same
    exact other rfl
  · have refused := ((finds _).1 passed).unrefused "health/bool" (by decide)
    cases refused

end Health

end Preferences
