import Preferences.Proofs.Session.Kept
import Preferences.Proofs.Typed.History

/-!
# Confidential texts in a session

A text that was sealed under an alias is opened wherever the store has it, under that alias and
under no other, whatever the typed stores of the session have done in the meantime. Main statement:
`sealed_text_opens_under_its_alias_only`.
-/

namespace Preferences

open Vault

/-! ## Texts sealed and opened by a typed store -/

/-- A write that succeeded can be read at once. -/
lemma Stock.Honest.read_apply {s : Stock} (h : s.Honest) {key : String} {v : Value}
    (written : (Store.write s key v .apply).1 = .ok ()) :
    Store.read (Store.write s key v .apply).2 key = .ok (some v) := by
  cases s with
  | faulty => exact h.elim
  | memory s => exact congrArg Except.ok (Table.get?_insert_self _ _ _)
  | file m =>
    have written : (m.store.enqueue key v).1 = .ok () := written
    show Except.ok ((m.store.enqueue key v).2.cache.values.get? key) = _
    rw [FileStore.enqueue] at written ⊢
    split at written
    next writing =>
      rw [if_pos writing]
      exact congrArg Except.ok (Table.get?_insert_self _ _ _)
    next => cases written

namespace TypedStore

variable {suite : Suite} {chance : Nat → Chance} {least : Nat} {owner : Owners} {key text : String}
  {s : TypedStore Stock (Trapped Vault)}

/-- A text that was set names its key and is there. -/
lemma set_ok (honest : s.store.Honest)
    (done : (s.set (.primitive .string) key text .apply).1 = .ok ()) :
    key ≠ "" ∧ Store.read (s.set (.primitive .string) key text .apply).2.store key =
      .ok (some (.string text)) := by
  rw [TypedStore.set] at done ⊢
  cases named : requireKey key with
  | error e =>
    rw [named] at done
    cases done
  | ok _ =>
    rw [named] at done
    refine ⟨?_, honest.read_apply (ok_of_mapError done)⟩
    rintro rfl
    cases named

/-- A text that was sealed and put under a key is there, for the keypair of the active alias. -/
lemma Provided.setSealed_ok (p : s.Provided suite chance least owner) (honest : s.store.Honest)
    (done : (s.setSealed key text).1 = .ok ()) :
    key ≠ "" ∧ ∃ owner' a n, owner.Extends owner' ∧
      (s.setSealed key text).2.Provided suite chance (s.supply.used + 1) owner' ∧
      s.envelope.activeAlias = some a ∧ owner' a = some n ∧
      Store.read (s.setSealed key text).2.store key =
        .ok (some (.string (Envelope.sealedWith suite chance n s.supply.used text))) := by
  obtain ⟨owner', extended, p', sealing⟩ := p.encrypt text
  have later : (s.encrypt text).2.Provided suite chance (s.supply.used + 1) owner' :=
    { p' with least_le := Nat.le_refl _ }
  have honest : (s.encrypt text).2.store.Honest := honest
  rw [TypedStore.setSealed] at done ⊢
  cases named : requireKey key with
  | error e =>
    rw [named] at done
    cases done
  | ok _ =>
    rw [named] at done
    generalize s.encrypt text = outcome at done later honest sealing ⊢
    obtain ⟨stop | sealedText, s'⟩ := outcome
    · cases done
    · obtain ⟨a, n, active, owned, rfl⟩ := sealing _ rfl
      obtain ⟨named, found⟩ := set_ok honest (ok_of_mapError done)
      exact ⟨named, owner', a, n, extended, later.set _ _ _ _, active, owned, found⟩

/-- The first text that a typed store over memory seals, with a facility in memory that is up. -/
lemma setSealed_memory (t : TypedStore Stock (Trapped Vault)) {values : MemoryStore}
    {f : MemoryFacility} {keyAlias : String} (key text : String) (named : key ≠ "")
    (nonempty : text ≠ "") (memory : t.store = .memory values)
    (fresh : t.envelope = ⟨some keyAlias, none, false⟩) (facility : t.facility = ⟨.memory f, false⟩)
    (up : f.unavailable = false) (absent : f.records.get? keyAlias = none)
    (year : Validity.oneYearFrom? (t.supply.chance t.supply.used).now ≠ none) :
    ∃ sealedText handle f', t.setSealed key text = (.ok (), { t with
      store := .memory (values.insert key (.string sealedText))
      calls := t.calls + ({} : Calls)
      supply := t.supply.next.2
      envelope := ⟨some keyAlias, some handle, false⟩
      facility := ⟨.memory f', false⟩ }) := by
  have allowed : requireKey key = .ok () := if_neg named
  obtain ⟨handle, f', looked⟩ := Envelope.ready_memory t.suite up absent year
  rw [← facility] at looked
  refine ⟨(t.suite.sealFor handle.pair.publicKey (t.supply.chance t.supply.used).ephemeral
    (t.supply.chance t.supply.used).nonce text).render, handle, f', ?_⟩
  simp only [TypedStore.setSealed, allowed, TypedStore.encrypt, Supply.next, Envelope.encrypt,
    if_neg nonempty, fresh, looked, TypedStore.set, memory]
  rfl

end TypedStore

/-! ## Sealed texts in a session -/

namespace Session

variable {suite : Suite} {chance : Nat → Chance} {least : Nat} {owner : Owners} {i : Nat}
  {s : Session} {t : TypedStore Stock (Trapped Vault)}

/-- The alias that is active in a typed store. -/
def activeAlias? (s : Session) (i : Nat) : Option String :=
  (s.typed? i).bind fun t => t.envelope.activeAlias

/-- The keypair of the active alias is at hand in a typed store. -/
def Ready (s : Session) (i : Nat) : Prop := ∃ t, s.typed? i = some t ∧ t.envelope.isReady = true

/-- A request to an open typed store is performed by it. -/
lemma act_request (there : s.typed? i = some t) (r : Request) :
    s.act (.request i r) = (.reply (some (t.perform r).1), s.keep i (t.perform r).2) := by
  simp only [Session.act, Session.request, attend, there]

/-- A text that was sealed and put under a key is there, for the keypair of the active alias. -/
lemma Provided.setSealed (p : s.Provided suite chance least owner) {key text chosen : String}
    {s' : Session} (active : s.activeAlias? i = some chosen)
    (wrote : s.act (.request i (.setSealed key text)) = (.reply (some (.ok .done)), s')) :
    key ≠ "" ∧ ∃ owner' n draw, s'.Provided suite chance (draw + 1) owner' ∧
      owner' chosen = some n ∧ s'.stored? i key =
        some (.ok (some (.string (Envelope.sealedWith suite chance n draw text)))) := by
  obtain ⟨t, there, active⟩ := Option.bind_eq_some_iff.1 active
  obtain ⟨q, honest⟩ := p.typed there
  rw [act_request there] at wrote
  obtain ⟨answered, rfl⟩ := Prod.mk.inj wrote
  have done : (t.setSealed key text).1 = .ok () := by
    have answered := Option.some.inj (Answer.reply.inj answered)
    cases result : (t.setSealed key text).1 with
    | ok _ => rfl
    | error stop =>
      rw [TypedStore.perform, TypedStore.replyOrCrash, result] at answered
      cases answered
  obtain ⟨named, owner', a, n, extended, q', active', owned, found⟩ := q.setSealed_ok honest done
  cases active'.symm.trans active
  have same : (t.perform (.setSealed key text)).2 = (t.setSealed key text).2 := rfl
  refine ⟨named, owner', n, t.supply.used, ?_, owned, ?_⟩
  · have honest' := TypedStore.perform_store Stock.Honest.write honest (.setSealed key text)
    exact p.keep extended q' honest' i
  · have sort : t.store.InFile → (t.perform (.setSealed key text)).2.store.InFile := fun h =>
      TypedStore.perform_store Stock.InFile.write h _
    rw [stored?_keep there sort, same, found]

/-- A sealed text that is under a key is opened under the alias whose keypair it is for, and refused
under every other. -/
lemma Provided.getSealed {n draw : Nat} {key text chosen : String} (ideal : suite.Ideal)
    (p : s.Provided suite chance (draw + 1) owner)
    (independent : suite.Independent chance (s.supply.used + 1)) (known : owner chosen = some n)
    (named : key ≠ "") (kept : s.stored? i key =
      some (.ok (some (.string (Envelope.sealedWith suite chance n draw text))))) :
    (s.activeAlias? i = some chosen → s.Ready i ∨ s.vault.base.Answers →
      (s.act (.request i (.getSealed key))).1 = .reply (some (.ok (.text text)))) ∧
    ∀ other, other ≠ chosen → s.activeAlias? i = some other →
      ∃ r, (s.act (.request i (.getSealed key))).1 = .reply (some r) ∧
        Envelope.Refused (chance s.supply.used).now r := by
  obtain ⟨t, there, found⟩ := Option.map_eq_some_iff.1 kept
  obtain ⟨⟨rfl, rfl, drawn, q⟩, -⟩ := p.typed there
  obtain ⟨seat, store, -, -, rfl⟩ := typed?_eq_some there
  have active {a : String} (h : s.activeAlias? i = some a) :
      seat.envelope.activeAlias = some a := by
    rw [activeAlias?, there] at h
    exact h
  have opened := TypedStore.getSealed_of_read named found
  rw [act_request there]
  refine ⟨fun same resolvable => ?_, fun other apart same => ?_⟩
  · have resolvable : seat.envelope.isReady = true ∨ s.vault.base.Answers := by
      refine resolvable.imp_left ?_
      rintro ⟨_, there', ready⟩
      cases there.symm.trans there'
      exact ready
    rw [Envelope.decrypt_same ideal q (active same) known resolvable] at opened
    simp only [TypedStore.perform, TypedStore.replyOrCrash, opened]
    rfl
  · have refused := Envelope.decrypt_other ideal independent q (active same) apart known drawn text
    rw [← opened] at refused
    exact ⟨_, rfl, refused.map _⟩

/-- Where a text was sealed and put under a key while an alias was active, it is opened by every
typed store whose store still has it, if the same alias is active there and its keypair is at hand
or can be looked up. While another alias is active it is never opened: the cipher or the facility
refuses, or the clock is so near to the end of the calendar that no keypair can be generated. All
keypairs of the facility come from envelopes, those from before the session included. -/
theorem sealed_text_opens_under_its_alias_only {terms : Terms} {disk : Disk} {vault : Vault}
    {supply : Supply} {count : Nat} (ideal : suite.Ideal) (honest : (freshStock terms).Honest)
    (owned : vault.Owned suite supply.chance supply.used owner) {before after : List Deed}
    (truthful : ∀ d ∈ before ++ after, d.Truthful) {i j : Nat} {key text chosen : String}
    {s s' later : Session}
    (reached : ((start terms disk vault supply count suite).2.actAll before).2 = s)
    (active : s.activeAlias? i = some chosen)
    (wrote : s.act (.request i (.setSealed key text)) = (.reply (some (.ok .done)), s'))
    (went : (s'.actAll after).2 = later) (kept : later.stored? j key = s'.stored? i key)
    (independent : suite.Independent supply.chance (later.supply.used + 1)) :
    (later.activeAlias? j = some chosen → later.Ready j ∨ later.vault.base.Answers →
      (later.act (.request j (.getSealed key))).1 = .reply (some (.ok (.text text)))) ∧
    ∀ other, other ≠ chosen → later.activeAlias? j = some other →
      ∃ r, (later.act (.request j (.getSealed key))).1 = .reply (some r) ∧
        Envelope.Refused (supply.chance later.supply.used).now r := by
  subst reached went
  obtain ⟨first, rest⟩ := List.forall_mem_append.1 truthful
  obtain ⟨owner₁, -, p₁⟩ := (Provided.start honest owned disk count).actAll first
  obtain ⟨named, owner₂, n, draw, p₂, known, written⟩ := p₁.setSealed active wrote
  obtain ⟨owner₃, extended, p₃⟩ := p₂.actAll rest
  rw [written] at kept
  exact p₃.getSealed ideal independent (extended _ _ known) named kept

/-- One of two typed stores over the same memory seals a text. After an outage and a new start it
opens the text under the same alias, and the other one, with another alias, is refused. -/
theorem reopened_store_opens_sealed_text :
    let chance (n : Nat) : Chance := .sample (.ofNat n)
    let s := ((start { shared := true } (.fresh []) (.memory {}) ⟨chance, 0⟩ 2 .tagged).2.actAll
      [.request 0 (.setAlias "a"), .request 1 (.setAlias "b")]).2
    let later := ((s.act (.request 0 (.setSealed "k" "p"))).2.actAll
      [.disturb (.unavailable true), .reopen 0, .disturb (.unavailable false),
        .request 0 (.setAlias "a")]).2
    (s.act (.request 0 (.setSealed "k" "p"))).1 = .reply (some (.ok .done)) ∧
      (later.act (.request 0 (.getSealed "k"))).1 = .reply (some (.ok (.text "p"))) ∧
      ∃ r, (later.act (.request 1 (.getSealed "k"))).1 = .reply (some r) ∧
        Envelope.Refused (chance later.supply.used).now r := by
  intro chance s later
  let t : TypedStore Stock (Trapped Vault) := {
    store := .memory {}, facility := ⟨.memory {}, false⟩, envelope := ⟨some "a", none, false⟩
    supply := ⟨chance, 0⟩, suite := .tagged }
  have there : s.typed? 0 = some t := rfl
  have year : Validity.oneYearFrom? (t.supply.chance 0).now ≠ none := by decide
  obtain ⟨sealedText, handle, f, written⟩ := t.setSealed_memory "k" "p" (by decide) (by decide)
    rfl rfl rfl rfl rfl year
  -- the session with the text sealed, for the first envelope and the state of the facility
  let found (e : Envelope) (f : MemoryFacility) : Session := {
    terms := { shared := true }, disk := .fresh [], vault := ⟨.memory f, false⟩
    supply := ⟨chance, 1⟩, suite := .tagged, calls := t.calls + ({} : Calls)
    shelves := [.memory (MemoryStore.insert {} "k" (.string sealedText)), .memory {}]
    seats := [some { envelope := e }, some { envelope := ⟨some "b", none, false⟩ }] }
  have wrote : s.act (.request 0 (.setSealed "k" "p")) =
      (.reply (some (.ok .done)), found ⟨some "a", some handle, false⟩ f) := by
    rw [act_request there, TypedStore.perform, TypedStore.replyOrCrash, written]
    rfl
  have went : ((found ⟨some "a", some handle, false⟩ f).actAll [.disturb (.unavailable true),
      .reopen 0, .disturb (.unavailable false), .request 0 (.setAlias "a")]).2 =
      found ⟨some "a", none, false⟩ { f with unavailable := false } := rfl
  have truthful : ∀ d ∈ [.request 0 (.setAlias "a"), .request 1 (.setAlias "b")] ++
      [.disturb (.unavailable true), .reopen 0, .disturb (.unavailable false),
        .request 0 (.setAlias "a")], Deed.Truthful d := by
    simp [Deed.Truthful, Disturbance.Truthful]
  have draws : Suite.tagged.Independent chance 2 := by
    simp only [Suite.Independent, Suite.tagged_keyFor]
    decide
  have vacant : (Vault.memory {}).Owned .tagged chance 0 fun _ => none :=
    .of_vacant trivial fun _ => rfl
  have honest : (freshStock { shared := true }).Honest := trivial
  -- no later deed writes to the key, and the two typed stores share what is in memory
  have offDisk : (found ⟨some "a", some handle, false⟩ f).OffDisk := by
    refine ⟨?_, ?_, ?_⟩ <;> simp [found, Stock.InFile]
  have apart : ∀ d ∈ [.disturb (.unavailable true), .reopen 0, .disturb (.unavailable false),
      .request 0 (.setAlias "a")], Deed.writes? d ≠ some "k" := by
    simp [Deed.writes?, Request.writes?]
  have kept (j : Nat) (opened : ((found ⟨some "a", none, false⟩
      { f with unavailable := false }).typed? j).isSome) :=
    offDisk.stored?_actAll (i := 0) (j := j) apart rfl rfl (went ▸ opened)
  have opens (j : Nat) := sealed_text_opens_under_its_alias_only (j := j) Suite.tagged_ideal honest
    vacant truthful rfl rfl wrote went
  have other : ("b" : String) ≠ "a" := by decide
  simp only [later, wrote, went]
  exact ⟨trivial, (opens 0 (went ▸ kept 0 rfl) draws).1 rfl (.inr rfl),
    (opens 1 (went ▸ kept 1 rfl) draws).2 "b" other rfl⟩

end Session

end Preferences
