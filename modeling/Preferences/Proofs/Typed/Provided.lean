import Preferences.Proofs.Envelope.Ready
import Preferences.Proofs.Typed.Simulation

/-!
# Typed stores and the keypairs of their aliases

No request gets the envelope or the facility of a typed store out of order: aliases keep the owners
they have, and a request gives an owner at most to an alias that had none. Main statement:
`TypedStore.perform_provided`.
-/

namespace Preferences

open Vault

namespace TypedStore

variable {σ : Type} {suite : Suite} {chance : Nat → Chance} {least : Nat} {owner : Owners}
  {s s' : TypedStore σ (Trapped Vault)}

/-- The envelope of a typed store and the facility that it asks are in order, at a time when at
least so many random choices have been used. -/
structure Provided (suite : Suite) (chance : Nat → Chance) (least : Nat) (owner : Owners)
    (s : TypedStore σ (Trapped Vault)) : Prop where
  suite_eq : s.suite = suite
  chance_eq : s.supply.chance = chance
  least_le : least ≤ s.supply.used
  provided : Preferences.Provided suite chance s.supply.used owner s.envelope s.facility

/-- What a request may come to: owners stay, and all is in order. -/
def Provides (suite : Suite) (chance : Nat → Chance) (least : Nat) (owner : Owners)
    (s : TypedStore σ (Trapped Vault)) : Prop :=
  ∃ owner', owner.Extends owner' ∧ s.Provided suite chance least owner'

/-- A typed store in order provides for itself. -/
lemma Provided.provides (p : s.Provided suite chance least owner) :
    s.Provides suite chance least owner :=
  ⟨owner, .refl owner, p⟩

/-- A text that is sealed is sealed for the owner of the active alias. -/
lemma Provided.encrypt (p : s.Provided suite chance least owner) (text : String) :
    ∃ owner', owner.Extends owner' ∧ (s.encrypt text).2.Provided suite chance least owner' ∧
      ∀ sealedText, (s.encrypt text).1 = .ok sealedText → ∃ a n,
        s.envelope.activeAlias = some a ∧ owner' a = some n ∧
        sealedText = Envelope.sealedWith suite chance n s.supply.used text := by
  obtain ⟨rfl, rfl, later, p⟩ := p
  obtain ⟨owner', r, e, facility, same, extended, provided, written⟩ := Envelope.encrypt_spec p text
  simp only [TypedStore.encrypt, Supply.next, same]
  exact ⟨owner', extended, ⟨rfl, rfl, Nat.le_succ_of_le later, provided⟩, written⟩

/-- To open a sealed text keeps a typed store in order. -/
lemma Provided.decrypt (p : s.Provided suite chance least owner) (sealedText : String) :
    (s.decrypt sealedText).2.Provides suite chance least owner := by
  obtain ⟨rfl, rfl, later, p⟩ := p
  obtain ⟨owner', r, e, facility, same, extended, provided⟩ := Envelope.decrypt_spec p sealedText
  simp only [TypedStore.decrypt, Supply.next, same]
  exact ⟨owner', extended, rfl, rfl, Nat.le_succ_of_le later, provided⟩

/-- To choose an alias keeps a typed store in order. -/
lemma Provided.setAlias (p : s.Provided suite chance least owner) (keyAlias : String) :
    (s.setAlias keyAlias).2.Provided suite chance least owner := by
  rw [TypedStore.setAlias]
  cases chosen : s.envelope.setAlias keyAlias with
  | error e => exact p
  | ok e => exact { p with provided := { p.provided with key := p.provided.key.setAlias chosen } }

variable [Store σ]

/-- To get a value keeps a typed store in order. -/
lemma Provided.get (p : s.Provided suite chance least owner) (t : PrefType) (key : String)
    (default : Option t.Val) : (s.get t key default).2.Provided suite chance least owner := by
  rw [TypedStore.get]
  cases requireKey key with
  | error e => exact p
  | ok _ => exact ⟨p.suite_eq, p.chance_eq, p.least_le, p.provided⟩

/-- To set a value keeps a typed store in order. -/
lemma Provided.set (p : s.Provided suite chance least owner) (t : PrefType) (key : String)
    (v : t.Val) (mode : SyncMode) : (s.set t key v mode).2.Provided suite chance least owner := by
  rw [TypedStore.set]
  cases requireKey key with
  | error e => exact p
  | ok _ =>
    rcases toStored s.registry t v with ⟨e | stored, calls⟩
    · exact ⟨p.suite_eq, p.chance_eq, p.least_le, p.provided⟩
    · exact ⟨p.suite_eq, p.chance_eq, p.least_le, p.provided⟩

/-- To stage a write keeps a typed store in order. -/
lemma Provided.stage (p : s.Provided suite chance least owner) (w : PendingWrite)
    (finish : Option SyncMode) : (s.stage w finish).2.Provided suite chance least owner := by
  rw [TypedStore.stage]
  cases Store.contains s.store w.key with
  | error e => exact p
  | ok visible =>
    cases finish with
    | none => exact p
    | some mode => exact ⟨p.suite_eq, p.chance_eq, p.least_le, p.provided⟩

/-- To set a text sealed keeps a typed store in order. -/
lemma Provided.setSealed (p : s.Provided suite chance least owner) (key text : String) :
    (s.setSealed key text).2.Provides suite chance least owner := by
  rw [TypedStore.setSealed]
  cases requireKey key with
  | error e => exact p.provides
  | ok _ =>
    obtain ⟨owner', extended, p', -⟩ := p.encrypt text
    dsimp only
    generalize s.encrypt text = outcome at p'
    obtain ⟨e | sealedText, s'⟩ := outcome
    · exact ⟨owner', extended, p'⟩
    · exact ⟨owner', extended, p'.set _ key _ .apply⟩

/-- To get a sealed text keeps a typed store in order. -/
lemma Provided.getSealed (p : s.Provided suite chance least owner) (key : String) :
    (s.getSealed key).2.Provides suite chance least owner := by
  rw [TypedStore.getSealed]
  have p' := p.get (.primitive .string) key none
  generalize s.get (.primitive .string) key none = outcome at p'
  obtain ⟨e | sealedText, s'⟩ := outcome
  · exact p'.provides
  · exact p'.decrypt sealedText

/-- No request gets a typed store out of order. -/
theorem perform_provided (p : s.Provided suite chance least owner) (r : Request) :
    (s.perform r).2.Provides suite chance least owner := by
  cases r with
  | get t key default => exact (p.get t key default).provides
  | set t key v mode => exact (p.set t key v mode).provides
  | stage w finish => exact (p.stage w finish).provides
  | setAlias keyAlias => exact (p.setAlias keyAlias).provides
  | encrypt text =>
    obtain ⟨owner', extended, p', -⟩ := p.encrypt text
    exact ⟨owner', extended, p'⟩
  | decrypt sealedText => exact p.decrypt sealedText
  | setSealed key text => exact p.setSealed key text
  | getSealed key => exact p.getSealed key
  | addAdapter | serialize | deserialize =>
    exact Provided.provides ⟨p.suite_eq, p.chance_eq, p.least_le, p.provided⟩
  | contains | hasAdapter | activeAlias | isReady | storeRead | storeGet | storeContains =>
    exact p.provides

end TypedStore

end Preferences
