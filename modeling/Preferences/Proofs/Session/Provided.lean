import Preferences.Proofs.Typed.Provided
import Preferences.Session.Deed

/-!
# Sessions and the keypairs of their aliases

Many typed stores share one key facility, are closed and opened again, switch aliases and meet
outages. All along every alias keeps the owner it once got, and every envelope has at most the
keypair of its alias's owner. Main statement: `Session.Provided.actAll`.
-/

namespace Preferences

open Vault

/-- The store is one that gives what it took. -/
def Stock.Honest : Stock → Prop
  | .faulty _ => False
  | _ => True

/-- A store that gives what it took still does when it is written to. -/
lemma Stock.Honest.write {s : Stock} (h : s.Honest) (key : String) (v : Value) (mode : SyncMode) :
    (Store.write s key v mode).2.Honest := by
  cases s with
  | faulty => exact h.elim
  | memory | file => exact trivial

/-- The deed does not make a credential store deny its entries. -/
def Deed.Truthful : Deed → Prop
  | .disturb d => d.Truthful
  | _ => True

namespace Session

/-- The key facility of a session and all its envelopes are in order, at a time when at least so
many random choices have been used, and its stores give what they took. -/
structure Provided (suite : Suite) (chance : Nat → Chance) (least : Nat) (owner : Owners)
    (s : Session) : Prop where
  suite_eq : s.suite = suite
  chance_eq : s.supply.chance = chance
  least_le : least ≤ s.supply.used
  unarmed : s.vault.armed = false
  vault : s.vault.base.Owned suite chance s.supply.used owner
  keyed : ∀ seat, some seat ∈ s.seats → seat.envelope.Keyed suite chance owner
  honest : ∀ stock ∈ s.shelves, stock.Honest

variable {suite : Suite} {chance : Nat → Chance} {least : Nat} {owner owner' : Owners} {i : Nat}
  {s : Session} {t : TypedStore Stock (Trapped Vault)}

/-- What an open typed store is made of. -/
lemma typed?_eq_some (h : s.typed? i = some t) : ∃ seat store, s.seats[i]? = some (some seat) ∧
    ((∃ file, seat.file = some file ∧ store = .file ⟨file, s.disk⟩) ∨
      seat.file = none ∧ s.shelves[s.shelf i]? = some store) ∧
    t = { store, facility := s.vault, envelope := seat.envelope
          registry := seat.registry.getD s.registry, calls := s.calls, supply := s.supply
          suite := s.suite } := by
  obtain ⟨seat, seated, h⟩ := Option.bind_eq_some_iff.1 h
  have seated := Option.join_eq_some_iff.1 seated
  cases file : seat.file with
  | some mounted =>
    rw [file] at h
    exact ⟨seat, _, seated, .inl ⟨mounted, file, rfl⟩, (Option.some.inj h).symm⟩
  | none =>
    rw [file] at h
    obtain ⟨store, shelved, h⟩ := Option.bind_eq_some_iff.1 h
    exact ⟨seat, store, seated, .inr ⟨file, shelved⟩, (Option.some.inj h).symm⟩

/-- In a session in order every open typed store is in order. -/
lemma Provided.typed (p : s.Provided suite chance least owner) (h : s.typed? i = some t) :
    t.Provided suite chance least owner ∧ t.store.Honest := by
  obtain ⟨seat, store, seated, behind, rfl⟩ := typed?_eq_some h
  have keyed := p.keyed seat (List.mem_of_getElem? seated)
  refine ⟨⟨p.suite_eq, p.chance_eq, p.least_le, p.unarmed, p.vault, keyed⟩, ?_⟩
  rcases behind with ⟨file, -, rfl⟩ | ⟨-, shelved⟩
  · exact trivial
  · exact p.honest store (List.mem_of_getElem? shelved)

/-- A seat that is taken, with a keypair of its owner if with any, leaves all seats so. -/
lemma Provided.seat (p : s.Provided suite chance least owner) (seat : Option Seat)
    (keyed : ∀ seat', seat = some seat' → seat'.envelope.Keyed suite chance owner) :
    ∀ seat', some seat' ∈ s.seats.set i seat → seat'.envelope.Keyed suite chance owner := by
  intro seat' among
  rcases List.mem_or_eq_of_mem_set among with other | same
  · exact p.keyed seat' other
  · exact keyed seat' same.symm

/-- A typed store that stays in order keeps the session in order. -/
lemma Provided.keep (p : s.Provided suite chance least owner) (extended : owner.Extends owner')
    {least' : Nat} (q : t.Provided suite chance least' owner') (honest : t.store.Honest) (i : Nat) :
    (s.keep i t).Provided suite chance least' owner' := by
  -- the envelopes of the others have no more than the owners from before
  have keyed (seat : Seat) (same : seat.envelope = t.envelope) :
      ∀ seat', some seat' ∈ s.seats.set i (some seat) →
        seat'.envelope.Keyed suite chance owner' := by
    intro seat' among
    rcases List.mem_or_eq_of_mem_set among with other | new
    · exact (p.keyed seat' other).extend extended
    · cases new
      rw [same]
      exact q.provided.key
  rw [Session.keep]
  split
  · exact ⟨p.suite_eq, q.chance_eq, q.least_le, q.provided.unarmed, q.provided.vault,
      keyed _ rfl, p.honest⟩
  · refine ⟨p.suite_eq, q.chance_eq, q.least_le, q.provided.unarmed, q.provided.vault,
      keyed _ rfl, ?_⟩
    intro stock among
    rcases List.mem_or_eq_of_mem_set among with other | rfl
    · exact p.honest stock other
    · exact honest

/-- A request keeps a session in order. -/
lemma Provided.request (p : s.Provided suite chance least owner) (i : Nat) (r : Request) :
    ∃ owner', owner.Extends owner' ∧ (s.request i r).2.Provided suite chance least owner' := by
  rw [Session.request, attend]
  cases there : s.typed? i with
  | none => exact ⟨owner, .refl owner, p⟩
  | some t =>
    obtain ⟨q, honest⟩ := p.typed there
    obtain ⟨owner', extended, q⟩ := TypedStore.perform_provided q r
    have honest := TypedStore.perform_store Stock.Honest.write honest r
    exact ⟨owner', extended, p.keep extended q honest i⟩

/-- What is done with a file store keeps a session in order. -/
lemma Provided.withFile {α : Type} (p : s.Provided suite chance least owner) (i : Nat)
    (f : FileStore → Disk → α × FileStore × Disk) :
    (s.withFile i f).2.Provided suite chance least owner := by
  rw [Session.withFile]
  cases seated : (s.seats[i]?).join with
  | none => exact p
  | some seat =>
    dsimp only
    cases seat.file with
    | none => exact p
    | some file =>
      have old := p.keyed seat (List.mem_of_getElem? (Option.join_eq_some_iff.1 seated))
      refine { p with keyed := p.seat _ ?_ }
      intro seat' same
      cases same
      exact old

/-- To close a typed store keeps a session in order. -/
lemma Provided.close (p : s.Provided suite chance least owner) (i : Nat) :
    (s.close i).Provided suite chance least owner := by
  have settled : (s.settle i).Provided suite chance least owner := p.withFile i _
  exact { settled with keyed := settled.seat none fun _ same => nomatch same }

/-- A new envelope has no keypair and is not poisoned. -/
lemma outfit_fresh {terms : Terms} {o : Envelope × Option Registry} (h : outfit terms = .ok o) :
    o.1.key = none ∧ o.1.poisoned = false := by
  rw [outfit] at h
  split at h
  · cases h
    exact ⟨rfl, rfl⟩
  · split at h
    · cases h
      exact ⟨rfl, rfl⟩
    next keyAlias _ =>
      rw [Envelope.setAlias] at h
      split at h
      · cases h
      · cases h
        exact ⟨rfl, rfl⟩

/-- What a typed store is opened with: a store in a file only where the values are kept in one. -/
lemma newSeat_eq_ok {seat : Seat} (opened : s.newSeat = .ok seat) : ∃ o file,
    outfit s.terms = .ok o ∧ seat = { envelope := o.1, registry := o.2, file } ∧
      (file.isSome → ∃ path, s.terms.storage = .file path) := by
  rw [newSeat] at opened
  split at opened
  next path storage =>
    obtain ⟨file, -, opened⟩ := bind_eq_ok.1 opened
    obtain ⟨o, worn, made⟩ := bind_eq_ok.1 opened
    exact ⟨o, file, worn, (Except.ok.inj made).symm, fun _ => ⟨path, storage⟩⟩
  next =>
    rw [pure_bind] at opened
    obtain ⟨o, worn, made⟩ := bind_eq_ok.1 opened
    exact ⟨o, none, worn, (Except.ok.inj made).symm, nofun⟩

/-- A typed store is opened without a keypair. -/
lemma newSeat_fresh {seat : Seat} (opened : s.newSeat = .ok seat) :
    seat.envelope.key = none ∧ seat.envelope.poisoned = false := by
  obtain ⟨o, file, worn, rfl, -⟩ := newSeat_eq_ok opened
  exact outfit_fresh worn

/-- To open a typed store keeps a session in order. -/
lemma Provided.openAt (p : s.Provided suite chance least owner) (i : Nat) :
    (s.openAt i).2.Provided suite chance least owner := by
  rw [Session.openAt]
  cases opened : s.newSeat with
  | error e => exact { p with keyed := p.seat none fun _ same => nomatch same }
  | ok seat =>
    refine { p with keyed := p.seat (some seat) fun seat' same => ?_ }
    cases same
    exact .of_none (newSeat_fresh opened).1

/-- A deed keeps a session in order. -/
lemma Provided.act (p : s.Provided suite chance least owner) {d : Deed} (truthful : d.Truthful) :
    ∃ owner', owner.Extends owner' ∧ (s.act d).2.Provided suite chance least owner' := by
  cases d with
  | request i r => exact p.request i r
  | work i => exact ⟨owner, .refl owner, p.withFile i _⟩
  | close i => exact ⟨owner, .refl owner, p.close i⟩
  | reopen i => exact ⟨owner, .refl owner, (p.close i).openAt i⟩
  | disturb d => exact ⟨owner, .refl owner, { p with vault := p.vault.disturb truthful }⟩

/-- A run of deeds keeps a session in order. -/
lemma Provided.actAll (p : s.Provided suite chance least owner) {ds : List Deed}
    (truthful : ∀ d ∈ ds, d.Truthful) :
    ∃ owner', owner.Extends owner' ∧ (s.actAll ds).2.Provided suite chance least owner' := by
  induction ds generalizing s owner with
  | nil => exact ⟨owner, .refl owner, p⟩
  | cons d ds ih =>
    obtain ⟨first, rest⟩ := List.forall_mem_cons.1 truthful
    obtain ⟨owner₁, extended, p₁⟩ := p.act first
    obtain ⟨owner₂, more, p₂⟩ := ih p₁ rest
    exact ⟨owner₂, extended.trans more, p₂⟩

/-- A session is in order from the start. -/
lemma Provided.start {terms : Terms} {vault : Vault} {supply : Supply}
    (honest : (freshStock terms).Honest)
    (owned : vault.Owned suite supply.chance supply.used owner) (disk : Disk) (count : Nat) :
    (start terms disk vault supply count suite).2.Provided suite supply.chance 0 owner := by
  have opened (s : Session) (p : s.Provided suite supply.chance 0 owner) (n : Nat) :
      (s.openAll n).2.Provided suite supply.chance 0 owner := by
    induction n with
    | zero => exact p
    | succ n ih => exact ih.openAt n
  refine opened _ ⟨rfl, rfl, Nat.zero_le _, rfl, owned, ?_, ?_⟩ count
  · intro seat among
    cases List.eq_of_mem_replicate among
  · intro stock among
    rw [List.eq_of_mem_replicate among]
    exact honest

end Session

end Preferences
