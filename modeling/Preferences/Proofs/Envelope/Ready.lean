import Preferences.Proofs.Envelope.Sealed
import Preferences.Proofs.Keys.Vault

/-!
# Envelopes and the keypairs of their aliases

An envelope that is used has the keypair that its active alias is owned by, or fails: without an
alias, for an outage of the facility, or in a crash at the end of the calendar. So what was sealed
under an alias is opened under the same alias and under no other. Main statements:
`Envelope.decrypt_same` and `Envelope.decrypt_other`.
-/

namespace Preferences

open Vault

/-- The keypair that an envelope has at hand is the one that its alias is owned by. -/
def Envelope.Keyed (suite : Suite) (chance : Nat → Chance) (owner : Owners) (e : Envelope) : Prop :=
  ∀ handle, e.key = some handle → ∃ a n, e.keyAlias = some a ∧ owner a = some n ∧
    handle = handleOf suite chance a n

/-- An envelope and the facility that it asks, at the random choice that is next. -/
structure Provided (suite : Suite) (chance : Nat → Chance) (used : Nat) (owner : Owners)
    (e : Envelope) (facility : Trapped Vault) : Prop where
  unarmed : facility.armed = false
  vault : facility.base.Owned suite chance used owner
  key : e.Keyed suite chance owner

namespace Envelope

variable {suite : Suite} {chance : Nat → Chance} {used : Nat} {owner : Owners} {e : Envelope}
  {facility : Trapped Vault} {keyAlias : String} {n : Nat}

/-- An envelope with a keypair of its alias's owner has one when there are more owners. -/
lemma Keyed.extend (h : e.Keyed suite chance owner) {owner' : Owners}
    (extended : owner.Extends owner') : e.Keyed suite chance owner' := by
  intro handle hand
  obtain ⟨a, n, chosen, owned, same⟩ := h handle hand
  exact ⟨a, n, chosen, extended a n owned, same⟩

/-- An envelope without a keypair has none but its owner's. -/
lemma Keyed.of_none (none : e.key = none) : e.Keyed suite chance owner := by
  intro handle hand
  rw [none] at hand
  cases hand

/-- Another alias drops the keypair at hand. -/
lemma Keyed.setAlias (h : e.Keyed suite chance owner) {e' : Envelope}
    (chosen : e.setAlias keyAlias = .ok e') : e'.Keyed suite chance owner := by
  rw [Envelope.setAlias] at chosen
  split at chosen
  · cases chosen
  · split at chosen
    · cases chosen
    · split at chosen
      · cases chosen
        exact h
      · cases chosen
        exact .of_none rfl

/-- An alias is active if it is chosen and the envelope is not poisoned. -/
lemma activeAlias_eq_some : e.activeAlias = some keyAlias ↔
    e.poisoned = false ∧ e.keyAlias = some keyAlias := by
  rw [activeAlias]
  cases e.poisoned <;> simp

/-- How the use of an envelope ends, given the keypairs that aliases have afterwards. -/
inductive Outcome (suite : Suite) (chance : Nat → Chance) (used : Nat) (owner : Owners)
    (active : Option String) : Except (Halt Error) KeyHandle → Prop where
  | ok {a : String} {n : Nat} (chosen : active = some a) (owned : owner a = some n) :
    Outcome suite chance used owner active (.ok (handleOf suite chance a n))
  | noAlias (none : active = none) :
    Outcome suite chance used owner active (.error (.error .noAlias))
  | keyFacility (fault : KeyError) :
    Outcome suite chance used owner active (.error (.error (.keyFacility fault)))
  | crash (late : Validity.oneYearFrom? (chance used).now = none) :
    Outcome suite chance used owner active (.error .crash)

/-- A use of an envelope has the keypair of the active alias or fails. -/
lemma ready_spec (p : Provided suite chance used owner e facility) :
    ∃ owner' r e' facility', e.ready suite (chance used) facility = (r, e', facility') ∧
      owner.Extends owner' ∧ Provided suite chance (used + 1) owner' e' facility' ∧
      Outcome suite chance used owner' e.activeAlias r := by
  have later : Provided suite chance (used + 1) owner e facility :=
    { p with vault := p.vault.mono (Nat.le_succ used) }
  rw [ready]
  cases poisoned : e.poisoned with
  | true => exact ⟨owner, _, e, facility, rfl, .refl owner, later, .keyFacility _⟩
  | false =>
    cases hand : e.key with
    | some handle =>
      obtain ⟨a, n, chosen, owned, rfl⟩ := p.key handle hand
      refine ⟨owner, _, e, facility, rfl, .refl owner, later, .ok ?_ owned⟩
      exact activeAlias_eq_some.2 ⟨poisoned, chosen⟩
    | none =>
      cases chosen : e.keyAlias with
      | none =>
        refine ⟨owner, _, e, facility, rfl, .refl owner, later, .noAlias ?_⟩
        rw [activeAlias, poisoned]
        exact chosen
      | some keyAlias =>
        have active : e.activeAlias = some keyAlias := activeAlias_eq_some.2 ⟨poisoned, chosen⟩
        obtain ⟨owner', v', extended, owned, outcome⟩ := p.vault.provision keyAlias
        -- a trap that is not armed lets the calls through
        have asked (r : Except (Halt KeyError) KeyHandle)
            (h : provision suite (chance used) keyAlias facility.base = (r, v')) :
            provision suite (chance used) keyAlias facility = (r, ⟨v', false⟩) := by
          rw [Trapped.provision_unarmed p.unarmed, Trapped.behind, h, p.unarmed]
        rcases outcome with ⟨n, known, done⟩ | ⟨fault, failed⟩ | ⟨late, failed⟩
        · dsimp only
          rw [asked _ done]
          refine ⟨owner', _, _, _, rfl, extended, ⟨rfl, owned, ?_⟩, .ok active known⟩
          intro handle same
          cases same
          exact ⟨keyAlias, n, rfl, known, rfl⟩
        · dsimp only
          rw [asked _ failed]
          refine ⟨owner', _, _, _, rfl, extended, ⟨rfl, owned, ?_⟩, .keyFacility fault⟩
          exact .of_none hand
        · dsimp only
          rw [asked _ failed]
          refine ⟨owner', _, _, _, rfl, extended, ⟨rfl, owned, ?_⟩, .crash late⟩
          intro handle same
          cases same

/-- An envelope whose keypair is at hand, or whose facility answers, has the keypair. -/
lemma ready_ok (p : Provided suite chance used owner e facility)
    (active : e.activeAlias = some keyAlias) (owned : owner keyAlias = some n)
    (resolvable : e.isReady = true ∨ facility.base.Answers) :
    (e.ready suite (chance used) facility).1 = .ok (handleOf suite chance keyAlias n) := by
  obtain ⟨sane, chosen⟩ := activeAlias_eq_some.1 active
  rw [ready, sane]
  cases hand : e.key with
  | some handle =>
    obtain ⟨a, m, named, known, rfl⟩ := p.key handle hand
    cases named.symm.trans chosen
    cases known.symm.trans owned
    rfl
  | none =>
    have answers : facility.base.Answers := by
      rcases resolvable with ready | answers
      · rw [isReady, hand, sane] at ready
        cases ready
      · exact answers
    have done : provision suite (chance used) keyAlias facility =
        (.ok (handleOf suite chance keyAlias n), facility) := by
      rw [Trapped.provision_unarmed p.unarmed, Trapped.behind,
        p.vault.provision_answers answers owned]
    rw [chosen]
    dsimp only
    rw [done]
    rfl

/-- The first look-up of a new envelope, with a facility in memory that is up. -/
lemma ready_memory (suite : Suite) {c : Chance} {f : MemoryFacility} (up : f.unavailable = false)
    (absent : f.records.get? keyAlias = none) (year : Validity.oneYearFrom? c.now ≠ none) :
    ∃ handle f', ready suite c ⟨some keyAlias, none, false⟩ (⟨.memory f, false⟩ : Trapped Vault) =
      (.ok handle, ⟨some keyAlias, some handle, false⟩, ⟨.memory f', false⟩) := by
  obtain ⟨validity, year⟩ := Option.ne_none_iff_exists'.1 year
  obtain ⟨handle, f', provisioned⟩ := provision_memory suite up absent year
  have found : provision suite c keyAlias (⟨.memory f, false⟩ : Trapped Vault) =
      (.ok handle, ⟨.memory f', false⟩) := by
    rw [Trapped.provision_unarmed rfl, Trapped.behind, provisioned]
  refine ⟨handle, f', ?_⟩
  simp only [ready, found]
  rfl

/-- The text sealed for the keypair that came from a random choice, with another random choice. -/
def sealedWith (suite : Suite) (chance : Nat → Chance) (n draw : Nat) (text : String) : String :=
  (suite.sealFor (suite.publicOf (chance n).keypairSecret) (chance draw).ephemeral
    (chance draw).nonce text).render

/-- Whatever comes of sealing a text, envelope and facility stay in order, and a sealed text is for
the keypair of the active alias. -/
lemma encrypt_spec (p : Provided suite chance used owner e facility) (text : String) :
    ∃ owner' r e' facility', e.encrypt suite (chance used) facility text = (r, e', facility') ∧
      owner.Extends owner' ∧ Provided suite chance (used + 1) owner' e' facility' ∧
      ∀ sealedText, r = .ok sealedText → ∃ a n, e.activeAlias = some a ∧ owner' a = some n ∧
        sealedText = sealedWith suite chance n used text := by
  rw [encrypt]
  split
  next =>
    refine ⟨owner, _, e, facility, rfl, .refl owner,
      { p with vault := p.vault.mono (Nat.le_succ used) }, fun _ same => ?_⟩
    cases same
  next =>
    obtain ⟨owner', r, e', facility', ready, extended, provided, outcome⟩ := ready_spec p
    rw [ready]
    cases outcome with
    | @ok a n active owned =>
      refine ⟨owner', _, e', facility', rfl, extended, provided, fun sealedText same => ?_⟩
      cases same
      exact ⟨a, n, active, owned, rfl⟩
    | noAlias | keyFacility | crash =>
      refine ⟨owner', _, e', facility', rfl, extended, provided, fun _ same => ?_⟩
      cases same

/-- Whatever comes of opening a text, envelope and facility stay in order. -/
lemma decrypt_spec (p : Provided suite chance used owner e facility) (sealedText : String) :
    ∃ owner' r e' facility',
      e.decrypt suite (chance used) facility sealedText = (r, e', facility') ∧
      owner.Extends owner' ∧ Provided suite chance (used + 1) owner' e' facility' := by
  rw [decrypt]
  split
  next =>
    exact ⟨owner, _, e, facility, rfl, .refl owner,
      { p with vault := p.vault.mono (Nat.le_succ used) }⟩
  next =>
    obtain ⟨owner', r, e', facility', ready, extended, provided, outcome⟩ := ready_spec p
    rw [ready]
    cases r with
    | error stop => exact ⟨owner', _, e', facility', rfl, extended, provided⟩
    | ok handle =>
      dsimp only
      cases openWith suite handle.pair sealedText with
      | error fault => exact ⟨owner', _, e', facility', rfl, extended, provided⟩
      | ok text => exact ⟨owner', _, e', facility', rfl, extended, provided⟩

/-- No sealed text is empty. -/
lemma sealedWith_ne_empty (suite : Suite) (chance : Nat → Chance) (n draw : Nat) (text : String) :
    sealedWith suite chance n draw text ≠ "" :=
  Sealed.render_ne_empty (suite.sealText_ne_nil _ _ _)

/-- A text is opened under the alias that it was sealed under. -/
theorem decrypt_same (ideal : suite.Ideal) (p : Provided suite chance used owner e facility)
    (active : e.activeAlias = some keyAlias) (owned : owner keyAlias = some n)
    (resolvable : e.isReady = true ∨ facility.base.Answers) (draw : Nat) (text : String) :
    (e.decrypt suite (chance used) facility (sealedWith suite chance n draw text)).1 =
      .ok text := by
  have ready := ready_ok p active owned resolvable
  rw [decrypt, if_neg (sealedWith_ne_empty suite chance n draw text)]
  generalize e.ready suite (chance used) facility = outcome at ready
  obtain ⟨r, e', facility'⟩ := outcome
  cases ready
  have opened : openWith suite (handleOf suite chance keyAlias n).pair
      (sealedWith suite chance n draw text) = .ok text := Suite.openWith_own ideal.agree_comm
  simp only [opened]

/-- The use of an envelope is refused by the cipher, by the facility, or in a crash at the end of
the calendar. -/
inductive Refused {α : Type} (now : Instant) : Except (Halt Error) α → Prop where
  | cipher (fault : CipherFault) : Refused now (.error (.error (.cipher fault)))
  | keyFacility (fault : KeyError) : Refused now (.error (.error (.keyFacility fault)))
  | crash (late : Validity.oneYearFrom? now = none) : Refused now (.error .crash)

/-- What is refused is so in whatever form it is answered. -/
lemma Refused.map {α β : Type} {now : Instant} {r : Except (Halt Error) α} (h : Refused now r)
    (f : α → β) : Refused now (r.map f) := by
  cases h with
  | cipher fault => exact .cipher fault
  | keyFacility fault => exact .keyFacility fault
  | crash late => exact .crash late

/-- A text is not opened under another alias than it was sealed under. -/
theorem decrypt_other (ideal : suite.Ideal)
    (independent : suite.Independent chance (used + 1))
    (p : Provided suite chance used owner e facility) {other : String}
    (active : e.activeAlias = some other) (apart : other ≠ keyAlias)
    (owned : owner keyAlias = some n) {draw : Nat} (drawn : draw < used) (text : String) :
    Refused (chance used).now
      (e.decrypt suite (chance used) facility (sealedWith suite chance n draw text)).1 := by
  obtain ⟨owner', r, e', facility', ready, extended, provided, outcome⟩ := ready_spec p
  rw [decrypt, if_neg (sealedWith_ne_empty suite chance n draw text), ready]
  cases outcome with
  | @ok a m chosen known =>
    cases chosen.symm.trans active
    -- the two aliases have different owners, so their keypairs derive different keys
    have differ : m ≠ n := by
      rintro rfl
      exact apart (provided.vault.single _ _ _ known (extended _ _ owned))
    have opened : openWith suite (handleOf suite chance other m).pair
        (sealedWith suite chance n draw text) = .error .rejected :=
      Suite.openWith_other ideal (independent m (provided.vault.kept _ _ known).1
        n (Nat.lt_succ_of_lt (p.vault.kept _ _ owned).1) draw (Nat.lt_succ_of_lt drawn) differ)
    simp only [opened]
    exact .cipher _
  | noAlias none => cases none.symm.trans active
  | keyFacility fault => exact .keyFacility fault
  | crash late => exact .crash late

end Envelope

end Preferences
