import Preferences.Proofs.Keys.Unsteady
import Preferences.Proofs.Typed.Poisoned
import Preferences.Store.Memory

/-!
# Keyring entries under typed stores

A typed store comes to its key facility only to look up the keypair of the active alias. Over a
keyring, whatever faults there are, that never changes an entry that is there, however broken it is:
such an entry makes the look-up fail and keeps the envelope from getting ready. Main statement:
`provisioning_overwrites_no_entry`.
-/

namespace Preferences

namespace Envelope

variable {φ : Type} [KeyFacility φ] {e : Envelope} {f : φ}

/-- The facility was left alone, or was asked for the keypair of the alias that is active. -/
def Consults (e : Envelope) (f f' : φ) : Prop :=
  f' = f ∨ ∃ a calls result, e.activeAlias = some a ∧ Asked f calls f' ∧ LookedUp a calls result

/-- A look-up consults the facility about the active alias alone. -/
lemma ready_consults (suite : Suite) (chance : Chance) :
    e.Consults f (e.ready suite chance f).2.2 := by
  obtain ⟨keyAlias, key, poisoned⟩ := e
  rcases poisoned with _ | _
  · rcases key with _ | handle
    · rcases keyAlias with _ | a
      · exact .inl rfl
      · obtain ⟨calls, r, f', ran, -, asked, looked⟩ :=
          Journaled.notes_provision suite chance a f []
        refine .inr ⟨a, calls, r, rfl, ?_, looked⟩
        simp only [ready, ran]
        rcases r with (_ | _) | _ <;> exact asked
    · exact .inl rfl
  · exact .inl rfl

/-- A use of an envelope consults the facility about the active alias alone. -/
lemma use_consults (use : Shared.Use) (suite : Suite) (chance : Chance) :
    e.Consults f (use.whole suite chance e f).2.2 := by
  rw [use.whole_eq]
  split
  · exact .inl rfl
  · have consults : e.Consults f (e.ready suite chance f).2.2 := ready_consults suite chance
    rcases out : e.ready suite chance f with ⟨_ | _, e', f'⟩ <;> rw [out] at consults <;>
      exact consults

variable {suite : Suite} {chance : Chance} {u : Unsteady} {a : String} {bs : Bytes}

/-- A look-up of an entry that cannot be read fails and leaves the envelope as it is. -/
lemma ready_unusable (unready : e.isReady = false) (chosen : e.keyAlias = some a)
    (kept : u.entries.get? ⟨u.service, a⟩ = some bs) (broken : ¬ u.Reads a bs)
    (honest : (e.ready suite chance u).2.2.misled = false) :
    ∃ error u', error.Unusable a ∧
      e.ready suite chance u = (.error (.error (.keyFacility error)), e, u') := by
  obtain ⟨keyAlias, key, poisoned⟩ := e
  cases chosen
  rcases poisoned with _ | _
  · rcases key with _ | handle
    · obtain ⟨calls, result, u', ran, -, asked, looked⟩ :=
        Journaled.notes_provision suite chance a u []
      simp only [ready, ran] at honest ⊢
      have honest : u'.misled = false := by rcases result with (_ | _) | _ <;> exact honest
      obtain reads | ⟨error, rfl, unusable⟩ :=
        Unsteady.reads_or_unusable kept asked looked honest
      · exact absurd reads broken
      · exact ⟨error, u', unusable, rfl⟩
    · cases unready
  · exact ⟨.unavailable .poisoned, u, trivial, rfl⟩

/-- With an entry that cannot be read a use of the envelope fails, and the envelope is as it was. -/
lemma use_unusable {use : Shared.Use} (given : use.argument ≠ "") (unready : e.isReady = false)
    (chosen : e.keyAlias = some a) (kept : u.entries.get? ⟨u.service, a⟩ = some bs)
    (broken : ¬ u.Reads a bs) (honest : (use.whole suite chance e u).2.2.misled = false) :
    ∃ error u', error.Unusable a ∧
      use.whole suite chance e u = (.error (.error (.keyFacility error)), e, u') := by
  rw [use.whole_eq, if_neg given] at honest ⊢
  have honest : (e.ready suite chance u).2.2.misled = false := by
    rcases out : e.ready suite chance u with ⟨_ | _, e', u'⟩ <;> rw [out] at honest <;> exact honest
  obtain ⟨error, u', unusable, out⟩ := ready_unusable unready chosen kept broken honest
  rw [out]
  exact ⟨error, u', unusable, rfl⟩

end Envelope

namespace TypedStore

section Consults

variable {σ φ : Type} [Store σ] [KeyFacility φ]

/-- Whatever is asked of a typed store, its key facility is asked for one keypair at most. -/
lemma perform_consults (s : TypedStore σ φ) (r : Request) :
    s.envelope.Consults s.facility (s.perform r).2.facility := by
  have used (use : Shared.Use) : s.envelope.Consults s.facility (s.useEnvelope use).2.facility :=
    Envelope.use_consults use s.suite s.supply.next.1
  cases confidential : r.confidential with
  | false => exact .inl (perform_plain (s := s) (t := s) ⟨rfl, rfl⟩ confidential).2.2.2
  | true =>
    cases r with
    | get | set | contains | addAdapter | hasAdapter | serialize | deserialize | storeRead
      | storeGet | storeContains | stage => cases confidential
    | activeAlias | isReady => exact .inl rfl
    | setAlias keyAlias =>
      simp only [perform, setAlias]
      cases s.envelope.setAlias keyAlias <;> exact .inl rfl
    | encrypt text => exact used (.seals text)
    | decrypt text => exact used (.opens text)
    | setSealed key text =>
      show s.envelope.Consults s.facility (s.setSealed key text).2.facility
      rw [setSealed, encrypt_eq]
      cases requireKey key with
      | error => exact .inl rfl
      | ok =>
        have consults := used (.seals text)
        rcases out : s.useEnvelope (.seals text) with ⟨_ | sealedText, s'⟩ <;> rw [out] at consults
        · exact consults
        · -- what is left to do is a plain request
          obtain ⟨-, -, -, same⟩ := perform_plain (s := s') (t := s')
            (r := .set (.primitive .string) key sealedText .apply) ⟨rfl, rfl⟩ rfl
          exact same.symm ▸ consults
    | getSealed key =>
      show s.envelope.Consults s.facility (s.getSealed key).2.facility
      rw [getSealed_eq]
      cases requireKey key with
      | error => exact .inl rfl
      | ok =>
        cases Store.get s.store .string key "" with
        | error => exact .inl rfl
        | ok sealedText => exact used (.opens sealedText)

end Consults

variable {σ : Type} [Store σ] {s : TypedStore σ Unsteady} {r : Request} {bs : Bytes}

/-- A facility that was not misled by a request had not been before. -/
lemma honest_of_perform (honest : (s.perform r).2.facility.misled = false) :
    s.facility.misled = false := by
  obtain same | ⟨_, _, _, -, asked, -⟩ := s.perform_consults r
  · rwa [same] at honest
  · exact Unsteady.honest_of_asked asked honest

/-- A facility that was not misled by any of the requests had not been before. -/
lemma honest_of_performAll {rs : List Request}
    (honest : (s.performAll rs).2.facility.misled = false) : s.facility.misled = false := by
  induction rs generalizing s with
  | nil => exact honest
  | cons r rs ih => exact honest_of_perform (ih honest)

/-- One request changes no entry that there is, and adds none but that of the active alias. -/
lemma get?_perform (honest : (s.perform r).2.facility.misled = false) :
    (s.perform r).2.facility.service = s.facility.service ∧ ∀ account : Account,
      (s.perform r).2.facility.entries.get? account = s.facility.entries.get? account ∨
        s.facility.entries.get? account = none ∧ account.service = s.facility.service ∧
          s.envelope.activeAlias = some account.user := by
  obtain same | ⟨a, calls, result, active, asked, looked⟩ := s.perform_consults r
  · rw [same]
    exact ⟨rfl, fun _ => .inl rfl⟩
  · obtain ⟨service, entries⟩ := Unsteady.get?_of_lookedUp asked looked honest
    refine ⟨service, fun account => (entries account).imp_right ?_⟩
    rintro ⟨absent, rfl⟩
    exact ⟨absent, rfl, active⟩

/-- Requests keep every entry, if the facility was not misled. -/
lemma get?_performAll {rs : List Request} (honest : (s.performAll rs).2.facility.misled = false)
    {account : Account} (kept : s.facility.entries.get? account = some bs) :
    (s.performAll rs).2.facility.entries.get? account = some bs := by
  induction rs generalizing s with
  | nil => exact kept
  | cons r rs ih =>
    obtain ⟨-, entries⟩ := get?_perform (s := s) (r := r) (honest_of_performAll honest)
    obtain same | ⟨absent, -⟩ := entries account
    · exact ih honest (same.trans kept)
    · cases kept.symm.trans absent

/-- Under typed stores over a keyring, whatever its credential store has and whichever faults the
calls to it meet, as long as no look-up is told that there is no entry where there is one: no
request changes an entry of any service or user, and the only one it may add is that of the active
alias, if there was none; so in any number of requests every entry stays as it is. If the entry of
the active alias cannot be read, or holds no keypair, then to seal or open a text with an envelope
that is not ready fails with the keyring unavailable or the entry corrupt, and the envelope stays as
it is, not ready. Plain keyrings are included: they answer as those with the same faults at every
call. -/
theorem provisioning_overwrites_no_entry {σ : Type} [Store σ] (s : TypedStore σ Unsteady) :
    (∀ r : Request, (s.perform r).2.facility.misled = false →
      (s.perform r).2.facility.service = s.facility.service ∧ ∀ account : Account,
        (s.perform r).2.facility.entries.get? account = s.facility.entries.get? account ∨
          s.facility.entries.get? account = none ∧ account.service = s.facility.service ∧
            s.envelope.activeAlias = some account.user) ∧
    (∀ rs : List Request, (s.performAll rs).2.facility.misled = false →
      ∀ account bs, s.facility.entries.get? account = some bs →
        (s.performAll rs).2.facility.entries.get? account = some bs) ∧
    (∀ a bs, s.envelope.isReady = false → s.envelope.keyAlias = some a →
      s.facility.entries.get? ⟨s.facility.service, a⟩ = some bs → ¬ s.facility.Reads a bs →
      ∀ text r, text ≠ "" → r = .encrypt text ∨ r = .decrypt text →
        (s.perform r).2.facility.misled = false →
          (∃ error, error.Unusable a ∧
            (s.perform r).1 = .error (.error (.keyFacility error))) ∧
          (s.perform r).2.envelope = s.envelope) ∧
    ∀ (k : Keyring) (qs : List KeyRequest),
      (putAll (Unsteady.steady k) qs).1 = (putAll k qs).1 := by
  refine ⟨fun r honest => get?_perform honest,
    fun rs honest account bs kept => get?_performAll honest kept, ?_,
    fun k qs => Unsteady.steady_alike.putAll ⟨rfl, fun _ => rfl⟩ qs⟩
  intro a bs unready chosen kept broken text r given asked honest
  have failed (use : Shared.Use) (given : use.argument ≠ "")
      (honest : (s.useEnvelope use).2.facility.misled = false) :
      (∃ error, error.Unusable a ∧ (s.useEnvelope use).1 = .error (.error (.keyFacility error))) ∧
        (s.useEnvelope use).2.envelope = s.envelope := by
    obtain ⟨error, u', unusable, out⟩ :=
      Envelope.use_unusable given unready chosen kept broken honest
    rw [useEnvelope, out]
    exact ⟨⟨error, unusable, rfl⟩, rfl⟩
  obtain rfl | rfl := asked
  · obtain ⟨⟨error, unusable, out⟩, same⟩ := failed (.seals text) given honest
    exact ⟨⟨error, unusable, congrArg (Except.map Reply.text) out⟩, same⟩
  · obtain ⟨⟨error, unusable, out⟩, same⟩ := failed (.opens text) given honest
    exact ⟨⟨error, unusable, congrArg (Except.map Reply.text) out⟩, same⟩

/-- A keyring is locked when it is first called. Its entry for the active alias is not UTF-8, and
another service has one for the same alias. Neither is touched, and no text is sealed. -/
theorem garbled_entry_stays :
    let locked : CredentialStage → Option CredentialFault
      | .get => some .access
      | _ => none
    let u : Unsteady :=
      { service := "prefs"
        entries := (Table.insert ∅ ⟨"mail", "a"⟩ [1]).insert ⟨"prefs", "a"⟩ [255]
        faults := fun n => if n = 0 then locked else fun _ => none }
    let s : TypedStore MemoryStore Unsteady :=
      { store := {}, facility := u, envelope := { keyAlias := some "a" }
        supply := .sample }
    let rs : List Request := [.getSealed "k", .setSealed "k" "text", .decrypt "text"]
    (s.performAll rs).2.facility.entries.get? ⟨"prefs", "a"⟩ = some [255] ∧
      (s.performAll rs).2.facility.entries.get? ⟨"mail", "a"⟩ = some [1] ∧
      (∃ error, error.Unusable "a" ∧
        ((s.performAll rs).2.perform (.encrypt "text")).1 = .error (.error (.keyFacility error))) ∧
      ((s.performAll rs).2.perform (.encrypt "text")).2.envelope.isReady = false := by
  intro locked u s rs
  have kept : u.entries.get? ⟨"prefs", "a"⟩ = some [255] := Table.get?_insert_self _ _ _
  have foreign : u.entries.get? ⟨"mail", "a"⟩ = some [1] := by
    rw [Table.get?_insert_of_ne _ _ (by decide), Table.get?_insert_self]
  obtain ⟨-, stays, -⟩ := provisioning_overwrites_no_entry s
  have honest : (s.performAll rs).2.facility.misled = false := by decide +kernel
  have kept' := stays rs honest _ _ kept
  refine ⟨kept', stays rs honest _ _ foreign, ?_⟩
  have garbled : ¬ (s.performAll rs).2.facility.Reads "a" [255] := by
    rintro ⟨-, text, _, _, bytes, -⟩
    have failed : (Utf8.decode [255]).toOption = none := by decide +kernel
    rw [bytes, Utf8.decode_utf8] at failed
    cases failed
  obtain ⟨-, -, fails, -⟩ := provisioning_overwrites_no_entry (s.performAll rs).2
  have service : (s.performAll rs).2.facility.service = "prefs" := by decide +kernel
  obtain ⟨error, same⟩ := fails "a" [255] (by decide +kernel) (by decide +kernel)
    (by rw [service, kept']) garbled "text" (.encrypt "text") (by decide) (.inl rfl)
    (by decide +kernel)
  refine ⟨error, ?_⟩
  rw [same]
  decide +kernel

end TypedStore

end Preferences
