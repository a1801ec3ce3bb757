import Preferences.Keys.Memory
import Preferences.Proofs.Envelope.Journal
import Preferences.Proofs.Keys.Keyring

/-!
# Key facilities that cannot be told apart

A facility in memory and a keyring with the same records give the same answer to every request, and
have the same records afterwards. A credential store may keep entries for other services: they show
in no answer, whatever faults there are, and no request touches them. Main statement:
`keyring_answers_as_memory`.
-/

namespace Preferences

variable {φ ψ : Type} [KeyFacility φ] [KeyFacility ψ]

/-- Puts requests to a facility in turn. -/
def putAll (f : φ) : List KeyRequest → List Exchange × φ
  | [] => ([], f)
  | q :: qs =>
    let (reply, f) := q.put f
    let (calls, f) := putAll f qs
    (⟨q, reply⟩ :: calls, f)

/-- States of two facilities that no request can tell apart, also afterwards. -/
def KeyFacility.Alike (R : φ → ψ → Prop) : Prop :=
  ∀ {f : φ} {g : ψ}, R f g → ∀ q : KeyRequest,
    (q.put g).1 = (q.put f).1 ∧ R (q.put f).2 (q.put g).2

/-- Facilities that are alike answer all requests alike. -/
lemma KeyFacility.Alike.putAll {R : φ → ψ → Prop} (alike : KeyFacility.Alike R) {f : φ} {g : ψ}
    (related : R f g) (qs : List KeyRequest) :
    (Preferences.putAll g qs).1 = (Preferences.putAll f qs).1 := by
  induction qs generalizing f g with
  | nil => rfl
  | cons q qs ih =>
    obtain ⟨same, related⟩ := alike related q
    exact congrArg₂ List.cons (congrArg (Exchange.mk q) same) (ih related)

namespace Keyring

variable {k k' : Keyring} {a : String} {f : MemoryFacility}

/-- A request leaves a keyring alone, or has it generate a keypair and puts an entry of its
service. -/
lemma put_cases (q : KeyRequest) (k : Keyring) : (q.put k).2 = k ∨
    ∃ a validity pair bs, q = .generate a validity pair ∧
      (q.put k).2 = { k with credentials := k.credentials.put ⟨k.service, a⟩ bs } := by
  cases q with
  | hasKeypair | publicKey | secretKey => exact .inl rfl
  | generate a validity pair =>
    simp only [KeyRequest.put, KeyFacility.generate, generate, entry, CredentialStore.pass,
      CredentialStore.setText]
    cases k.credentials.fault? .build with
    | some fault => exact .inl rfl
    | none =>
      cases k.credentials.fault? .set with
      | some fault => exact .inl rfl
      | none => exact .inr ⟨a, validity, pair, _, rfl, rfl⟩

/-- A request leaves a keyring with its service. -/
lemma service_put (q : KeyRequest) (k : Keyring) : (q.put k).2.service = k.service := by
  rcases put_cases q k with same | ⟨a, _, _, bs, -, put⟩
  · rw [same]
  · rw [put]

/-- No request touches an entry of another service. -/
lemma get?_put_of_service_ne {account : Account} (foreign : account.service ≠ k.service)
    (q : KeyRequest) : (q.put k).2.credentials.entries.get? account =
      k.credentials.entries.get? account := by
  rcases put_cases q k with same | ⟨a, _, _, bs, -, put⟩
  · rw [same]
  · have apart : account ≠ ⟨k.service, a⟩ := fun same => foreign (congrArg Account.service same)
    rw [put]
    exact Table.get?_insert_of_ne _ _ apart

/-- Requests leave the entries of other services as they were. -/
lemma get?_putAll_of_service_ne {account : Account} (foreign : account.service ≠ k.service)
    (qs : List KeyRequest) : (putAll k qs).2.credentials.entries.get? account =
      k.credentials.entries.get? account := by
  induction qs generalizing k with
  | nil => rfl
  | cons q qs ih =>
    have foreign' : account.service ≠ (q.put k).2.service := by rwa [service_put]
    exact (ih foreign').trans (get?_put_of_service_ne foreign q)

/-! ## A keyring and a facility in memory -/

/-- Both are up and have the same records. -/
structure Twins (f : MemoryFacility) (k : Keyring) : Prop where
  available : f.unavailable = false
  up : ∀ stage, k.credentials.fault? stage = none
  records : ∀ a, k.credentials.entries.get? ⟨k.service, a⟩ = (f.records.get? a).map utf8

namespace Twins

/-- Twins load alike. -/
lemma load (twins : Twins f k) (a : String) : k.load a = f.load a := by
  rw [load_of_up (twins.up .build) (twins.up .get), twins.records, MemoryFacility.load,
    MemoryFacility.checkAvailable, twins.available]
  cases f.records.get? a with
  | none => rfl
  | some text =>
    simp only [Option.map_some, Utf8.decode_utf8]
    rfl

/-- The keyring learns from a look-up what the facility in memory knows without one. -/
lemma hasKeypair (twins : Twins f k) (a : String) : k.hasKeypair a = f.hasKeypair a := by
  rw [Keyring.hasKeypair, twins.load, MemoryFacility.load, MemoryFacility.hasKeypair,
    MemoryFacility.checkAvailable, twins.available, Table.contains]
  cases f.records.get? a <;> rfl

/-- Twins generate alike, and stay twins. -/
lemma generate (twins : Twins f k) (a : String) (validity : Validity) (pair : Keypair) :
    ∃ f' k', f.generate a validity pair = .ok f' ∧ k.generate a validity pair = .ok k' ∧
      Twins f' k' := by
  let text := (KeypairRecord.make a validity pair).render
  refine ⟨{ f with records := f.records.insert a text, generated := f.generated + 1 },
    { k with credentials := k.credentials.put ⟨k.service, a⟩ (utf8 text) }, ?_, ?_,
    twins.available, twins.up, fun b => ?_⟩
  · rw [MemoryFacility.generate, MemoryFacility.checkAvailable, twins.available]
    rfl
  · simp only [Keyring.generate, entry, CredentialStore.pass, CredentialStore.setText, twins.up]
    rfl
  · simp only [CredentialStore.put]
    by_cases same : b = a
    · subst same
      rw [Table.get?_insert_self, Table.get?_insert_self]
      rfl
    · have apart : (⟨k.service, b⟩ : Account) ≠ ⟨k.service, a⟩ := fun h =>
        same (congrArg Account.user h)
      rw [Table.get?_insert_of_ne _ _ apart, Table.get?_insert_of_ne _ _ same, twins.records]

/-- Requests cannot tell twins from each other. -/
lemma alike : KeyFacility.Alike Twins := by
  intro f k twins q
  cases q with
  | hasKeypair a => exact ⟨congrArg (Except.mapError Halt.error) (twins.hasKeypair a), twins⟩
  | publicKey a =>
    have same : k.load a >>= decodePublic a = f.load a >>= decodePublic a := by rw [twins.load]
    exact ⟨congrArg (Except.mapError Halt.error) same, twins⟩
  | secretKey a =>
    have same : k.load a >>= decodeSecret a = f.load a >>= decodeSecret a := by rw [twins.load]
    exact ⟨congrArg (Except.mapError Halt.error) same, twins⟩
  | generate a validity pair =>
    obtain ⟨f', k', inMemory, inKeyring, twins'⟩ := twins.generate a validity pair
    simp only [KeyRequest.put, KeyFacility.generate, inMemory, inKeyring]
    exact ⟨rfl, twins'⟩

end Twins

/-! ## Two keyrings over one service -/

/-- The credential stores fail alike and have the same entries for the service. -/
structure SameService (k k' : Keyring) : Prop where
  service : k'.service = k.service
  faults : k'.credentials.fault? = k.credentials.fault?
  entries : ∀ a, k'.credentials.entries.get? ⟨k.service, a⟩ =
    k.credentials.entries.get? ⟨k.service, a⟩

namespace SameService

/-- Keyrings with the same entries of a service load alike. -/
lemma load (same : SameService k k') (a : String) : k'.load a = k.load a := by
  simp only [Keyring.load, entry, CredentialStore.pass, same.service, same.faults]
  cases k.credentials.fault? .build with
  | some fault => rfl
  | none =>
    simp only [CredentialStore.getText, CredentialStore.pass, same.faults, bind, Except.bind,
      same.entries]

/-- What is put under the service is put in both. -/
lemma put (same : SameService k k') (a : String) (bs : Bytes) :
    SameService { k with credentials := k.credentials.put ⟨k.service, a⟩ bs }
      { k' with credentials := k'.credentials.put ⟨k'.service, a⟩ bs } where
  service := same.service
  faults := same.faults
  entries b := by
    simp only [CredentialStore.put, same.service, Table.get?_insert, same.entries]

/-- Requests cannot tell keyrings with the same entries of a service from each other. -/
lemma alike : KeyFacility.Alike SameService := by
  intro k k' same q
  cases q with
  | hasKeypair a =>
    have asked : k'.hasKeypair a = k.hasKeypair a := by
      rw [Keyring.hasKeypair, Keyring.hasKeypair, same.load]
    exact ⟨congrArg (Except.mapError Halt.error) asked, same⟩
  | publicKey a =>
    have loaded : k'.load a >>= decodePublic a = k.load a >>= decodePublic a := by rw [same.load]
    exact ⟨congrArg (Except.mapError Halt.error) loaded, same⟩
  | secretKey a =>
    have loaded : k'.load a >>= decodeSecret a = k.load a >>= decodeSecret a := by rw [same.load]
    exact ⟨congrArg (Except.mapError Halt.error) loaded, same⟩
  | generate a validity pair =>
    simp only [KeyRequest.put, KeyFacility.generate, generate, entry, CredentialStore.pass,
      CredentialStore.setText, same.faults]
    cases k.credentials.fault? .build with
    | some fault => exact ⟨rfl, same⟩
    | none =>
      cases k.credentials.fault? .set with
      | some fault => exact ⟨rfl, same⟩
      | none => exact ⟨rfl, same.put a _⟩

end SameService

end Keyring

/-- A keyring whose service has no entries, over a credential store without faults, gives the same
answer to each of any number of requests as a facility in memory that is up and has no records. It
touches no entry of another service, and every credential store with the same entries for the
service, be there any or none, gives the same answers under the same faults. -/
theorem keyring_answers_as_memory {f : MemoryFacility} (available : f.unavailable = false)
    (new : ∀ a, f.records.get? a = none) {k : Keyring}
    (up : ∀ stage, k.credentials.fault? stage = none)
    (vacant : ∀ a, k.credentials.entries.get? ⟨k.service, a⟩ = none) (qs : List KeyRequest) :
    (putAll k qs).1 = (putAll f qs).1 ∧
    (∀ account : Account, account.service ≠ k.service →
      (putAll k qs).2.credentials.entries.get? account = k.credentials.entries.get? account) ∧
    ∀ c c' : CredentialStore, c'.fault? = c.fault? →
      (∀ a, c'.entries.get? ⟨k.service, a⟩ = c.entries.get? ⟨k.service, a⟩) →
      (putAll { k with credentials := c' } qs).1 = (putAll { k with credentials := c } qs).1 := by
  have twins : Keyring.Twins f k := ⟨available, up, fun a => by rw [vacant, new]; rfl⟩
  refine ⟨Keyring.Twins.alike.putAll twins qs, fun account foreign =>
    Keyring.get?_putAll_of_service_ne foreign qs, fun c c' faults entries => ?_⟩
  have same : Keyring.SameService { k with credentials := c } { k with credentials := c' } :=
    ⟨rfl, faults, entries⟩
  exact Keyring.SameService.alike.putAll same qs

/-- A facility in memory finds no keypair at first, and the later one of two that are generated. -/
lemma MemoryFacility.putAll_generate_twice (a : String) (window : Validity) (p p' : Keypair) :
    (putAll ({} : MemoryFacility) [.secretKey a, .generate a window p, .generate a window p',
      .hasKeypair a, .publicKey a]).1 =
      [⟨.secretKey a, .error (.error (.notFound a))⟩, ⟨.generate a window p, .ok ()⟩,
        ⟨.generate a window p', .ok ()⟩, ⟨.hasKeypair a, .ok true⟩,
        ⟨.publicKey a, .ok p'.publicKey⟩] := by
  let record (pair : Keypair) := (KeypairRecord.make a window pair).render
  let f : MemoryFacility :=
    { records := (Table.insert ∅ a (record p)).insert a (record p'), generated := 2 }
  have kept : f.records.get? a = some (record p') := Table.get?_insert_self _ _ _
  have there : (f.hasKeypair a).mapError Halt.error = .ok true := by
    rw [hasKeypair, Table.contains, kept]
    rfl
  have found : (f.load a >>= decodePublic a).mapError Halt.error = .ok p'.publicKey := by
    have loaded : f.load a = .ok (record p') := by
      rw [load, kept]
      rfl
    have decoded : decodePublic a (record p') = .ok p'.publicKey := decodePublic_render ..
    simp only [loaded, bind, Except.bind, decoded]
    rfl
  exact congrArg₂ (fun (there : Except (Halt KeyError) Bool)
    (found : Except (Halt KeyError) PublicKey) => ([⟨.secretKey a, .error (.error (.notFound a))⟩,
      ⟨.generate a window p, .ok ()⟩, ⟨.generate a window p', .ok ()⟩, ⟨.hasKeypair a, there⟩,
      ⟨.publicKey a, found⟩] : List Exchange)) there found

/-- Where another service has an entry for the same alias, a keyring finds no keypair at first and
the later one of two that are generated, and leaves that entry alone. -/
theorem keyring_answers_beside_foreign_entry :
    let now := (Chance.sample 0).now
    let window : Validity := ⟨now, now⟩
    let pair (b : UInt8) : Keypair := ⟨⟨.replicate 32 b, List.length_replicate⟩,
      ⟨.replicate 32 b, List.length_replicate⟩⟩
    let k : Keyring := ⟨"prefs", { entries := Table.insert ∅ ⟨"mail", "a"⟩ [1] }⟩
    let qs : List KeyRequest := [.secretKey "a", .generate "a" window (pair 1),
      .generate "a" window (pair 2), .hasKeypair "a", .publicKey "a"]
    (∀ a, k.credentials.entries.get? ⟨"prefs", a⟩ = none) ∧
    (putAll k qs).1 =
      [⟨.secretKey "a", .error (.error (.notFound "a"))⟩, ⟨.generate "a" window (pair 1), .ok ()⟩,
        ⟨.generate "a" window (pair 2), .ok ()⟩, ⟨.hasKeypair "a", .ok true⟩,
        ⟨.publicKey "a", .ok (pair 2).publicKey⟩] ∧
    (putAll k qs).2.credentials.entries.get? ⟨"mail", "a"⟩ = some [1] := by
  intro now window pair k qs
  have vacant (a : String) : k.credentials.entries.get? ⟨"prefs", a⟩ = none := by
    have apart : (⟨"prefs", a⟩ : Account) ≠ ⟨"mail", "a"⟩ := by simp
    exact Table.get?_insert_of_ne _ _ apart
  obtain ⟨same, others, -⟩ :=
    keyring_answers_as_memory (f := {}) rfl (fun _ => rfl) (k := k) (fun _ => rfl) vacant qs
  exact ⟨vacant, same.trans (MemoryFacility.putAll_generate_twice ..),
    others ⟨"mail", "a"⟩ (by decide)⟩

end Preferences
