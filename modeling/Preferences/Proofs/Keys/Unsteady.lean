import Preferences.Proofs.Keys.Twins

/-!
# Keyrings with changing faults

A keyring over a credential store that fails now at one stage and now at another, by a schedule.
A look-up of an alias adds an entry for it only where there is none, unless the store was made to
deny the entry. Where there is one, the look-up reads it, or fails and says that it cannot be read.
Main statements: `Unsteady.steady_alike`, `Unsteady.get?_of_lookedUp` and
`Unsteady.reads_or_unusable`.
-/

namespace Preferences

/-- The keypair of the alias cannot be got at, or is corrupt. -/
def KeyError.Unusable (a : String) : KeyError → Prop
  | .unavailable _ => True
  | .corrupt b _ => b = a
  | .notFound _ => False

/-- A computation in two parts fails where the first one does, or the second with what the first one
gave. -/
lemma bind_eq_error {ε α β : Type} {x : Except ε α} {f : α → Except ε β} {e : ε} :
    x >>= f = .error e ↔ x = .error e ∨ ∃ a, x = .ok a ∧ f a = .error e := by
  cases x <;> simp [bind, Except.bind]

/-! ## Texts that are not records -/

section Corrupt

variable {a text : String} {e : KeyError}

/-- A text that is no record makes the keypair unusable. -/
lemma KeypairRecord.parse_error (h : parse a text = .error e) : e.Unusable a := by
  rw [parse] at h
  split at h
  · cases h
  · cases h
    rfl

/-- Halves that are no keys make the keypair unusable. -/
lemma decodeKey_error (h : decodeKey a text = .error e) : e.Unusable a := by
  rw [decodeKey] at h
  split at h
  · cases h
    rfl
  · split at h
    · cases h
    · cases h
      rfl

/-- A record without a public half makes the keypair unusable. -/
lemma decodePublic_error (h : decodePublic a text = .error e) : e.Unusable a := by
  obtain failed | ⟨record, -, h⟩ := bind_eq_error.1 h
  · exact KeypairRecord.parse_error failed
  · obtain failed | ⟨key, -, h⟩ := bind_eq_error.1 h
    · exact decodeKey_error failed
    · cases h

/-- A record without a secret half makes the keypair unusable. -/
lemma decodeSecret_error (h : decodeSecret a text = .error e) : e.Unusable a := by
  obtain failed | ⟨record, -, h⟩ := bind_eq_error.1 h
  · exact KeypairRecord.parse_error failed
  · obtain failed | ⟨key, -, h⟩ := bind_eq_error.1 h
    · exact decodeKey_error failed
    · cases h

end Corrupt

/-! ## Calls -/

/-- A keyring over a credential store that fails by a schedule. -/
structure Unsteady where
  service : String
  entries : Table Account Bytes := ∅
  /-- The failures that the stages of the next call are made to report, then those of the call after
  it, and so on. -/
  faults : Nat → CredentialStage → Option CredentialFault
  /-- Was a call told that there is no entry where there was one? -/
  misled : Bool := false

namespace Unsteady

/-- The keyring as the next call finds it. -/
def now (u : Unsteady) : Keyring := ⟨u.service, { entries := u.entries, fault? := u.faults 0 }⟩

/-- Is the store made to deny the alias's entry, though it has one? -/
def denies (u : Unsteady) (a : String) : Bool :=
  u.faults 0 .build = none && u.faults 0 .get = some .noEntry && u.entries.contains ⟨u.service, a⟩

/-- Is the request told that there is no entry where there is one? To generate is not to look. -/
def misleads (u : Unsteady) : KeyRequest → Bool
  | .hasKeypair a | .publicKey a | .secretKey a => u.denies a
  | .generate .. => false

/-- The keyring after a call, which may have been misled. -/
def after (u : Unsteady) (q : KeyRequest) : Unsteady where
  service := (q.put u.now).2.service
  entries := (q.put u.now).2.credentials.entries
  faults n := u.faults (n + 1)
  misled := u.misled || u.misleads q

/-- Puts a request to the keyring as it is now. -/
def put (q : KeyRequest) : KeyCall Unsteady q.Answer := fun u => ((q.put u.now).1, u.after q)

instance : KeyFacility Unsteady where
  hasKeypair keyAlias := Unsteady.put (.hasKeypair keyAlias)
  generate keyAlias validity pair := Unsteady.put (.generate keyAlias validity pair)
  publicKey keyAlias := Unsteady.put (.publicKey keyAlias)
  secretKey keyAlias := Unsteady.put (.secretKey keyAlias)

variable {u u' : Unsteady} {a : String} {bs : Bytes} {calls : List Exchange}

/-- A request is put to the keyring as it is now, which then goes on by its schedule. -/
lemma put_eq (q : KeyRequest) (u : Unsteady) : q.put u = ((q.put u.now).1, u.after q) := by
  cases q <;> rfl

/-- A keyring with its faults at every call. -/
def steady (k : Keyring) : Unsteady where
  service := k.service
  entries := k.credentials.entries
  faults _ := k.credentials.fault?

/-- A keyring whose faults do not change is one whose schedule has the same faults throughout. -/
lemma steady_alike : KeyFacility.Alike fun (k : Keyring) (u : Unsteady) =>
    u.now = k ∧ ∀ n, u.faults n = k.credentials.fault? := by
  rintro k u ⟨rfl, steady⟩ q
  have kept : (q.put u.now).2.credentials.fault? = u.faults 0 := by
    obtain same | ⟨_, _, _, _, -, made⟩ := Keyring.put_cases q u.now
    · rw [same]
      rfl
    · rw [made]
      rfl
  have next (n : Nat) : (u.after q).faults n = (q.put u.now).2.credentials.fault? :=
    (steady (n + 1)).trans kept.symm
  rw [put_eq]
  refine ⟨rfl, ?_, next⟩
  rw [now, next 0]
  rfl

/-- What a call can do: it leaves the entries alone, or it was to generate a keypair and puts an
entry for it. -/
lemma after_cases (u : Unsteady) (q : KeyRequest) : (u.after q).service = u.service ∧
    ((u.after q).entries = u.entries ∨ ∃ a validity pair bs, q = .generate a validity pair ∧
      (u.after q).entries = u.entries.insert ⟨u.service, a⟩ bs) := by
  rw [after]
  obtain same | ⟨a, validity, pair, bs, generate, made⟩ := Keyring.put_cases q u.now
  · rw [same]
    exact ⟨rfl, .inl rfl⟩
  · rw [made]
    exact ⟨rfl, .inr ⟨a, validity, pair, bs, generate, rfl⟩⟩

/-- After a request the keyring is one that has gone on by its schedule. -/
lemma eq_after {q : KeyRequest} {reply : Except (Halt KeyError) q.Answer}
    (put : q.put u = (reply, u')) : u' = u.after q := by
  rw [put_eq] at put
  exact (congrArg Prod.snd put).symm

/-- A record of having been misled is never struck out. -/
lemma honest_of_after {q : KeyRequest} (honest : (u.after q).misled = false) :
    u.misled = false ∧ u.misleads q = false :=
  Bool.or_eq_false_iff.1 honest

/-- A keyring that has not been misled had not been before. -/
lemma honest_of_asked (asked : Asked u calls u') (honest : u'.misled = false) :
    u.misled = false := by
  induction asked with
  | nil => exact honest
  | cons put _ ih =>
    have later := ih honest
    rw [eq_after put] at later
    exact (honest_of_after later).1

/-- Calls that generate no keypair leave the entries as they were. -/
lemma quiet_of_asked (asked : Asked u calls u') (quiet : ∀ x ∈ calls, ¬ x.Generates) :
    u'.service = u.service ∧ u'.entries = u.entries := by
  induction asked with
  | nil => exact ⟨rfl, rfl⟩
  | @cons u₀ u₁ _ q _ _ put _ ih =>
    obtain ⟨service, entries⟩ := ih fun x there => quiet x (.tail _ there)
    rw [eq_after put] at service entries
    obtain ⟨service', same | ⟨a, validity, pair, bs, generate, -⟩⟩ := u₀.after_cases q
    · exact ⟨service.trans service', entries.trans same⟩
    · exact absurd ⟨a, validity, pair, generate⟩ (quiet _ (.head _))

/-! ## Calls for an entry that is there -/

/-- Does nothing keep the `n`-th call from now from looking? -/
def Clear (u : Unsteady) (n : Nat) : Prop := u.faults n .build = none ∧ u.faults n .get = none

/-- A store that does not deny an entry gives its text or fails for an outage. -/
lemma load_cases (kept : u.entries.get? ⟨u.service, a⟩ = some bs) (honest : u.denies a = false) :
    (∃ text, u.now.load a = .ok text ∧ u.Clear 0 ∧ bs = utf8 text) ∨
      ∃ outage, u.now.load a = .error (.unavailable outage) := by
  obtain ⟨text, loaded, built, got, found⟩ | ⟨-, built, denied | absent⟩ | ⟨fault, failed⟩ :=
    u.now.load_cases a
  · exact .inl ⟨text, loaded, ⟨built, got⟩, Option.some.inj (kept.symm.trans found)⟩
  · have built : u.faults 0 .build = none := built
    have denied : u.faults 0 .get = some .noEntry := denied
    simp [denies, built, denied, Table.contains, kept] at honest
  · cases kept.symm.trans absent
  · exact .inr ⟨_, failed⟩

/-- Of an alias with an entry it is told that it has one, unless an outage comes between. -/
lemma hasKeypair_cases {reply : Except (Halt KeyError) Bool}
    (kept : u.entries.get? ⟨u.service, a⟩ = some bs)
    (put : (KeyRequest.hasKeypair a).put u = (reply, u')) (honest : u'.misled = false) :
    (reply = .ok true ∧ u.Clear 0) ∨ ∃ e, reply = .error (.error e) ∧ e.Unusable a := by
  have answered : (u.now.hasKeypair a).mapError Halt.error = reply := congrArg Prod.fst put
  rw [eq_after put] at honest
  rw [← answered, Keyring.hasKeypair]
  obtain ⟨text, loaded, clear, -⟩ | ⟨outage, failed⟩ := load_cases kept (honest_of_after honest).2
  · rw [loaded]
    exact .inl ⟨rfl, clear⟩
  · rw [failed]
    exact .inr ⟨_, rfl, trivial⟩

/-- The halves are looked up alike, and differ in how they are decoded. -/
lemma half_cases {α : Type} {decode : String → Except KeyError α}
    (corrupt : ∀ {text e}, decode text = .error e → e.Unusable a)
    (kept : u.entries.get? ⟨u.service, a⟩ = some bs) (honest : u.denies a = false)
    {reply : Except (Halt KeyError) α}
    (answered : (u.now.load a >>= decode).mapError Halt.error = reply) :
    (∃ half, reply = .ok half ∧ u.Clear 0 ∧ ∃ text, bs = utf8 text ∧ decode text = .ok half) ∨
      ∃ e, reply = .error (.error e) ∧ e.Unusable a := by
  rw [← answered]
  obtain ⟨text, loaded, clear, bytes⟩ | ⟨outage, failed⟩ := load_cases kept honest
  · rw [loaded]
    cases decoded : decode text with
    | ok half => exact .inl ⟨half, congrArg _ decoded, clear, text, bytes, decoded⟩
    | error e => exact .inr ⟨e, congrArg _ decoded, corrupt decoded⟩
  · rw [failed]
    exact .inr ⟨_, rfl, trivial⟩

/-- Of an alias with an entry the public half is told, unless an outage comes between or it cannot
be read. -/
lemma publicKey_cases {reply : Except (Halt KeyError) PublicKey}
    (kept : u.entries.get? ⟨u.service, a⟩ = some bs)
    (put : (KeyRequest.publicKey a).put u = (reply, u')) (honest : u'.misled = false) :
    (∃ half, reply = .ok half ∧ u.Clear 0 ∧
      ∃ text, bs = utf8 text ∧ decodePublic a text = .ok half) ∨
      ∃ e, reply = .error (.error e) ∧ e.Unusable a := by
  rw [eq_after put] at honest
  exact half_cases decodePublic_error kept (honest_of_after honest).2 (congrArg Prod.fst put)

/-- Of an alias with an entry the secret half is told, unless an outage comes between or it cannot
be read. -/
lemma secretKey_cases {reply : Except (Halt KeyError) SecretKey}
    (kept : u.entries.get? ⟨u.service, a⟩ = some bs)
    (put : (KeyRequest.secretKey a).put u = (reply, u')) (honest : u'.misled = false) :
    (∃ half, reply = .ok half ∧ u.Clear 0 ∧
      ∃ text, bs = utf8 text ∧ decodeSecret a text = .ok half) ∨
      ∃ e, reply = .error (.error e) ∧ e.Unusable a := by
  rw [eq_after put] at honest
  exact half_cases decodeSecret_error kept (honest_of_after honest).2 (congrArg Prod.fst put)

/-! ## Look-ups -/

/-- A call that does not generate leaves every entry and moves on in the schedule. -/
lemma after_look {q : KeyRequest} {reply : Except (Halt KeyError) q.Answer}
    (put : q.put u = (reply, u')) (look : ¬ Exchange.Generates ⟨q, reply⟩) :
    u'.service = u.service ∧ u'.entries = u.entries ∧ ∀ n, u'.faults n = u.faults (n + 1) := by
  obtain ⟨service, entries⟩ := quiet_of_asked (.cons put (.nil u')) (by simpa using look)
  exact ⟨service, entries, fun n => by rw [eq_after put]; rfl⟩

/-- Where it is told that there is none, and truly so, there is no entry. -/
lemma absent_of_denied (has : (KeyRequest.hasKeypair a).put u = (.ok false, u'))
    (honest : u'.misled = false) : u.entries.get? ⟨u.service, a⟩ = none := by
  cases kept : u.entries.get? ⟨u.service, a⟩ with
  | none => rfl
  | some bs => obtain ⟨⟨⟩, -⟩ | ⟨e, ⟨⟩, -⟩ := hasKeypair_cases kept has honest

variable {result : Except (Halt KeyError) KeyHandle}

/-- A look-up changes no entry that there is, and adds none but that of its alias. -/
lemma get?_of_lookedUp (asked : Asked u calls u') (looked : LookedUp a calls result)
    (honest : u'.misled = false) : u'.service = u.service ∧ ∀ account,
      u'.entries.get? account = u.entries.get? account ∨
        u.entries.get? account = none ∧ account = ⟨u.service, a⟩ := by
  obtain quiet | ⟨validity, pair, reply, rest, rfl, quiet⟩ := looked.generates
  · obtain ⟨service, entries⟩ := quiet_of_asked asked quiet
    exact ⟨service, fun account => .inl (by rw [entries])⟩
  · cases asked with
    | @cons _ u₁ _ _ _ _ has asked =>
      -- the store said that there is no entry, and it was true
      have absent := absent_of_denied has (honest_of_asked asked honest)
      obtain ⟨service₁, entries₁, -⟩ := after_look has (by simp [Exchange.Generates])
      cases asked with
      | cons generate asked =>
        obtain ⟨service, entries⟩ := quiet_of_asked asked quiet
        rw [eq_after generate] at service entries
        rw [← service₁, ← entries₁] at absent ⊢
        rw [service, entries]
        obtain ⟨service₂, same | ⟨_, _, _, bs, ⟨⟩, put⟩⟩ :=
          u₁.after_cases (.generate a validity pair)
        · exact ⟨service₂, fun account => .inl (by rw [same])⟩
        · refine ⟨service₂, fun account => ?_⟩
          by_cases own : account = ⟨u₁.service, a⟩
          · exact .inr ⟨own ▸ absent, own⟩
          · exact .inl (by rw [put, Table.get?_insert_of_ne _ _ own])

/-- The bytes are a text from which both halves of a keypair can be decoded. -/
def HoldsKeypair (a : String) (bs : Bytes) : Prop :=
  ∃ text publicKey secretKey, bs = utf8 text ∧ decodePublic a text = .ok publicKey ∧
    decodeSecret a text = .ok secretKey

/-- The entry can be read: the calls of a look-up get through to it, and it holds a keypair. -/
structure Reads (u : Unsteady) (a : String) (bs : Bytes) : Prop where
  clear : ∀ n < 3, u.Clear n
  holds : HoldsKeypair a bs

/-- From an entry both halves are fetched, which then are in it, or the keypair is unusable. -/
lemma fetched_or_unusable (kept : u.entries.get? ⟨u.service, a⟩ = some bs)
    (asked : Asked u calls u') (fetched : Fetched a calls result) (honest : u'.misled = false) :
    (u.Clear 0 ∧ u.Clear 1 ∧ HoldsKeypair a bs) ∨
      ∃ e, result = .error (.error e) ∧ e.Unusable a := by
  cases fetched with
  | noPublic stop =>
    cases asked with
    | cons first asked =>
      obtain ⟨_, ⟨⟩, -⟩ | ⟨e, ⟨⟩, unusable⟩ :=
        publicKey_cases kept first (honest_of_asked asked honest)
      exact .inr ⟨e, rfl, unusable⟩
  | noSecret publicKey stop =>
    cases asked with
    | cons first asked =>
      obtain ⟨service, entries, -⟩ := after_look first (by simp [Exchange.Generates])
      rw [← service, ← entries] at kept
      cases asked with
      | cons second asked =>
        obtain ⟨_, ⟨⟩, -⟩ | ⟨e, ⟨⟩, unusable⟩ :=
          secretKey_cases kept second (honest_of_asked asked honest)
        exact .inr ⟨e, rfl, unusable⟩
  | both publicKey secretKey =>
    cases asked with
    | cons first asked =>
      obtain ⟨_, ⟨⟩, clear, text, bytes, decoded⟩ | ⟨_, ⟨⟩, -⟩ :=
        publicKey_cases kept first (honest_of_asked asked honest)
      obtain ⟨service, entries, faults⟩ := after_look first (by simp [Exchange.Generates])
      rw [← service, ← entries] at kept
      cases asked with
      | cons second asked =>
        obtain ⟨_, ⟨⟩, clear', text', bytes', decoded'⟩ | ⟨_, ⟨⟩, -⟩ :=
          secretKey_cases kept second (honest_of_asked asked honest)
        -- the entry is the same at both calls, and so both halves come from one text
        cases utf8_inj (bytes.symm.trans bytes')
        rw [Clear, faults] at clear'
        exact .inl ⟨clear, clear', text, publicKey, secretKey, bytes, decoded, decoded'⟩

/-- A look-up of an alias with an entry reads it, or fails for what keeps it from being read. -/
lemma reads_or_unusable (kept : u.entries.get? ⟨u.service, a⟩ = some bs)
    (asked : Asked u calls u') (looked : LookedUp a calls result) (honest : u'.misled = false) :
    u.Reads a bs ∨ ∃ e, result = .error (.error e) ∧ e.Unusable a := by
  obtain ⟨known, rest, rfl, answers⟩ := looked.first_call
  cases asked with
  | @cons _ u₁ _ _ _ _ has asked =>
    have honest₁ := honest_of_asked asked honest
    obtain ⟨rfl, clear⟩ | ⟨e, rfl, unusable⟩ := hasKeypair_cases kept has honest₁
    · obtain ⟨⟨⟩⟩ | ⟨-, fetched⟩ | ⟨_, ⟨⟩, -⟩ := answers
      obtain ⟨service₁, entries₁, faults₁⟩ := after_look has (by simp [Exchange.Generates])
      have kept₁ : u₁.entries.get? ⟨u₁.service, a⟩ = some bs := by rw [service₁, entries₁, kept]
      obtain ⟨clear₁, clear₂, holds⟩ | unusable := fetched_or_unusable kept₁ asked fetched honest
      · rw [Clear, faults₁] at clear₁ clear₂
        refine .inl ⟨fun n small => ?_, holds⟩
        obtain rfl | rfl | rfl : n = 0 ∨ n = 1 ∨ n = 2 := by omega
        · exact clear
        · exact clear₁
        · exact clear₂
      · exact .inr unusable
    · obtain ⟨⟨⟩⟩ | ⟨⟨⟩, -⟩ | ⟨_, ⟨⟩, rfl⟩ := answers
      exact .inr ⟨e, rfl, unusable⟩

end Unsteady

end Preferences
