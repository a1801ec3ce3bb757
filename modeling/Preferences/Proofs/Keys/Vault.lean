import Preferences.Proofs.Keys.Keyring
import Preferences.Session.Deed

/-!
# What key facilities keep

Facilities in memory and keyrings keep a text for every alias. Looking it up gives the text or fails
for an outage, and nothing but the generation of a keypair changes it. Where keypairs are generated
for aliases that have none, and for nothing else, every alias keeps the keypair of one random choice
and no two aliases have that of the same one. Main statements: `Vault.Owned.ensure` and
`Vault.Owned.fetch`.
-/

namespace Preferences

/-- The disturbance does not make a credential store deny its entries. -/
def Disturbance.Truthful : Disturbance → Prop
  | .fault .get (some .noEntry) => False
  | _ => True

namespace Vault

/-- The bytes that are kept for an alias. -/
def kept? : Vault → String → Option Bytes
  | .memory f, keyAlias => (f.records.get? keyAlias).map utf8
  | .keyring k, keyAlias => k.credentials.entries.get? ⟨k.service, keyAlias⟩

/-- The credential store, if there is one, does not deny an entry that it has. -/
def Truthful : Vault → Prop
  | .memory _ => True
  | .keyring k => k.credentials.fault? .get ≠ some .noEntry

/-- Keypairs can be looked up. -/
def Answers : Vault → Prop
  | .memory f => f.unavailable = false
  | .keyring k => k.credentials.fault? .build = none ∧ k.credentials.fault? .get = none

/-- Looks up the text that is kept for an alias. -/
def load : Vault → String → Except KeyError String
  | .memory f, keyAlias => f.load keyAlias
  | .keyring k, keyAlias => k.load keyAlias

variable {v : Vault} {keyAlias text : String}

/-- A truthful disturbance leaves the facility truthful. -/
lemma Truthful.disturb (told : v.Truthful) {d : Disturbance} (truthful : d.Truthful) :
    (v.disturb d).Truthful := by
  cases v with
  | memory f => cases d <;> exact told
  | keyring k =>
    cases d with
    | unavailable off => exact told
    | fault stage fault =>
      show (if CredentialStage.get = stage then fault else k.credentials.fault? .get) ≠ _
      split
      next same =>
        subst same
        rintro rfl
        exact truthful
      next => exact told

/-- A look-up gives what is kept, finds nothing where nothing is kept, or fails for an outage. -/
lemma load_cases (truthful : v.Truthful) (keyAlias : String) :
    (∃ text, v.kept? keyAlias = some (utf8 text) ∧ v.load keyAlias = .ok text) ∨
    (v.kept? keyAlias = none ∧ v.load keyAlias = .error (.notFound keyAlias)) ∨
    ∃ outage, v.load keyAlias = .error (.unavailable outage) := by
  cases v with
  | memory f =>
    rw [load, MemoryFacility.load, MemoryFacility.checkAvailable]
    split
    next => exact .inr (.inr ⟨_, rfl⟩)
    next =>
      cases kept : f.records.get? keyAlias with
      | none => exact .inr (.inl ⟨by rw [kept?, kept]; rfl, rfl⟩)
      | some text => exact .inl ⟨text, by rw [kept?, kept]; rfl, rfl⟩
  | keyring k =>
    obtain ⟨text, loaded, -, -, kept⟩ | ⟨loaded, -, denied | absent⟩ | ⟨fault, loaded⟩ :=
      k.load_cases keyAlias
    · exact .inl ⟨text, kept, loaded⟩
    · exact absurd denied truthful
    · exact .inr (.inl ⟨absent, loaded⟩)
    · exact .inr (.inr ⟨.credential fault, loaded⟩)

/-- A facility that answers gives what is kept. -/
lemma load_of_answers (answers : v.Answers) (kept : v.kept? keyAlias = some (utf8 text)) :
    v.load keyAlias = .ok text := by
  cases v with
  | memory f =>
    obtain ⟨text', found, same⟩ := Option.map_eq_some_iff.1 kept
    cases utf8_inj same
    rw [load, MemoryFacility.load, MemoryFacility.checkAvailable, answers, found]
    rfl
  | keyring k =>
    have kept : k.credentials.entries.get? ⟨k.service, keyAlias⟩ = some (utf8 text) := kept
    rw [load, Keyring.load_of_up answers.1 answers.2, kept]
    simp only [Utf8.decode_utf8]

/-- A facility tells whether it has a keypair by whether it can load one. -/
lemma hasKeypair_eq (v : Vault) (keyAlias : String) :
    KeyFacility.hasKeypair keyAlias v =
      (match v.load keyAlias with
        | .ok _ => .ok true
        | .error (.notFound _) => .ok false
        | .error e => .error (.error e), v) := by
  cases v with
  | memory f =>
    refine congrArg (·, Vault.memory f) ?_
    show (f.hasKeypair keyAlias).mapError Halt.error = _
    rw [load, MemoryFacility.hasKeypair, MemoryFacility.load, MemoryFacility.checkAvailable,
      Table.contains]
    split
    next => rfl
    next => cases f.records.get? keyAlias <;> rfl
  | keyring k =>
    refine congrArg (·, Vault.keyring k) ?_
    show (k.hasKeypair keyAlias).mapError Halt.error = _
    rw [load, Keyring.hasKeypair]
    cases k.load keyAlias with
    | ok text => rfl
    | error e => cases e <;> rfl

/-- The public half is decoded from what is loaded. -/
lemma publicKey_eq (v : Vault) (keyAlias : String) :
    KeyFacility.publicKey keyAlias v =
      ((v.load keyAlias >>= decodePublic keyAlias).mapError .error, v) := by
  cases v <;> rfl

/-- The secret half is decoded from what is loaded. -/
lemma secretKey_eq (v : Vault) (keyAlias : String) :
    KeyFacility.secretKey keyAlias v =
      ((v.load keyAlias >>= decodeSecret keyAlias).mapError .error, v) := by
  cases v <;> rfl

/-- A keypair is made sure of by what a look-up says. -/
lemma ensureKeypair_eq (suite : Suite) (c : Chance) (keyAlias : String) (v : Vault) :
    ensureKeypair suite c keyAlias v =
      match v.load keyAlias with
      | .ok _ => (.ok (), v)
      | .error (.notFound _) =>
        match Validity.oneYearFrom? c.now with
        | none => (.error .crash, v)
        | some validity =>
          KeyFacility.generate keyAlias validity (suite.keypair c.keypairSecret) v
      | .error e => (.error (.error e), v) := by
  simp only [ensureKeypair, bind, Attempt.bind, hasKeypair_eq]
  cases v.load keyAlias with
  | ok text => rfl
  | error e =>
    cases e with
    | unavailable | corrupt => rfl
    | notFound =>
      simp only [Bool.false_eq_true, if_false]
      cases Validity.oneYearFrom? c.now <;> rfl

/-- A keypair is generated as a whole or not at all, and no other alias is touched. -/
lemma generate_cases (v : Vault) (keyAlias : String) (validity : Validity) (pair : Keypair) :
    (∃ e, KeyFacility.generate keyAlias validity pair v = (.error (.error e), v)) ∨
    ∃ v', KeyFacility.generate keyAlias validity pair v = (.ok (), v') ∧
      (v.Truthful → v'.Truthful) ∧
      v'.kept? keyAlias = some (utf8 (KeypairRecord.make keyAlias validity pair).render) ∧
      ∀ other, other ≠ keyAlias → v'.kept? other = v.kept? other := by
  cases v with
  | memory f =>
    cases off : f.unavailable with
    | true =>
      refine .inl ⟨.unavailable .marked, ?_⟩
      simp only [KeyFacility.generate, call, MemoryFacility.generate, MemoryFacility.checkAvailable,
        off]
      rfl
    | false =>
      refine .inr ⟨.memory { f with
        records := f.records.insert keyAlias (KeypairRecord.make keyAlias validity pair).render
        generated := f.generated + 1 }, ?_, fun _ => trivial, ?_, fun other apart => ?_⟩
      · simp only [KeyFacility.generate, call, MemoryFacility.generate,
          MemoryFacility.checkAvailable, off]
        rfl
      · rw [kept?, Table.get?_insert_self]
        rfl
      · rw [kept?, kept?, Table.get?_insert_of_ne _ _ apart]
  | keyring k =>
    -- the entry is named before it is set, and each may fail
    cases built : k.credentials.fault? .build with
    | some fault =>
      refine .inl ⟨.unavailable (.credential fault), ?_⟩
      simp only [KeyFacility.generate, call, Keyring.generate, Keyring.entry, CredentialStore.pass,
        built]
      rfl
    | none =>
      cases put : k.credentials.fault? .set with
      | some fault =>
        refine .inl ⟨.unavailable (.credential fault), ?_⟩
        simp only [KeyFacility.generate, call, Keyring.generate, Keyring.entry,
          CredentialStore.pass, CredentialStore.setText, built, put, bind, Except.bind]
      | none =>
        refine .inr ⟨.keyring { k with
          credentials := k.credentials.put ⟨k.service, keyAlias⟩
            (utf8 (KeypairRecord.make keyAlias validity pair).render) }, ?_, id, ?_,
          fun other apart => ?_⟩
        · simp only [KeyFacility.generate, call, Keyring.generate, Keyring.entry,
            CredentialStore.pass, CredentialStore.setText, built, put, bind, Except.bind]
          rfl
        · rw [kept?, CredentialStore.put, Table.get?_insert_self]
        · have apart : (⟨k.service, other⟩ : Account) ≠ ⟨k.service, keyAlias⟩ := fun same =>
            apart (congrArg Account.user same)
          rw [kept?, kept?, CredentialStore.put, Table.get?_insert_of_ne _ _ apart]

/-! ## Whose keypair an alias has -/

/-- The random choice, by its number, that the keypair of an alias came from. -/
abbrev Owners := String → Option Nat

/-- Owners that are known stay. -/
def Owners.Extends (owner owner' : Owners) : Prop := ∀ a n, owner a = some n → owner' a = some n

/-- Owners extend themselves. -/
lemma Owners.Extends.refl (owner : Owners) : owner.Extends owner := fun _ _ => id

/-- To extend owners carries over. -/
lemma Owners.Extends.trans {owner owner' owner'' : Owners} (h : owner.Extends owner')
    (h' : owner'.Extends owner'') : owner.Extends owner'' :=
  fun a n owned => h' a n (h a n owned)

/-- An alias with an owner keeps its keypair, others keep nothing, and no two have the same. -/
structure Owned (suite : Suite) (chance : Nat → Chance) (used : Nat) (owner : Owners)
    (v : Vault) : Prop where
  truthful : v.Truthful
  kept : ∀ a n, owner a = some n → n < used ∧ ∃ validity, v.kept? a =
    some (utf8 (KeypairRecord.make a validity (suite.keypair (chance n).keypairSecret)).render)
  vacant : ∀ a, owner a = none → v.kept? a = none
  single : ∀ a b n, owner a = some n → owner b = some n → a = b

variable {suite : Suite} {chance : Nat → Chance} {used n : Nat} {owner : Owners}

/-- The handle of an alias whose keypair came from a random choice. -/
def handleOf (suite : Suite) (chance : Nat → Chance) (keyAlias : String) (n : Nat) : KeyHandle :=
  ⟨keyAlias, suite.keypair (chance n).keypairSecret⟩

/-- Nobody owns an alias of a facility that keeps nothing. -/
lemma Owned.of_vacant (truthful : v.Truthful) (vacant : ∀ a, v.kept? a = none) :
    v.Owned suite chance used fun _ => none where
  truthful := truthful
  kept _ _ owned := nomatch owned
  vacant a _ := vacant a
  single _ _ _ owned := nomatch owned

/-- A facility that is owned stays so as random choices are used. -/
lemma Owned.mono (o : v.Owned suite chance used owner) {used' : Nat} (more : used ≤ used') :
    v.Owned suite chance used' owner := by
  refine { o with kept := fun a n owned => ?_ }
  obtain ⟨earlier, kept⟩ := o.kept a n owned
  exact ⟨Nat.lt_of_lt_of_le earlier more, kept⟩

/-- The public half of a keypair that is kept is found. -/
lemma publicKey_of_load {validity : Validity} {pair : Keypair}
    (loaded : v.load keyAlias = .ok (KeypairRecord.make keyAlias validity pair).render) :
    KeyFacility.publicKey keyAlias v = (.ok pair.publicKey, v) := by
  rw [publicKey_eq, loaded]
  simp only [bind, Except.bind, decodePublic_render]
  rfl

/-- The secret half of a keypair that is kept is found. -/
lemma secretKey_of_load {validity : Validity} {pair : Keypair}
    (loaded : v.load keyAlias = .ok (KeypairRecord.make keyAlias validity pair).render) :
    KeyFacility.secretKey keyAlias v = (.ok pair.secretKey, v) := by
  rw [secretKey_eq, loaded]
  simp only [bind, Except.bind, decodeSecret_render]
  rfl

/-- What a look-up of an alias with an owner gives is both halves of its keypair. -/
lemma fetch_of_load {validity : Validity} {pair : Keypair}
    (loaded : v.load keyAlias = .ok (KeypairRecord.make keyAlias validity pair).render) :
    fetchKeypair keyAlias v = (.ok ⟨keyAlias, pair⟩, v) := by
  simp only [fetchKeypair, bind, Attempt.bind, publicKey_of_load loaded, secretKey_of_load loaded]
  rfl

/-- The keypair of an alias with an owner is fetched, unless the facility is out. -/
lemma Owned.fetch (o : v.Owned suite chance used owner) (owned : owner keyAlias = some n) :
    fetchKeypair keyAlias v = (.ok (handleOf suite chance keyAlias n), v) ∨
      ∃ e, fetchKeypair keyAlias v = (.error (.error e), v) := by
  obtain ⟨-, validity, kept⟩ := o.kept keyAlias n owned
  rcases load_cases o.truthful keyAlias with ⟨text, found, loaded⟩ | ⟨missing, _⟩ | ⟨outage, failed⟩
  · rw [kept] at found
    cases utf8_inj (Option.some.inj found)
    exact .inl (fetch_of_load loaded)
  · rw [kept] at missing
    cases missing
  · refine .inr ⟨.unavailable outage, ?_⟩
    simp only [fetchKeypair, bind, Attempt.bind, publicKey_eq, failed, Except.bind]
    rfl

/-- A keypair is generated for an alias that has none, from the next random choice. -/
lemma Owned.generate (o : v.Owned suite chance used owner) (free : owner keyAlias = none)
    {v' : Vault} {validity : Validity} (truthful : v'.Truthful)
    (kept : v'.kept? keyAlias = some (utf8
      (KeypairRecord.make keyAlias validity (suite.keypair (chance used).keypairSecret)).render))
    (others : ∀ other, other ≠ keyAlias → v'.kept? other = v.kept? other) :
    v'.Owned suite chance (used + 1)
      (fun a => if a = keyAlias then some used else owner a) where
  truthful := truthful
  kept a n owned := by
    split at owned
    next same =>
      cases owned
      subst same
      exact ⟨Nat.lt_succ_self _, validity, kept⟩
    next apart =>
      obtain ⟨earlier, validity, kept⟩ := o.kept a n owned
      exact ⟨Nat.lt_succ_of_lt earlier, validity, (others a apart).trans kept⟩
  vacant a vacant := by
    split at vacant
    next => cases vacant
    next apart => exact (others a apart).trans (o.vacant a vacant)
  single a b n ha hb := by
    -- the new owner is above all earlier ones
    split at ha
    next sameA =>
      cases ha
      split at hb
      next sameB => exact sameA.trans sameB.symm
      next => exact absurd (o.kept b used hb).1 (Nat.lt_irrefl used)
    next apart =>
      split at hb
      next =>
        cases hb
        exact absurd (o.kept a used ha).1 (Nat.lt_irrefl used)
      next => exact o.single a b n ha hb

/-- After it was made sure of, an alias has an owner; where that fails, it is for an outage or for a
clock at the end of the calendar. -/
lemma Owned.ensure (o : v.Owned suite chance used owner) (keyAlias : String) :
    ∃ owner' v', owner.Extends owner' ∧ v'.Owned suite chance (used + 1) owner' ∧
      ((∃ n, owner' keyAlias = some n ∧
          ensureKeypair suite (chance used) keyAlias v = (.ok (), v')) ∨
        (∃ e, ensureKeypair suite (chance used) keyAlias v = (.error (.error e), v')) ∨
        (Validity.oneYearFrom? (chance used).now = none ∧
          ensureKeypair suite (chance used) keyAlias v = (.error .crash, v'))) := by
  have before : v.Owned suite chance (used + 1) owner := o.mono (Nat.le_succ used)
  -- whether there is a keypair is told truthfully, so none is generated where one is kept
  rcases load_cases o.truthful keyAlias with
    ⟨text, kept, loaded⟩ | ⟨missing, absent⟩ | ⟨outage, failed⟩
  · obtain ⟨n, owned⟩ : ∃ n, owner keyAlias = some n := by
      cases free : owner keyAlias with
      | some n => exact ⟨n, rfl⟩
      | none =>
        rw [o.vacant keyAlias free] at kept
        cases kept
    exact ⟨owner, v, .refl owner, before, .inl ⟨n, owned, by rw [ensureKeypair_eq, loaded]⟩⟩
  · have free : owner keyAlias = none := by
      cases owned : owner keyAlias with
      | none => rfl
      | some n =>
        obtain ⟨-, _, kept⟩ := o.kept keyAlias n owned
        rw [missing] at kept
        cases kept
    rw [ensureKeypair_eq, absent]
    cases year : Validity.oneYearFrom? (chance used).now with
    | none => exact ⟨owner, v, .refl owner, before, .inr (.inr ⟨rfl, rfl⟩)⟩
    | some validity =>
      rcases generate_cases v keyAlias validity (suite.keypair (chance used).keypairSecret) with
        ⟨e, failed⟩ | ⟨v', done, truthful, kept, others⟩
      · exact ⟨owner, v, .refl owner, before, .inr (.inl ⟨e, failed⟩)⟩
      · refine ⟨_, v', fun a n owned => ?_, o.generate free (truthful o.truthful) kept others,
          .inl ⟨used, if_pos rfl, done⟩⟩
        have apart : a ≠ keyAlias := by
          rintro rfl
          rw [free] at owned
          cases owned
        exact (if_neg apart).trans owned
  · exact ⟨owner, v, .refl owner, before,
      .inr (.inl ⟨.unavailable outage, by rw [ensureKeypair_eq, failed]⟩)⟩

/-- Once there is a keypair, it is fetched. -/
lemma provision_of_ensured {c : Chance} {v' : Vault}
    (ensured : ensureKeypair suite c keyAlias v = (.ok (), v')) :
    Preferences.provision suite c keyAlias v = fetchKeypair keyAlias v' := by
  simp only [Preferences.provision, bind, Attempt.bind, ensured]

/-- Where there is none and none can be made, nothing is fetched. -/
lemma provision_of_stopped {c : Chance} {v' : Vault} {stop : Halt KeyError}
    (stopped : ensureKeypair suite c keyAlias v = (.error stop, v')) :
    Preferences.provision suite c keyAlias v = (.error stop, v') := by
  simp only [Preferences.provision, bind, Attempt.bind, stopped]

/-- An alias is provided with the keypair of its owner; where that fails, it is for an outage or for
a clock at the end of the calendar. -/
lemma Owned.provision (o : v.Owned suite chance used owner) (keyAlias : String) :
    ∃ owner' v', owner.Extends owner' ∧ v'.Owned suite chance (used + 1) owner' ∧
      ((∃ n, owner' keyAlias = some n ∧ Preferences.provision suite (chance used) keyAlias v =
          (.ok (handleOf suite chance keyAlias n), v')) ∨
        (∃ e, Preferences.provision suite (chance used) keyAlias v = (.error (.error e), v')) ∨
        (Validity.oneYearFrom? (chance used).now = none ∧
          Preferences.provision suite (chance used) keyAlias v = (.error .crash, v'))) := by
  obtain ⟨owner', v', extended, owned, ⟨n, known, done⟩ | ⟨e, failed⟩ | ⟨year, failed⟩⟩ :=
    o.ensure keyAlias
  · refine ⟨owner', v', extended, owned, ?_⟩
    rw [provision_of_ensured done]
    rcases owned.fetch known with fetched | ⟨e, failed⟩
    · exact .inl ⟨n, known, fetched⟩
    · exact .inr (.inl ⟨e, failed⟩)
  · exact ⟨owner', v', extended, owned, .inr (.inl ⟨e, provision_of_stopped failed⟩)⟩
  · exact ⟨owner', v', extended, owned, .inr (.inr ⟨year, provision_of_stopped failed⟩)⟩

/-- A facility that answers provides an alias with the keypair that it keeps. -/
lemma provision_of_kept {validity : Validity} {pair : Keypair} (answers : v.Answers)
    (kept : v.kept? keyAlias = some (utf8 (KeypairRecord.make keyAlias validity pair).render))
    (c : Chance) : Preferences.provision suite c keyAlias v = (.ok ⟨keyAlias, pair⟩, v) := by
  have loaded := load_of_answers answers kept
  have there : ensureKeypair suite c keyAlias v = (.ok (), v) := by
    rw [ensureKeypair_eq, loaded]
  rw [provision_of_ensured there]
  exact fetch_of_load loaded

/-- A facility that answers provides an alias with the keypair of its owner. -/
lemma Owned.provision_answers (o : v.Owned suite chance used owner) (answers : v.Answers)
    (owned : owner keyAlias = some n) (c : Chance) :
    Preferences.provision suite c keyAlias v = (.ok (handleOf suite chance keyAlias n), v) := by
  obtain ⟨-, validity, kept⟩ := o.kept keyAlias n owned
  exact provision_of_kept answers kept c

/-- A facility in memory that is up provides an alias that has no keypair with a new one. -/
lemma provision_memory (suite : Suite) {f : MemoryFacility} {c : Chance} {validity : Validity}
    (up : f.unavailable = false) (absent : f.records.get? keyAlias = none)
    (year : Validity.oneYearFrom? c.now = some validity) :
    ∃ handle f',
      Preferences.provision suite c keyAlias (Vault.memory f) = (.ok handle, .memory f') := by
  obtain ⟨records, generated, _⟩ := f
  cases up
  let text := (KeypairRecord.make keyAlias validity (suite.keypair c.keypairSecret)).render
  let f' : MemoryFacility := ⟨records.insert keyAlias text, generated + 1, false⟩
  have missing : (Vault.memory ⟨records, generated, false⟩).load keyAlias =
      .error (.notFound keyAlias) := by
    rw [Vault.load, MemoryFacility.load, absent]
    rfl
  have ensured : ensureKeypair suite c keyAlias (Vault.memory ⟨records, generated, false⟩) =
      (.ok (), .memory f') := by
    rw [ensureKeypair_eq, missing]
    simp only [year]
    rfl
  have loaded : (Vault.memory f').load keyAlias = .ok text :=
    load_of_answers rfl (congrArg (Option.map utf8) (Table.get?_insert_self _ _ _))
  refine ⟨⟨keyAlias, suite.keypair c.keypairSecret⟩, f', ?_⟩
  rw [provision_of_ensured ensured]
  exact fetch_of_load loaded

/-- An outage loses nothing. -/
lemma kept?_disturb (v : Vault) (d : Disturbance) : (v.disturb d).kept? = v.kept? := by
  funext a
  cases v <;> cases d <;> rfl

/-- A truthful disturbance leaves the facility to its owners. -/
lemma Owned.disturb (o : v.Owned suite chance used owner) {d : Disturbance}
    (truthful : d.Truthful) : (v.disturb d).Owned suite chance used owner := by
  have same : (v.disturb d).kept? = v.kept? := kept?_disturb v d
  have told : (v.disturb d).Truthful := o.truthful.disturb truthful
  refine ⟨told, ?_, ?_, o.single⟩
  · rw [same]
    exact o.kept
  · rw [same]
    exact o.vacant

end Vault

/-! ## Behind the trap -/

namespace Trapped

variable {φ α β : Type}

/-- A call in two parts is two calls behind the trap. -/
lemma behind_bind (x : KeyCall φ α) (f : α → KeyCall φ β) (t : Trapped φ) :
    behind (x >>= f) t = (behind x >>= fun a => behind (f a)) t := by
  simp only [behind, bind, Attempt.bind]
  rcases x t.base with ⟨e | a, base⟩
  · rfl
  · rfl

/-- A trap that is not set lets an envelope through to the facility. -/
lemma provision_unarmed [KeyFacility φ] {t : Trapped φ} (unarmed : t.armed = false) (suite : Suite)
    (c : Chance) (keyAlias : String) :
    provision suite c keyAlias t = behind (provision suite c keyAlias) t := by
  have asked : KeyFacility.hasKeypair keyAlias t =
      behind (KeyFacility.hasKeypair keyAlias) t := by
    show (if t.armed then _ else _) = _
    rw [unarmed]
    rfl
  have ensured : ensureKeypair suite c keyAlias t = behind (ensureKeypair suite c keyAlias) t := by
    rw [ensureKeypair, ensureKeypair, behind_bind]
    simp only [bind, Attempt.bind, asked]
    rcases behind (KeyFacility.hasKeypair keyAlias) t with ⟨e | there, t'⟩
    · rfl
    · cases there with
      | true => rfl
      | false => cases Validity.oneYearFrom? c.now <;> rfl
  have fetched (t : Trapped φ) : fetchKeypair keyAlias t = behind (fetchKeypair keyAlias) t := by
    have second (k : PublicKey) (t : Trapped φ) := behind_bind (KeyFacility.secretKey keyAlias)
      (fun s => pure (⟨keyAlias, k, s⟩ : KeyHandle)) t
    rw [fetchKeypair, fetchKeypair, behind_bind]
    exact congrFun (congrArg (behind (KeyFacility.publicKey keyAlias) >>= ·)
      (funext fun k => funext fun t => (second k t).symm)) t
  rw [provision, provision, behind_bind]
  simp only [bind, Attempt.bind, ensured]
  rcases behind (ensureKeypair suite c keyAlias) t with ⟨e | a, t'⟩
  · rfl
  · exact fetched t'

end Trapped

end Preferences
