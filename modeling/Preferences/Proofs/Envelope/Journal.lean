import Mathlib.Tactic.Lemma
import Preferences.Envelope.Basic
import Preferences.Keys.Memory
import Preferences.Proofs.Table

/-!
# The calls by which an envelope looks up a keypair

A facility that keeps a journal of its calls shows which ones a look-up makes: it asks whether the
alias has a keypair, has one generated only if it is told that there is none, and then fetches both
halves, until a call fails. Main statements: `ready_section`, and `KeyFacility.Truthful.lookedUp`
for facilities that tell the truth.
-/

namespace Preferences

variable {φ : Type} [KeyFacility φ]

/-! ## Calls on record -/

/-- A request to a key facility, as data. -/
inductive KeyRequest where
  | hasKeypair (keyAlias : String)
  | generate (keyAlias : String) (validity : Validity) (pair : Keypair)
  | publicKey (keyAlias : String)
  | secretKey (keyAlias : String)

namespace KeyRequest

/-- What is answered to a request. -/
def Answer : KeyRequest → Type
  | hasKeypair _ => Bool
  | generate .. => Unit
  | publicKey _ => PublicKey
  | secretKey _ => SecretKey

/-- Puts a request to a key facility. -/
def put : (q : KeyRequest) → KeyCall φ q.Answer
  | hasKeypair keyAlias => KeyFacility.hasKeypair keyAlias
  | generate keyAlias validity pair => KeyFacility.generate keyAlias validity pair
  | publicKey keyAlias => KeyFacility.publicKey keyAlias
  | secretKey keyAlias => KeyFacility.secretKey keyAlias

end KeyRequest

/-- A request and what came of it. -/
structure Exchange where
  request : KeyRequest
  reply : Except (Halt KeyError) request.Answer

/-- The alias that an exchange generated a keypair for. -/
def Exchange.generated? : Exchange → Option String
  | ⟨.generate keyAlias _ _, .ok _⟩ => some keyAlias
  | _ => none

/-- The exchange made a keypair, as far as the facility tells. -/
def Exchange.Generates (x : Exchange) : Prop :=
  ∃ a validity pair, x.request = .generate a validity pair

/-- An exchange that made no keypair has none to tell of. -/
lemma Exchange.generated?_eq_none {x : Exchange} (other : ¬ x.Generates) : x.generated? = none := by
  obtain ⟨_ | ⟨a, validity, pair⟩ | _ | _, reply⟩ := x
  · rfl
  · exact absurd ⟨a, validity, pair, rfl⟩ other
  · rfl
  · rfl

/-- A facility with a journal of the requests put to it. -/
structure Journaled (φ : Type) where
  base : φ
  journal : List Exchange := []

/-- Puts a request to the facility and notes it down. -/
def Journaled.put (q : KeyRequest) : KeyCall (Journaled φ) q.Answer := fun f =>
  let (reply, base) := q.put f.base
  (reply, ⟨base, f.journal ++ [⟨q, reply⟩]⟩)

instance : KeyFacility (Journaled φ) where
  hasKeypair keyAlias := Journaled.put (.hasKeypair keyAlias)
  generate keyAlias validity pair := Journaled.put (.generate keyAlias validity pair)
  publicKey keyAlias := Journaled.put (.publicKey keyAlias)
  secretKey keyAlias := Journaled.put (.secretKey keyAlias)

/-- Requests put one after another take a facility from one state to another. -/
inductive Asked : φ → List Exchange → φ → Prop where
  | nil (f : φ) : Asked f [] f
  | cons {f f' f'' : φ} {q : KeyRequest} {reply : Except (Halt KeyError) q.Answer}
    {calls : List Exchange} :
    q.put f = (reply, f') → Asked f' calls f'' → Asked f (⟨q, reply⟩ :: calls) f''

/-- Requests put after others follow on them. -/
lemma Asked.append {f f' f'' : φ} {calls more : List Exchange} (asked : Asked f calls f')
    (further : Asked f' more f'') : Asked f (calls ++ more) f'' := by
  induction asked with
  | nil => exact further
  | cons put _ ih => exact .cons put (ih further)

/-- The calls that see to it that there is a keypair, and what comes of them. -/
inductive Ensured (a : String) : List Exchange → Except (Halt KeyError) Unit → Prop where
  | unknown (stop : Halt KeyError) : Ensured a [⟨.hasKeypair a, .error stop⟩] (.error stop)
  | found : Ensured a [⟨.hasKeypair a, .ok true⟩] (.ok ())
  -- the calendar ends before the validity of a new keypair would
  | late : Ensured a [⟨.hasKeypair a, .ok false⟩] (.error .crash)
  | asked (validity : Validity) (pair : Keypair) (reply : Except (Halt KeyError) Unit) :
    Ensured a [⟨.hasKeypair a, .ok false⟩, ⟨.generate a validity pair, reply⟩] reply

/-- The calls that fetch both halves of a keypair, and what comes of them. -/
inductive Fetched (a : String) : List Exchange → Except (Halt KeyError) KeyHandle → Prop where
  | noPublic (stop : Halt KeyError) : Fetched a [⟨.publicKey a, .error stop⟩] (.error stop)
  | noSecret (publicKey : PublicKey) (stop : Halt KeyError) :
    Fetched a [⟨.publicKey a, .ok publicKey⟩, ⟨.secretKey a, .error stop⟩] (.error stop)
  | both (publicKey : PublicKey) (secretKey : SecretKey) :
    Fetched a [⟨.publicKey a, .ok publicKey⟩, ⟨.secretKey a, .ok secretKey⟩]
      (.ok ⟨a, publicKey, secretKey⟩)

/-- The calls of a look-up: those that ensure a keypair, and if they do, those that fetch it. -/
inductive LookedUp (a : String) : List Exchange → Except (Halt KeyError) KeyHandle → Prop where
  | stopped {calls : List Exchange} {stop : Halt KeyError}
    (ensured : Ensured a calls (.error stop)) : LookedUp a calls (.error stop)
  | fetched {calls more : List Exchange} {result : Except (Halt KeyError) KeyHandle}
    (ensured : Ensured a calls (.ok ())) (fetched : Fetched a more result) :
    LookedUp a (calls ++ more) result

/-- A program that asks a facility does the same with a journal, and notes exchanges there that are
such as `P` says for its result. -/
def Journaled.Notes {α : Type} (run : KeyCall φ α) (noted : KeyCall (Journaled φ) α)
    (P : List Exchange → Except (Halt KeyError) α → Prop) : Prop :=
  ∀ f log, ∃ calls r f', run f = (r, f') ∧ noted ⟨f, log⟩ = (r, ⟨f', log ++ calls⟩) ∧
    Asked f calls f' ∧ P calls r

namespace Journaled

/-- A request is noted as one exchange. -/
lemma notes_put (q : KeyRequest) :
    Notes (φ := φ) q.put (Journaled.put q) fun calls r => calls = [⟨q, r⟩] := by
  intro f log
  refine ⟨_, (q.put f).1, (q.put f).2, rfl, rfl, .cons rfl (.nil _), rfl⟩

/-- Where nothing is asked, nothing is noted. -/
lemma notes_pure {α : Type} (a : α) :
    Notes (φ := φ) (pure a) (pure a) fun calls r => calls = [] ∧ r = .ok a := by
  intro f log
  refine ⟨[], .ok a, f, rfl, ?_, .nil f, rfl, rfl⟩
  rw [List.append_nil]
  rfl

/-- A halt notes nothing. -/
lemma notes_halt {α : Type} (stop : Halt KeyError) :
    Notes (φ := φ) (α := α) (.halt stop) (.halt stop)
      fun calls r => calls = [] ∧ r = .error stop := by
  intro f log
  refine ⟨[], .error stop, f, rfl, ?_, .nil f, rfl, rfl⟩
  rw [List.append_nil]
  rfl

/-- One program after another notes what both note, unless the first one fails. -/
lemma Notes.bind {α β : Type} {run : KeyCall φ α} {noted : KeyCall (Journaled φ) α}
    {P : List Exchange → Except (Halt KeyError) α → Prop} (first : Notes run noted P)
    {next : α → KeyCall φ β} {nextNoted : α → KeyCall (Journaled φ) β}
    {Q : α → List Exchange → Except (Halt KeyError) β → Prop}
    (second : ∀ a, Notes (next a) (nextNoted a) (Q a)) :
    Notes (run >>= next) (noted >>= nextNoted) fun calls r =>
      (∃ stop, P calls (.error stop) ∧ r = .error stop) ∨
      ∃ a before after, calls = before ++ after ∧ P before (.ok a) ∧ Q a after r := by
  intro f log
  obtain ⟨before, r, f', ran, wrote, asked, spec⟩ := first f log
  cases r with
  | error stop =>
    refine ⟨before, .error stop, f', ?_, ?_, asked, .inl ⟨stop, spec, rfl⟩⟩
    · show Attempt.bind run next f = _
      rw [Attempt.bind, ran]
    · show Attempt.bind noted nextNoted ⟨f, log⟩ = _
      rw [Attempt.bind, wrote]
  | ok a =>
    obtain ⟨after, r, f'', ran', wrote', asked', spec'⟩ := second a f' (log ++ before)
    refine ⟨before ++ after, r, f'', ?_, ?_, asked.append asked', ?_⟩
    · show Attempt.bind run next f = _
      rw [Attempt.bind, ran]
      exact ran'
    · show Attempt.bind noted nextNoted ⟨f, log⟩ = _
      rw [Attempt.bind, wrote, ← List.append_assoc]
      exact wrote'
    · exact .inr ⟨a, before, after, rfl, spec, spec'⟩

/-- What is known of the notes may be weakened. -/
lemma Notes.mono {α : Type} {run : KeyCall φ α} {noted : KeyCall (Journaled φ) α}
    {P Q : List Exchange → Except (Halt KeyError) α → Prop} (h : Notes run noted P)
    (weaker : ∀ calls r, P calls r → Q calls r) : Notes run noted Q := by
  intro f log
  obtain ⟨calls, r, f', ran, wrote, asked, spec⟩ := h f log
  exact ⟨calls, r, f', ran, wrote, asked, weaker calls r spec⟩

variable (suite : Suite) (chance : Chance) (a : String)

/-- What sees to it that there is a keypair notes its calls. -/
lemma notes_ensureKeypair :
    Notes (φ := φ) (ensureKeypair suite chance a) (ensureKeypair suite chance a) (Ensured a) := by
  refine ((notes_put (.hasKeypair a)).bind
    (Q := fun known calls r => Ensured a (⟨.hasKeypair a, .ok known⟩ :: calls) r) ?_).mono ?_
  · intro known
    cases known with
    | true =>
      refine (notes_pure ()).mono ?_
      rintro _ _ ⟨rfl, rfl⟩
      exact .found
    | false =>
      cases Validity.oneYearFrom? chance.now with
      | none =>
        refine (notes_halt .crash).mono ?_
        rintro _ _ ⟨rfl, rfl⟩
        exact .late
      | some validity =>
        refine (notes_put (.generate a validity _)).mono ?_
        rintro _ r rfl
        exact .asked validity _ r
  · rintro calls r (⟨stop, rfl, rfl⟩ | ⟨known, _, after, rfl, rfl, ensured⟩)
    · exact .unknown stop
    · exact ensured

/-- What fetches a keypair notes its calls. -/
lemma notes_fetchKeypair :
    Notes (φ := φ) (fetchKeypair a) (fetchKeypair a) (Fetched a) := by
  refine ((notes_put (.publicKey a)).bind fun publicKey =>
    (notes_put (.secretKey a)).bind fun secretKey =>
      notes_pure (⟨a, publicKey, secretKey⟩ : KeyHandle)).mono ?_
  rintro calls r (⟨stop, rfl, rfl⟩ | ⟨publicKey, _, after, rfl, rfl, secret⟩)
  · exact .noPublic stop
  · obtain ⟨stop, rfl, rfl⟩ | ⟨secretKey, _, _, rfl, rfl, rfl, rfl⟩ := secret
    · exact .noSecret publicKey stop
    · exact .both publicKey secretKey

/-- What looks up a keypair notes its calls. -/
lemma notes_provision :
    Notes (φ := φ) (provision suite chance a) (provision suite chance a) (LookedUp a) := by
  refine ((notes_ensureKeypair suite chance a).bind fun _ => notes_fetchKeypair a).mono ?_
  rintro calls r (⟨stop, ensured, rfl⟩ | ⟨_, before, after, rfl, ensured, fetched⟩)
  · exact .stopped ensured
  · exact .fetched ensured fetched

end Journaled

/-! ## Sections -/

/-- What happens in a section: nothing where the keypair is at hand or cannot be looked up, else the
calls of a look-up. -/
inductive Section (e : Envelope) (f : φ) :
    List Exchange → Except (Halt Error) KeyHandle → Envelope → φ → Prop where
  | idle {r : Except (Halt Error) KeyHandle}
    (atHand : ∀ handle, r = .ok handle → e.key = some handle) : Section e f [] r e f
  | found {a : String} {calls : List Exchange} {handle : KeyHandle} {f' : φ}
    (chosen : e.keyAlias = some a) (asked : Asked f calls f')
    (looked : LookedUp a calls (.ok handle)) :
    Section e f calls (.ok handle) { e with key := some handle } f'
  | halted {a : String} {calls : List Exchange} (stop : Halt KeyError) {e' : Envelope} {f' : φ}
    (asked : Asked f calls f') (looked : LookedUp a calls (.error stop))
    (same : e' = e ∨ e' = { e with poisoned := true }) :
    Section e f calls (.error (stop.map .keyFacility)) e' f'

/-- The look-up of a keypair is such a section, whether or not it is put on record. -/
lemma ready_section (suite : Suite) (chance : Chance) (e : Envelope) (f : φ) :
    ∃ calls r e' f', e.ready suite chance f = (r, e', f') ∧
      e.ready suite chance (⟨f, []⟩ : Journaled φ) = (r, e', ⟨f', calls⟩) ∧
      Section e f calls r e' f' := by
  obtain ⟨keyAlias, key, poisoned⟩ := e
  rcases poisoned with _ | _
  · rcases key with _ | handle
    · rcases keyAlias with _ | a
      · exact ⟨_, _, _, f, rfl, rfl, .idle nofun⟩
      · -- the one case in which the facility is called
        obtain ⟨calls, r, f', ran, noted, asked, looked⟩ :=
          Journaled.notes_provision suite chance a f []
        simp only [Envelope.ready, ran, noted]
        rcases r with (error | _) | handle
        · exact ⟨calls, _, _, f', rfl, rfl, .halted (.error error) asked looked (.inl rfl)⟩
        · exact ⟨calls, _, _, f', rfl, rfl, .halted .crash asked looked (.inr rfl)⟩
        · exact ⟨calls, _, _, f', rfl, rfl, .found rfl asked looked⟩
    · refine ⟨_, _, _, f, rfl, rfl, .idle ?_⟩
      rintro _ ⟨⟩
      rfl
  · exact ⟨_, _, _, f, rfl, rfl, .idle nofun⟩

/-- The journal of a look-up is that of a section. -/
lemma section_of_ready {suite : Suite} {chance : Chance} {e e' : Envelope} {f : φ}
    {r : Except (Halt Error) KeyHandle} {f' : Journaled φ}
    (ready : e.ready suite chance (⟨f, []⟩ : Journaled φ) = (r, e', f')) :
    Section e f f'.journal r e' f'.base := by
  obtain ⟨calls, _, _, _, _, noted, s⟩ := ready_section suite chance e f
  cases noted.symm.trans ready
  exact s

variable {e e' : Envelope} {f f' : φ} {calls : List Exchange} {r : Except (Halt Error) KeyHandle}

/-- The same alias again changes nothing; another one drops the keypair. -/
lemma setAlias_cases {a : String} (chosen : e.setAlias a = .ok e') : e' = e ∨ e'.key = none := by
  rw [Envelope.setAlias] at chosen
  split at chosen
  · cases chosen
  · split at chosen
    · cases chosen
    · split at chosen
      · cases chosen
        exact .inl rfl
      · cases chosen
        exact .inr rfl

/-- A section that failed leaves the alias and the keypair of the envelope as they were. -/
lemma Section.failed {stop : Halt Error} (s : Section e f calls (.error stop) e' f') :
    e'.keyAlias = e.keyAlias ∧ e'.key = e.key := by
  cases s with
  | idle => exact ⟨rfl, rfl⟩
  | halted _ _ _ same => rcases same with rfl | rfl <;> exact ⟨rfl, rfl⟩

/-- The calls of a section were put to the facility one after another. -/
lemma Section.asked (s : Section e f calls r e' f') : Asked f calls f' := by
  cases s with
  | idle => exact .nil f
  | found _ asked _ | halted _ asked _ _ => exact asked

/-- A section has no calls, or those of a look-up. -/
lemma Section.lookedUp (s : Section e f calls r e' f') :
    calls = [] ∨ ∃ a result, LookedUp a calls result := by
  cases s with
  | idle => exact .inl rfl
  | found _ _ looked | halted _ _ looked _ => exact .inr ⟨_, _, looked⟩

/-- To fetch a keypair makes none. -/
lemma Fetched.not_generates {a : String} {result : Except (Halt KeyError) KeyHandle}
    (fetched : Fetched a calls result) : ∀ x ∈ calls, ¬ x.Generates := by
  cases fetched <;> simp [Exchange.Generates]

/-- A look-up asks for a new keypair at most once, right after it was told that there is none. -/
lemma LookedUp.generates {a : String} {result : Except (Halt KeyError) KeyHandle}
    (looked : LookedUp a calls result) :
    (∀ x ∈ calls, ¬ x.Generates) ∨ ∃ validity pair reply rest,
      calls = ⟨.hasKeypair a, .ok false⟩ :: ⟨.generate a validity pair, reply⟩ :: rest ∧
        ∀ x ∈ rest, ¬ x.Generates := by
  have ensured_cases {made result} (ensured : Ensured a made result) :
      (∀ x ∈ made, ¬ x.Generates) ∨ ∃ validity pair reply,
        made = [⟨.hasKeypair a, .ok false⟩, ⟨.generate a validity pair, reply⟩] := by
    cases ensured with
    | asked validity pair => exact .inr ⟨validity, pair, _, rfl⟩
    | _ => exact .inl (by simp [Exchange.Generates])
  cases looked with
  | stopped ensured =>
    rcases ensured_cases ensured with none | ⟨validity, pair, reply, rfl⟩
    · exact .inl none
    · exact .inr ⟨validity, pair, reply, [], rfl, fun _ there => nomatch there⟩
  | fetched ensured fetched =>
    rcases ensured_cases ensured with none | ⟨validity, pair, reply, rfl⟩
    · exact .inl (List.forall_mem_append.2 ⟨none, fetched.not_generates⟩)
    · exact .inr ⟨validity, pair, reply, _, rfl, fetched.not_generates⟩

/-- Before a keypair is made the facility has denied to have one. -/
lemma LookedUp.denied {a : String} {result : Except (Halt KeyError) KeyHandle}
    (looked : LookedUp a calls result) {before after : List Exchange} {b : String}
    {validity : Validity} {pair : Keypair} {reply : Except (Halt KeyError) Unit}
    (made : calls = before ++ ⟨.generate b validity pair, reply⟩ :: after) :
    before.getLast? = some ⟨.hasKeypair b, .ok false⟩ := by
  have generates : Exchange.Generates ⟨.generate b validity pair, reply⟩ := ⟨b, validity, pair, rfl⟩
  rcases looked.generates with none | ⟨validity', pair', reply', rest, rfl, none⟩
  · exact absurd generates (none _ (made ▸ List.mem_append_right _ List.mem_cons_self))
  · rcases before with _ | ⟨x, _ | ⟨y, before⟩⟩
    · cases made
    · cases made
      rfl
    · cases made
      exact absurd generates (none _ (List.mem_append_right _ List.mem_cons_self))

/-- A look-up goes by the first answer. -/
lemma LookedUp.first_call {a : String} {result : Except (Halt KeyError) KeyHandle}
    (looked : LookedUp a calls result) :
    ∃ known rest, calls = ⟨.hasKeypair a, known⟩ :: rest ∧
      (known = .ok false ∨ (known = .ok true ∧ Fetched a rest result) ∨
        ∃ stop, known = .error stop ∧ result = .error stop) := by
  cases looked with
  | stopped ensured =>
    cases ensured with
    | unknown => exact ⟨_, _, rfl, .inr (.inr ⟨_, rfl, rfl⟩)⟩
    | late | asked => exact ⟨_, _, rfl, .inl rfl⟩
  | fetched ensured fetched =>
    cases ensured with
    | found => exact ⟨_, _, rfl, .inr (.inl ⟨rfl, fetched⟩)⟩
    | asked => exact ⟨_, _, rfl, .inl rfl⟩

/-- A look-up that succeeded ends with both halves of its keypair. -/
lemma LookedUp.halves {a : String} {handle : KeyHandle} (looked : LookedUp a calls (.ok handle)) :
    handle.keyAlias = a ∧ ∃ before, calls = before ++
      [⟨.publicKey a, .ok handle.pair.publicKey⟩, ⟨.secretKey a, .ok handle.pair.secretKey⟩] := by
  cases looked with
  | @fetched before _ _ _ fetched =>
    cases fetched with
    | both publicKey secretKey => exact ⟨rfl, before, rfl⟩

/-! ## Facilities that tell the truth -/

/-- The facility says of an alias that it has a keypair just where it keeps one. It keeps those that
it generated, whatever it is asked. -/
structure KeyFacility.Truthful (keeps : φ → String → Prop) : Prop where
  told : ∀ {f f' a known}, KeyFacility.hasKeypair a f = (.ok known, f') →
    (known = true ↔ keeps f a)
  generated : ∀ {f f' a validity pair}, KeyFacility.generate a validity pair f = (.ok (), f') →
    keeps f' a
  kept : ∀ {f a} (q : KeyRequest), keeps f a → keeps (q.put f).2 a

namespace KeyFacility.Truthful

variable {keeps : φ → String → Prop}

/-- A keypair that is kept stays so through all requests. -/
lemma asked (truthful : Truthful keeps) {a : String} (asked : Asked f calls f') (kept : keeps f a) :
    keeps f' a := by
  induction asked with
  | nil => exact kept
  | @cons f₀ f₁ _ q _ _ put _ ih =>
    have next := truthful.kept q kept
    rw [put] at next
    exact ih next

/-- A look-up generates a keypair only for an alias that has none, which then has one. -/
lemma lookedUp (truthful : Truthful keeps) {a : String}
    {result : Except (Halt KeyError) KeyHandle} (asked : Asked f calls f')
    (looked : LookedUp a calls result) :
    calls.filterMap Exchange.generated? = [] ∨
      calls.filterMap Exchange.generated? = [a] ∧ ¬ keeps f a ∧ keeps f' a := by
  have silent {more : List Exchange} (none : ∀ x ∈ more, ¬ x.Generates) :
      more.filterMap Exchange.generated? = [] :=
    List.filterMap_eq_nil_iff.2 fun x there => Exchange.generated?_eq_none (none x there)
  rcases looked.generates with none | ⟨validity, pair, reply, rest, rfl, none⟩
  · exact .inl (silent none)
  · cases reply with
    | error stop =>
      -- the facility may have kept the keypair all the same: then it will say so when asked again
      have rest := silent none
      exact .inl rest
    | ok _ =>
      refine .inr ⟨congrArg (a :: ·) (silent none), ?_⟩
      cases asked with
      | cons has asked =>
        cases asked with
        | cons generate asked =>
          refine ⟨fun kept => ?_, truthful.asked asked (truthful.generated generate)⟩
          -- it had answered that there is no keypair
          cases (truthful.told has).2 kept

end KeyFacility.Truthful

/-- A facility in memory tells which records it has. -/
lemma MemoryFacility.truthful :
    KeyFacility.Truthful fun (f : MemoryFacility) a => f.records.contains a = true where
  told := by
    rintro ⟨records, generated, off⟩ f' a known told
    cases off with
    | true => cases told
    | false =>
      cases told
      rfl
  generated := by
    rintro ⟨records, generated, off⟩ f' a validity pair done
    cases off with
    | true => cases done
    | false =>
      cases done
      exact congrArg Option.isSome (Table.get?_insert_self records a _)
  kept := by
    rintro ⟨records, generated, off⟩ a (_ | ⟨b, validity, pair⟩ | _ | _) kept
    · exact kept
    · cases off with
      | true => exact kept
      | false =>
        show ((records.insert b _).get? a).isSome = true
        rw [Table.get?_insert]
        split
        · rfl
        · exact kept
    · exact kept
    · exact kept

/-- A facility that some calls do not reach. -/
structure Flaky (φ : Type) where
  base : φ
  /-- Is the next call lost, the one after it, and so on? In the end they all come through. -/
  lost : List Bool

/-- Puts a request to the facility unless the call is lost. -/
def Flaky.put (q : KeyRequest) : KeyCall (Flaky φ) q.Answer := fun f =>
  if f.lost.head? = some true then
    (.error (.error (.unavailable .marked)), ⟨f.base, f.lost.tail⟩)
  else
    let (reply, base) := q.put f.base
    (reply, ⟨base, f.lost.tail⟩)

instance : KeyFacility (Flaky φ) where
  hasKeypair keyAlias := Flaky.put (.hasKeypair keyAlias)
  generate keyAlias validity pair := Flaky.put (.generate keyAlias validity pair)
  publicKey keyAlias := Flaky.put (.publicKey keyAlias)
  secretKey keyAlias := Flaky.put (.secretKey keyAlias)

/-- A call is lost, with nothing changed in the facility, or comes through. -/
lemma Flaky.put_cases (q : KeyRequest) (f : Flaky φ) :
    (∃ error, (Flaky.put q f).1 = .error error ∧ (Flaky.put q f).2.base = f.base) ∨
      q.put f.base = ((Flaky.put q f).1, (Flaky.put q f).2.base) := by
  rw [Flaky.put]
  split
  · exact .inl ⟨_, rfl, rfl⟩
  · exact .inr rfl

/-- Calls that are lost do not make a facility lie, whichever they are. -/
lemma Flaky.truthful {keeps : φ → String → Prop} (truthful : KeyFacility.Truthful keeps) :
    KeyFacility.Truthful fun (f : Flaky φ) a => keeps f.base a where
  told := by
    intro f f' a known told
    have told : Flaky.put (.hasKeypair a) f = (.ok known, f') := told
    rcases Flaky.put_cases (.hasKeypair a) f with ⟨error, failed, _⟩ | through
    · rw [told] at failed
      cases failed
    · rw [told] at through
      exact truthful.told through
  generated := by
    intro f f' a validity pair done
    have done : Flaky.put (.generate a validity pair) f = (.ok (), f') := done
    rcases Flaky.put_cases (.generate a validity pair) f with ⟨error, failed, _⟩ | through
    · rw [done] at failed
      cases failed
    · rw [done] at through
      exact truthful.generated through
  kept := by
    intro f a q kept
    have same : (q.put f).2 = (Flaky.put q f).2 := by cases q <;> rfl
    rw [same]
    rcases Flaky.put_cases q f with ⟨error, _, base⟩ | through
    · rwa [base]
    · have next := truthful.kept q kept
      rwa [through] at next

end Preferences
