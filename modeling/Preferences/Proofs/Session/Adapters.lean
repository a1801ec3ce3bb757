import Preferences.Proofs.Session.Provided
import Preferences.Proofs.Typed.History

/-!
# Which adapter counts

Typed stores register adapters in the registry that they share, or each in its own. However long
the history of a registry is, and whichever typed stores made it, a value of a type is written and
read by the adapter that was registered last for just that type, called once, and by the engine
where there is none. Main statement: `adapters_reach_their_type_only`.
-/

namespace Preferences

/-! ## What a history of requests makes of a registry -/

namespace Registry

/-- A registry after a request to a typed store that has it. -/
def register (r : Registry) : Request → Registry
  | .addAdapter t a => r.add t a
  | _ => r

/-- A registry after all requests that register adapters. -/
def registerAll (r : Registry) (rs : List Request) : Registry := rs.foldl register r

/-- A request leaves the engine and registers the adapter that it brings, if it brings one. -/
lemma register_spec (r : Registry) (q : Request) (t : PrefType) :
    (r.register q).engine = r.engine ∧
      (r.register q).adapter? t = (Request.lastAdapter? t [q]).or (r.adapter? t) := by
  cases q with
  | addAdapter u a => exact ⟨rfl, r.adapter?_add u a t⟩
  | _ => exact ⟨rfl, rfl⟩

/-- Requests leave the engine and register the last adapter that they bring for a type. -/
lemma registerAll_spec (r : Registry) (rs : List Request) (t : PrefType) :
    (r.registerAll rs).engine = r.engine ∧
      (r.registerAll rs).adapter? t = (Request.lastAdapter? t rs).or (r.adapter? t) := by
  induction rs generalizing r with
  | nil => exact ⟨rfl, rfl⟩
  | cons q rs ih =>
    obtain ⟨engine, adapter⟩ := r.register_spec q t
    obtain ⟨engine', adapter'⟩ := ih (r.register q)
    refine ⟨engine'.trans engine, adapter'.trans ?_⟩
    rw [adapter, Request.lastAdapter?_cons t q rs, Option.or_assoc]

/-- Requests after others register their adapters after theirs. -/
lemma registerAll_append (r : Registry) (rs qs : List Request) :
    r.registerAll (rs ++ qs) = (r.registerAll rs).registerAll qs := List.foldl_append

variable {r : Registry} {t : PrefType}

/-- A type with an adapter is encoded by it, in one call. -/
lemma encode_of_adapter {a : Adapter t.Val} (own : r.adapter? t = some a) (v : t.Val) :
    r.encode t v = ((a.encode v).mapError (.encode t.typeName), { encodes := 1 }) := by
  rw [encode, own]
  rfl

/-- A type without an adapter is encoded by the engine, without any call. -/
lemma encode_of_none (none : r.adapter? t = none) (v : t.Val) :
    r.encode t v = ((r.engine.encodeAs t v).mapError (.encode t.typeName), {}) := by
  rw [encode, none]
  rfl

/-- A type with an adapter is decoded by it, in one call, unless the text is empty. -/
lemma decode_of_adapter {a : Adapter t.Val} (own : r.adapter? t = some a) {input : String}
    (nonempty : input ≠ "") (default : t.Val) :
    r.decode t input default =
      ((a.decode input).mapError (.decode input t.typeName), { decodes := 1 }) := by
  rw [decode, if_neg nonempty, own]
  rfl

/-- A type without an adapter is decoded by the engine, without any call. -/
lemma decode_of_none (none : r.adapter? t = none) {input : String} (nonempty : input ≠ "")
    (default : t.Val) :
    r.decode t input default =
      ((r.engine.decodeAs t input).mapError (.decode input t.typeName), {}) := by
  rw [decode, if_neg nonempty, none]
  rfl

/-- Registries that agree on a type encode and decode it alike. -/
lemma agree {r' : Registry} (engine : r'.engine = r.engine)
    (adapter : r'.adapter? t = r.adapter? t) :
    (∀ v, r'.encode t v = r.encode t v) ∧
      ∀ input default, r'.decode t input default = r.decode t input default := by
  refine ⟨fun v => ?_, fun input default => ?_⟩
  · rw [encode, encode, engine, adapter]
  · rw [decode, decode, engine, adapter]

end Registry

namespace TypedStore

variable {σ φ : Type} [Store σ] [KeyFacility φ]

/-- Only a registration changes the registry of a typed store. -/
lemma perform_register (s : TypedStore σ φ) (r : Request) :
    (s.perform r).2.registry = s.registry.register r := by
  cases r with
  | get t key default => exact s.get_registry t key default
  | set t key v mode => exact s.set_registry t key v mode
  | setAlias a =>
    show (s.setAlias a).2.registry = s.registry
    rw [setAlias]
    cases s.envelope.setAlias a <;> rfl
  | setSealed key text =>
    show (s.setSealed key text).2.registry = s.registry
    rw [setSealed]
    cases requireKey key with
    | error e => rfl
    | ok _ =>
      have same : (s.encrypt text).2.registry = s.registry := rfl
      rcases sealing : s.encrypt text with ⟨stop | sealedText, s'⟩
      · exact (congrArg (·.2.registry) sealing).symm.trans same
      · rw [sealing] at same
        exact (s'.set_registry (.primitive .string) key sealedText .apply).trans same
  | getSealed key =>
    show (s.getSealed key).2.registry = s.registry
    have same := s.get_registry (.primitive .string) key none
    rw [getSealed]
    rcases found : s.get (.primitive .string) key none with ⟨e | sealedText, s'⟩
    · exact (congrArg (·.2.registry) found).symm.trans same
    · rw [found] at same
      exact same
  | stage w finish =>
    show (s.stage w finish).2.registry = s.registry
    rw [stage]
    cases Store.contains s.store w.key with
    | error e => rfl
    | ok visible => cases finish <;> rfl
  | _ => rfl

end TypedStore

/-! ## The registries of a session -/

/-- Who has a registry: the typed stores that share one, or one of them alone. -/
inductive Holder where
  | shared
  | own (i : Nat)
  deriving DecidableEq

/-- The deed is not one of this typed store. -/
def Deed.Elsewhere (i : Nat) : Deed → Prop
  | .request j _ | .work j | .close j | .reopen j => j ≠ i
  | .disturb _ => True

namespace Session

variable {s : Session} {i : Nat}

/-- The registry of its own that an open typed store has. -/
def registryAt? (s : Session) (i : Nat) : Option Registry :=
  (s.seats[i]?).join.bind Seat.registry

/-- The registry of a holder. A typed store that is closed has an empty one. -/
def registryOf (s : Session) : Holder → Registry
  | .shared => s.registry
  | .own i => (s.registryAt? i).getD {}

/-- Who has the registry that a typed store works with. -/
def holder (s : Session) (i : Nat) : Holder :=
  if (s.registryAt? i).isSome then .own i else .shared

/-- An open typed store works with the registry of its holder. -/
lemma typed?_registry {t : TypedStore Stock (Trapped Vault)} (there : s.typed? i = some t) :
    t.registry = s.registryOf (s.holder i) := by
  obtain ⟨seat, store, seated, -, rfl⟩ := typed?_eq_some there
  have own : s.registryAt? i = seat.registry := by
    rw [registryAt?, seated]
    rfl
  rw [holder, own]
  cases kept : seat.registry with
  | none => rfl
  | some r =>
    show r = (s.registryAt? i).getD {}
    rw [own, kept]
    rfl

/-- What a seat brings replaces what its typed store had, and nothing else. -/
lemma registryAt?_set (s : Session) (i : Nat) (seat : Option Seat) (j : Nat) :
    { s with seats := s.seats.set i seat }.registryAt? j =
      if j = i then (if i < s.seats.length then seat.bind Seat.registry else none)
      else s.registryAt? j := by
  rw [registryAt?, List.getElem?_set]
  by_cases same : j = i
  · rw [if_pos same, if_pos same.symm]
    split <;> rfl
  · rw [if_neg same, if_neg (Ne.symm same)]
    rfl

/-- A seat without adapters of its own leaves its typed store without any. -/
lemma registryOf_set (s : Session) (i : Nat) (seat : Option Seat)
    (new : (seat.bind Seat.registry).getD {} = {}) (w : Holder) :
    { s with seats := s.seats.set i seat }.registryOf w =
      if w = .own i then {} else s.registryOf w := by
  cases w with
  | shared => rfl
  | own j =>
    rw [registryOf, registryAt?_set]
    by_cases same : j = i
    · rw [if_pos same, if_pos (congrArg Holder.own same)]
      split
      · exact new
      · rfl
    · rw [if_neg same, if_neg fun h => same (Holder.own.inj h)]
      rfl

/-- What is done with a file store leaves all registries. -/
lemma registryOf_withFile {α : Type} (s : Session) (i : Nat)
    (f : FileStore → Disk → α × FileStore × Disk) (w : Holder) :
    (s.withFile i f).2.registryOf w = s.registryOf w := by
  rw [withFile]
  cases seated : (s.seats[i]?).join with
  | none => rfl
  | some seat =>
    dsimp only
    cases seat.file with
    | none => rfl
    | some file =>
      cases w with
      | shared => rfl
      | own j =>
        have seated := Option.join_eq_some_iff.1 seated
        have inside := (List.getElem?_eq_some_iff.1 seated).1
        refine (congrArg (·.getD {})
          (registryAt?_set { s with disk := (f file s.disk).2.2 } i _ j)).trans ?_
        by_cases same : j = i
        · rw [if_pos same, if_pos inside, registryOf, registryAt?, same, seated]
          rfl
        · rw [if_neg same]
          rfl

/-- A typed store that is closed drops a registry of its own. -/
lemma registryOf_close (s : Session) (i : Nat) (w : Holder) :
    (s.close i).registryOf w = if w = .own i then {} else s.registryOf w := by
  refine (registryOf_set (s.settle i) i none rfl w).trans ?_
  rw [settle, registryOf_withFile]

/-- A typed store is opened without adapters of its own. -/
lemma newSeat_registry {seat : Seat} (opened : s.newSeat = .ok seat) :
    seat.registry.getD {} = {} := by
  obtain ⟨o, file, worn, rfl, -⟩ := newSeat_eq_ok opened
  rw [outfit] at worn
  split at worn
  · cases worn
    rfl
  · split at worn
    · cases worn
      rfl
    next a _ =>
      cases chosen : Envelope.setAlias {} a with
      | error e =>
        rw [chosen] at worn
        cases worn
      | ok envelope =>
        rw [chosen] at worn
        cases worn
        rfl

/-- A typed store that is opened starts with an empty registry, if it has one of its own. -/
lemma registryOf_openAt (s : Session) (i : Nat) (w : Holder) :
    (s.openAt i).2.registryOf w = if w = .own i then {} else s.registryOf w := by
  rw [openAt]
  cases opened : s.newSeat with
  | error e => exact registryOf_set s i none rfl w
  | ok seat => exact registryOf_set s i (some seat) (newSeat_registry opened) w

/-- A typed store that has changed leaves its registry with whoever has it. -/
lemma registryOf_keep {seat : Seat} (seated : s.seats[i]? = some (some seat))
    (t : TypedStore Stock (Trapped Vault)) (w : Holder) :
    (s.keep i t).registryOf w = if s.holder i = w then t.registry else s.registryOf w := by
  have inside := (List.getElem?_eq_some_iff.1 seated).1
  -- a registry goes back to its seat, or to the session where the seat has none of its own
  have shared : (s.keep i t).registry =
      if (s.registryAt? i).isSome then s.registry else t.registry := by
    rw [keep]
    split <;> rfl
  have own (j : Nat) : (s.keep i t).registryAt? j =
      if j = i then (if (s.registryAt? i).isSome then some t.registry else none)
      else s.registryAt? j := by
    rw [keep]
    split
    · refine (registryAt?_set _ i _ j).trans ?_
      rw [if_pos inside]
      rfl
    · refine (registryAt?_set _ i _ j).trans ?_
      rw [if_pos inside]
      rfl
  rw [holder]
  cases kept : s.registryAt? i with
  | none =>
    rw [kept] at shared own
    cases w with
    | shared => exact shared
    | own j =>
      rw [registryOf, own j]
      by_cases same : j = i
      · rw [if_pos same, registryOf, same, kept]
        rfl
      · rw [if_neg same]
        rfl
  | some r =>
    rw [kept] at shared own
    cases w with
    | shared => exact shared
    | own j =>
      rw [registryOf, own j]
      by_cases same : j = i
      · rw [if_pos same, same]
        exact (if_pos rfl).symm
      · rw [if_neg same]
        exact (if_neg fun h => same (Holder.own.inj h).symm).symm

/-! ## Histories -/

/-- The requests that came to a registry, after one more deed. A typed store that is opened again
brings a new registry. -/
def noted (s : Session) (w : Holder) (before : List Request) : Deed → List Request
  | .request i r => if (s.typed? i).isSome ∧ s.holder i = w then before ++ [r] else before
  | .close i | .reopen i => if w = .own i then [] else before
  | .work _ | .disturb _ => before

/-- The requests that came to a registry in a run, through whichever typed stores. -/
def history (s : Session) (w : Holder) (before : List Request) : List Deed → List Request
  | [] => before
  | d :: ds => (s.act d).2.history w (s.noted w before d) ds

/-- A deed does to a registry what the request that comes to it does. -/
lemma registryOf_act {w : Holder} {before : List Request}
    (made : s.registryOf w = Registry.registerAll {} before) (d : Deed) :
    (s.act d).2.registryOf w = Registry.registerAll {} (s.noted w before d) := by
  cases d with
  | request i r =>
    show (s.request i r).2.registryOf w = _
    rw [request, attend, noted]
    cases there : s.typed? i with
    | none => exact made
    | some t =>
      obtain ⟨seat, -, seated, -⟩ := typed?_eq_some there
      rw [registryOf_keep seated, t.perform_register, typed?_registry there]
      by_cases same : s.holder i = w
      · rw [if_pos same, if_pos ⟨rfl, same⟩, Registry.registerAll_append, ← made, same]
        rfl
      · rw [if_neg same, if_neg fun h => same h.2]
        exact made
  | work i => exact (registryOf_withFile s i _ w).trans made
  | close i =>
    rw [noted]
    refine (registryOf_close s i w).trans ?_
    split
    · rfl
    · exact made
  | reopen i =>
    rw [noted]
    refine (registryOf_openAt (s.close i) i w).trans ?_
    split
    · rfl
    next other => rw [registryOf_close, if_neg other, made]
  | disturb d => cases w <;> exact made

/-- So does a run with all that come to it. -/
lemma registryOf_actAll {w : Holder} {before : List Request}
    (made : s.registryOf w = Registry.registerAll {} before) (ds : List Deed) :
    (s.actAll ds).2.registryOf w = Registry.registerAll {} (s.history w before ds) := by
  induction ds generalizing s before with
  | nil => exact made
  | cons d ds ih => exact ih (registryOf_act made d)

/-- No typed store has registered an adapter. -/
def Unadapted (s : Session) : Prop := ∀ w, s.registryOf w = {}

/-- At the start no typed store has registered an adapter. -/
lemma unadapted_start (terms : Terms) (disk : Disk) (vault : Vault) (supply : Supply) (count : Nat)
    (suite : Suite) : (start terms disk vault supply count suite).2.Unadapted := by
  have opened (s : Session) (bare : s.Unadapted) (n : Nat) : (s.openAll n).2.Unadapted := by
    induction n with
    | zero => exact bare
    | succ n ih =>
      intro w
      refine (registryOf_openAt (s.openAll n).2 n w).trans ?_
      rw [ih w, ite_self]
  refine opened _ ?_ count
  intro w
  cases w with
  | shared => rfl
  | own i =>
    rw [registryOf, registryAt?, List.getElem?_replicate]
    split <;> rfl

/-! ## Typed stores with a registry of their own -/

/-- A typed store has the same seat in two sessions, and a store in both if in one. -/
structure SameSeat (i : Nat) (s s' : Session) : Prop where
  seat : s'.seats[i]? = s.seats[i]?
  shelf : s'.shelf i = s.shelf i
  shelves : s'.shelves.length = s.shelves.length

/-- What is done with the file store of another leaves a typed store its seat. -/
lemma SameSeat.withFile {α : Type} {j : Nat} (other : j ≠ i) (s : Session)
    (f : FileStore → Disk → α × FileStore × Disk) : SameSeat i s (s.withFile j f).2 := by
  rw [Session.withFile]
  cases (s.seats[j]?).join with
  | none => exact ⟨rfl, rfl, rfl⟩
  | some seat =>
    dsimp only
    cases seat.file with
    | none => exact ⟨rfl, rfl, rfl⟩
    | some file => exact ⟨List.getElem?_set_ne other, rfl, rfl⟩

/-- Another that is closed leaves a typed store its seat. -/
lemma SameSeat.close {j : Nat} (other : j ≠ i) (s : Session) : SameSeat i s (s.close j) := by
  have settled := SameSeat.withFile other s fun file disk => ((), file.drain disk)
  exact { settled with seat := (List.getElem?_set_ne other).trans settled.seat }

/-- Another that is opened leaves a typed store its seat. -/
lemma SameSeat.openAt {j : Nat} (other : j ≠ i) (s : Session) : SameSeat i s (s.openAt j).2 := by
  rw [Session.openAt]
  cases s.newSeat <;> exact ⟨List.getElem?_set_ne other, rfl, rfl⟩

/-- Another that changes leaves a typed store its seat. -/
lemma SameSeat.keep {j : Nat} (other : j ≠ i) (s : Session)
    (t : TypedStore Stock (Trapped Vault)) : SameSeat i s (s.keep j t) := by
  rw [Session.keep]
  split
  · exact ⟨List.getElem?_set_ne other, rfl, rfl⟩
  · exact ⟨List.getElem?_set_ne other, rfl, List.length_set⟩

/-- A seat that is left twice is left. -/
lemma SameSeat.trans {s s' s'' : Session} (first : SameSeat i s s') (second : SameSeat i s' s'') :
    SameSeat i s s'' :=
  ⟨second.seat.trans first.seat, second.shelf.trans first.shelf, second.shelves.trans first.shelves⟩

/-- Deeds elsewhere do not touch a seat. -/
lemma SameSeat.act {d : Deed} (elsewhere : d.Elsewhere i) (s : Session) :
    SameSeat i s (s.act d).2 := by
  cases d with
  | request j r =>
    show SameSeat i s (s.request j r).2
    rw [Session.request, attend]
    cases s.typed? j with
    | none => exact ⟨rfl, rfl, rfl⟩
    | some t => exact .keep elsewhere s _
  | work j => exact .withFile elsewhere s _
  | close j => exact .close elsewhere s
  | reopen j => exact (SameSeat.close elsewhere s).trans (.openAt elsewhere _)
  | disturb d => exact ⟨rfl, rfl, rfl⟩

/-- Deeds elsewhere leave a typed store its seat. -/
lemma SameSeat.actAll {ds : List Deed} (elsewhere : ∀ d ∈ ds, d.Elsewhere i) (s : Session) :
    SameSeat i s (s.actAll ds).2 := by
  induction ds generalizing s with
  | nil => exact ⟨rfl, rfl, rfl⟩
  | cons d ds ih =>
    obtain ⟨first, rest⟩ := List.forall_mem_cons.1 elsewhere
    exact (SameSeat.act first s).trans (ih rest _)

/-- A typed store in its old seat is still open, with the registry that it has of its own. -/
lemma SameSeat.typed {s' : Session} (same : SameSeat i s s') {t : TypedStore Stock (Trapped Vault)}
    (there : s.typed? i = some t) (own : s.holder i = .own i) :
    ∃ t', s'.typed? i = some t' ∧ t'.registry = t.registry := by
  obtain ⟨seat, store, seated, behind, rfl⟩ := typed?_eq_some there
  obtain ⟨seats, shelf, shelves⟩ := same
  obtain ⟨r, kept⟩ : ∃ r, seat.registry = some r := by
    rw [holder, registryAt?, seated] at own
    cases kept : seat.registry with
    | some r => exact ⟨r, rfl⟩
    | none =>
      rw [show (some (some seat)).join.bind Seat.registry = none from kept] at own
      cases own
  have seated : s'.seats[i]? = some (some seat) := seats.trans seated
  rcases behind with ⟨file, filed, -⟩ | ⟨bare, shelved⟩
  · simp only [typed?, seated, Option.join_some, bind, Option.bind, filed, kept]
    exact ⟨_, rfl, rfl⟩
  · have inside := (List.getElem?_eq_some_iff.1 shelved).1
    rw [← shelf, ← shelves] at inside
    simp only [typed?, seated, Option.join_some, bind, Option.bind, bare, kept,
      List.getElem?_eq_getElem inside]
    exact ⟨_, rfl, rfl⟩

end Session

open Request (lastAdapter?)

/-- A registry encodes and decodes a type by the adapter that requests registered last for it,
called once, and by the engine if they registered none; the empty text calls nothing. Failures of an
adapter are told with the name of the type, and on decoding with the whole text. So histories with
the same last registration for a type cannot be told apart by it. In a session the history of a
typed store is that of the registry that it shares, through whichever typed stores, or of its own;
what goes on elsewhere does not come to a registry of its own. -/
theorem adapters_reach_their_type_only (t : PrefType) :
    (∀ (engine : Engine) (rs : List Request),
      let r := Registry.registerAll { engine } rs
      (∀ a, lastAdapter? t rs = some a →
        (∀ v, r.encode t v = ((a.encode v).mapError (.encode t.typeName), ⟨1, 0⟩)) ∧
        ∀ input, input ≠ "" → ∀ default,
          r.decode t input default =
            ((a.decode input).mapError (.decode input t.typeName), ⟨0, 1⟩)) ∧
      (lastAdapter? t rs = none →
        (∀ v, r.encode t v = ((engine.encodeAs t v).mapError (.encode t.typeName), ⟨0, 0⟩)) ∧
        ∀ input, input ≠ "" → ∀ default,
          r.decode t input default =
            ((engine.decodeAs t input).mapError (.decode input t.typeName), ⟨0, 0⟩)) ∧
      (∀ default, r.decode t "" default = (.ok default, ⟨0, 0⟩)) ∧
      ∀ rs', lastAdapter? t rs' = lastAdapter? t rs →
        let r' := Registry.registerAll { engine } rs'
        (∀ v, r'.encode t v = r.encode t v) ∧
          ∀ input default, r'.decode t input default = r.decode t input default) ∧
    (∀ terms disk vault supply count suite,
      (Session.start terms disk vault supply count suite).2.Unadapted) ∧
    (∀ s : Session, s.Unadapted → ∀ ds i p, (s.actAll ds).2.typed? i = some p →
      p.registry = Registry.registerAll {} (s.history ((s.actAll ds).2.holder i) [] ds)) ∧
    ∀ (s : Session) i p, s.typed? i = some p → s.holder i = .own i →
      ∀ ds, (∀ d ∈ ds, Deed.Elsewhere i d) →
        ∃ p', (s.actAll ds).2.typed? i = some p' ∧ p'.registry = p.registry := by
  refine ⟨fun engine rs => ?_, Session.unadapted_start, ?_, ?_⟩
  · intro r
    obtain ⟨same, adapter⟩ := Registry.registerAll_spec { engine } rs t
    rw [Option.or_none] at adapter
    refine ⟨fun a last => ?_, fun none => ?_, fun default => rfl, fun rs' last => ?_⟩
    -- the registry before the requests has no adapter that could be found instead
    · have own := adapter.trans last
      exact ⟨Registry.encode_of_adapter own, fun input => Registry.decode_of_adapter own⟩
    · have none := adapter.trans none
      have same : r.engine = engine := same
      refine ⟨fun v => ?_, fun input nonempty default => ?_⟩
      · rw [Registry.encode_of_none none, same]
      · rw [Registry.decode_of_none none nonempty, same]
    · obtain ⟨same', adapter'⟩ := Registry.registerAll_spec { engine } rs' t
      rw [Option.or_none, last, ← adapter] at adapter'
      rw [← same] at same'
      exact Registry.agree same' adapter'
  · intro s bare ds i p there
    rw [Session.typed?_registry there]
    exact Session.registryOf_actAll (bare _) ds
  · intro s i p there own ds elsewhere
    exact (Session.SameSeat.actAll elsewhere s).typed there own

/-- Two typed stores share a registry: the adapter that one of them registered last for people
counts for the other, whatever was registered for another type. Where each has a registry of its
own, that adapter does not count. -/
theorem last_adapter_counts_where_shared :
    let session (terms : Terms) : Session :=
      (Session.start terms (.fresh []) (.memory {}) .sample 2).2
    let people : PrefType := .structured .record
    let sam : Record := ⟨"Sam", ⟨38, by decide, by decide⟩⟩
    let ds : List Deed :=
      [.request 1 (.addAdapter people .refusing),
        .request 0 (.addAdapter (.structured .customierClass) .refusing),
        .request 0 (.addAdapter people .nameOnly)]
    (∃ p, ((session {}).actAll ds).2.typed? 1 = some p ∧
      p.registry.encode people sam = (.ok "Sam", ⟨1, 0⟩) ∧
      p.registry.encode (.structured .customierClass) ⟨"AA", ⟨2, by decide, by decide⟩⟩ =
        (.error (.encode "prefs::types::CustomierClass" "adapter refused"), ⟨1, 0⟩)) ∧
    ∃ p, ((session { ownRegistry := true }).actAll ds.tail).2.typed? 1 = some p ∧
      p.registry.encode people sam = ((Engine.json.encodeAs people sam).mapError
        (.encode "prefs::types::Record"), ⟨0, 0⟩) := by
  intro session people sam ds
  obtain ⟨goes, start, follows, apart⟩ := adapters_reach_their_type_only people
  obtain ⟨goes', -⟩ := adapters_reach_their_type_only (.structured .customierClass)
  let rs : List Request :=
    [.addAdapter people .refusing, .addAdapter (.structured .customierClass) .refusing,
      .addAdapter people .nameOnly]
  have noted : (session {}).history .shared [] ds = rs := by rfl
  obtain ⟨p, there⟩ : ∃ p, ((session {}).actAll ds).2.typed? 1 = some p := ⟨_, rfl⟩
  have shared : ((session {}).actAll ds).2.holder 1 = .shared := rfl
  have made := follows (session {}) (start {} _ _ _ _ _) ds 1 p there
  rw [shared, noted] at made
  refine ⟨⟨p, there, ?_, ?_⟩, ?_⟩
  · rw [made]
    exact ((goes .json rs).1 .nameOnly rfl).1 sam
  · rw [made]
    exact ((goes' .json rs).1 .refusing rfl).1 _
  · have elsewhere : ∀ d ∈ ds.tail, Deed.Elsewhere 1 d := by simp [ds, Deed.Elsewhere]
    obtain ⟨p, there, same⟩ := apart (session { ownRegistry := true }) 1 _ rfl rfl _ elsewhere
    refine ⟨p, there, ?_⟩
    rw [same]
    exact ((goes .json []).2.1 rfl).1 sam

end Preferences
