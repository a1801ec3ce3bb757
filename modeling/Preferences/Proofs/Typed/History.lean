import Preferences.Keys.Memory
import Preferences.Proofs.Outcome
import Preferences.Proofs.Store.Current
import Preferences.Store.Memory
import Preferences.Typed.Request

/-!
# What a typed store answers after any history

Over a store that tells what was last written, the answers of a typed store depend on its history
only through the value that the last successful set of a key put there, and through the adapters
that are registered when it is read. Main statement: `answers_follow_last_set`.
-/

namespace Preferences

open Interleaving

variable {σ φ : Type}

/-! ## Stores that tell what was last written -/

/-- The states of the store stand for tables: reads look a key up, a write that succeeds puts its
value under its key, and one that fails does nothing. -/
structure Store.Tells [Store σ] (R : σ → Table String Value → Prop) : Prop where
  read : ∀ {s values}, R s values → ∀ key, Store.read s key = .ok (values.get? key)
  written : ∀ {s values}, R s values → ∀ {key v mode s'},
    Store.write s key v mode = (.ok (), s') → R s' (values.insert key v)
  refused : ∀ {s values}, R s values → ∀ {key v mode e s'},
    Store.write s key v mode = (.error e, s') → R s' values

/-- A store in memory tells what was written, its table being what it holds. -/
lemma MemoryStore.tells : Store.Tells fun (s : MemoryStore) values => s.values = values where
  read := by
    rintro s _ rfl key
    rfl
  written := by
    rintro s _ rfl key v mode s' out
    cases out
    rfl
  refused := by
    intro s _ _ key v mode e s' out
    cases out

/-- A store that refuses some writes, but does not lie about what it has, tells what was written. -/
lemma FaultyStore.tells : Store.Tells fun (s : FaultyStore) values =>
    (∀ key, s.lie? key = none) ∧ s.base.values = values where
  read := by
    rintro s _ ⟨honest, rfl⟩ key
    simp only [Store.read, honest]
  written := by
    rintro s _ ⟨honest, rfl⟩ key v mode s' out
    simp only [Store.write] at out
    split at out
    · cases out
    · cases out
      exact ⟨honest, rfl⟩
  refused := by
    rintro s _ ⟨honest, rfl⟩ key v mode e s' out
    simp only [Store.write] at out
    split at out
    · cases out
      exact ⟨honest, rfl⟩
    · cases out

/-- A store in a file, on a disk that takes the file. -/
lemma Mounted.tells (path : Path) : Store.Tells fun m values => Current path values m where
  read := by
    rintro m values c key
    rw [← c.holds]
    rfl
  written := by
    intro m values c key v mode m' out
    have c' := (c.write key v mode).2
    rwa [out] at c'
  refused := by
    intro m values c key v mode e m' out
    have done := (c.write key v mode).1
    rw [out] at done
    cases done

/-- A store tells what was last written to it, and refuses no write. -/
structure Store.Faithful [Store σ] (R : σ → Table String Value → Prop) : Prop extends
    Store.Tells R where
  accepts : ∀ {s values}, R s values → ∀ key v mode, (Store.write s key v mode).1 = .ok ()

/-- A store in memory gives what it took, whatever the request. -/
lemma MemoryStore.faithful :
    Store.Faithful fun (s : MemoryStore) values => s.values = values where
  toTells := MemoryStore.tells
  accepts _ _ _ _ := rfl

/-- A file store gives what it took, as long as the disk takes its file. -/
lemma Mounted.faithful (path : Path) : Store.Faithful fun m values => Current path values m where
  toTells := Mounted.tells path
  accepts c key v mode := (c.write key v mode).1

/-! ## Histories -/

/-- The request is about values and adapters only, and goes through the typed layer. -/
def Request.Typed : Request → Prop
  | .get .. | .set .. | .contains _ | .addAdapter .. => True
  | _ => False

/-- The adapter that requests registered last for a type. -/
def Request.lastAdapter? (t : PrefType) (rs : List Request) : Option (Adapter t.Val) :=
  rs.reverse.findSome? fun
    | .addAdapter u a => if h : u = t then some (h ▸ a) else none
    | _ => none

/-- Of the adapters for a type the last one counts. -/
lemma Request.lastAdapter?_cons (t : PrefType) (r : Request) (rs : List Request) :
    lastAdapter? t (r :: rs) = (lastAdapter? t rs).or (lastAdapter? t [r]) := by
  rw [lastAdapter?, List.reverse_cons, List.findSome?_append]
  rfl

/-- An adapter is found for its type, and the others as before. -/
lemma Registry.adapter?_add (r : Registry) (u : PrefType) (a : Adapter u.Val) (t : PrefType) :
    (r.add u a).adapter? t = (Request.lastAdapter? t [.addAdapter u a]).or (r.adapter? t) := by
  show (if h : u = t then _ else _) = _
  simp only [Request.lastAdapter?, List.reverse_singleton, List.findSome?_singleton]
  split <;> rfl

namespace TypedStore

variable [Store σ]

/-- What a request puts under which key: the stored form of the value, if it is a set and it
succeeds. -/
def put? (s : TypedStore σ φ) : Request → Option (String × Value)
  | .set t key v mode =>
    match (toStored s.registry t v).1, (s.set t key v mode).1 with
    | .ok stored, .ok _ => some (key, stored)
    | _, _ => none
  | _ => none

/-- What requests put into the store, in turn. -/
def puts [KeyFacility φ] (s : TypedStore σ φ) : List Request → List (String × Value)
  | [] => []
  | r :: rs => (s.put? r).toList ++ (s.perform r).2.puts rs

variable {R : σ → Table String Value → Prop} {s : TypedStore σ φ} {values : Table String Value}

/-- A set either fails and leaves the store as it was, or puts the stored form of the value. -/
lemma set_holds (tells : Store.Tells R) (holds : R s.store values) (t : PrefType) (key : String)
    (v : t.Val) (mode : SyncMode) :
    R (s.set t key v mode).2.store (valuesAfter values (s.put? (.set t key v mode)).toList) := by
  rw [put?, set]
  cases requireKey key with
  | error e =>
    cases (toStored s.registry t v).1 <;> exact holds
  | ok _ =>
    rcases toStored s.registry t v with ⟨e | stored, calls⟩
    · exact holds
    · dsimp only
      rw [PendingWrite.finish]
      rcases out : Store.write s.store key stored mode with ⟨e | _, store⟩
      · exact tells.refused holds out
      · exact tells.written holds out

/-- A set leaves the registry. -/
lemma set_registry (s : TypedStore σ φ) (t : PrefType) (key : String) (v : t.Val)
    (mode : SyncMode) : (s.set t key v mode).2.registry = s.registry := by
  rw [set]
  cases requireKey key with
  | error e => rfl
  | ok _ => rcases toStored s.registry t v with ⟨e | stored, calls⟩ <;> rfl

/-- A get leaves the registry. -/
lemma get_registry (s : TypedStore σ φ) (t : PrefType) (key : String) (default : Option t.Val) :
    (s.get t key default).2.registry = s.registry := by
  rw [get]
  cases requireKey key <;> rfl

variable [KeyFacility φ]

/-- Nothing else changes what the store holds. -/
lemma perform_holds (tells : Store.Tells R) (holds : R s.store values) {r : Request}
    (typed : r.Typed) :
    R (s.perform r).2.store (valuesAfter values (s.put? r).toList) := by
  cases r with
  | set t key v mode => exact set_holds tells holds t key v mode
  | get t key default =>
    have same : (s.get t key default).2.store = s.store := by
      rw [get]
      cases requireKey key <;> rfl
    show R (s.get t key default).2.store values
    rw [same]
    exact holds
  | contains | addAdapter => exact holds
  | _ => cases typed

/-- After typed requests the store holds what they put, over what it held. -/
lemma performAll_holds (tells : Store.Tells R) (holds : R s.store values) {rs : List Request}
    (typed : ∀ r ∈ rs, r.Typed) :
    R (s.performAll rs).2.store (valuesAfter values (s.puts rs)) := by
  induction rs generalizing s values with
  | nil => exact holds
  | cons r rs ih =>
    rw [puts, valuesAfter, List.foldl_append]
    exact ih (perform_holds tells holds (typed r List.mem_cons_self))
      fun q later => typed q (List.mem_cons_of_mem _ later)

/-- Requests register adapters and change nothing else of the registry. -/
lemma perform_registry {r : Request} (typed : r.Typed) (t : PrefType) :
    (s.perform r).2.registry.engine = s.registry.engine ∧
      (s.perform r).2.registry.adapter? t =
        (Request.lastAdapter? t [r]).or (s.registry.adapter? t) := by
  cases r with
  | addAdapter u a => exact ⟨rfl, s.registry.adapter?_add u a t⟩
  | set u key v mode =>
    show (s.set u key v mode).2.registry.engine = _ ∧ (s.set u key v mode).2.registry.adapter? t = _
    rw [set_registry]
    exact ⟨rfl, rfl⟩
  | get u key default =>
    show (s.get u key default).2.registry.engine = _ ∧
      (s.get u key default).2.registry.adapter? t = _
    rw [get_registry]
    exact ⟨rfl, rfl⟩
  | contains => exact ⟨rfl, rfl⟩
  | _ => cases typed

/-- After typed requests the registry has the same engine, and for every type the last adapter
registered. -/
lemma performAll_registry {rs : List Request} (typed : ∀ r ∈ rs, r.Typed) (t : PrefType) :
    (s.performAll rs).2.registry.engine = s.registry.engine ∧
      (s.performAll rs).2.registry.adapter? t =
        (Request.lastAdapter? t rs).or (s.registry.adapter? t) := by
  induction rs generalizing s with
  | nil => exact ⟨rfl, rfl⟩
  | cons r rs ih =>
    obtain ⟨engine, adapter⟩ := perform_registry (s := s) (typed r List.mem_cons_self) t
    obtain ⟨engine', adapter'⟩ := ih (s := (s.perform r).2) fun q later =>
      typed q (List.mem_cons_of_mem _ later)
    refine ⟨engine'.trans engine, adapter'.trans ?_⟩
    rw [adapter, Request.lastAdapter?_cons t r rs, Option.or_assoc]

end TypedStore

/-! ## Reading -/

/-- Of the values put under a key the last one counts. -/
lemma get?_valuesAfter_eq (values : Table String Value) (us : List (String × Value))
    (key : String) :
    (valuesAfter values us).get? key = (us.reverse.lookup key).or (values.get? key) := by
  induction us generalizing values with
  | nil => rfl
  | cons u us ih =>
    have step : valuesAfter values (u :: us) = valuesAfter (values.insert u.1 u.2) us := rfl
    rw [step, ih, List.reverse_cons, List.lookup_append, Option.or_assoc]
    by_cases same : key = u.1
    · rw [same, Table.get?_insert_self, List.lookup_cons_self]
      rfl
    · have other : List.lookup key [u] = none := by
        rw [List.lookup_cons, beq_false_of_ne same]
        rfl
      rw [Table.get?_insert_of_ne _ _ same, other]
      rfl

namespace Value

/-- A value of a primitive kind carries what it was made of. -/
@[simp]
lemma carrier?_ofCarrier (k : Primitive) (a : k.Carrier) :
    (ofCarrier k a).carrier? k = some a := by
  cases k <;> rfl

/-- A value of another kind carries nothing of this one. -/
lemma carrier?_of_kind_ne {v : Value} {k : Primitive} (other : v.kind ≠ k) :
    v.carrier? k = none := by
  cases v <;> cases k <;> first | rfl | exact absurd rfl other

/-- What there can be to decode: nothing, a text, or a value that is no text. -/
lemma text_cases (p : Option Value) :
    (p = none ∨ p = some (.string "")) ∨ (∃ text, p = some (.string text) ∧ text ≠ "") ∨
      ∃ v, p = some v ∧ v.kind ≠ .string := by
  cases p with
  | none => exact .inl (.inl rfl)
  | some v =>
    cases v with
    | string text =>
      by_cases empty : text = ""
      · exact .inl (.inr (by rw [empty]))
      · exact .inr (.inl ⟨text, rfl, empty⟩)
    | long | int | bool => exact .inr (.inr ⟨_, rfl, nofun⟩)

end Value

instance (k : Primitive) : Nontrivial k.Carrier := by
  cases k with
  | long | int => exact ⟨⟨0, by decide, by decide⟩, ⟨1, by decide, by decide⟩, by decide⟩
  | bool => exact ⟨false, true, by decide⟩
  | string => exact ⟨"", "0", by decide⟩

namespace Store

variable [Store σ] {s : σ} {key : String} {k : Primitive} {fallback : k.Carrier}

/-- Where nothing is stored a primitive get gives the fallback. -/
lemma get_of_none (read : Store.read s key = .ok none) :
    Store.get s k key fallback = .ok fallback := by
  rw [Store.get, read]
  rfl

/-- Where a value of the kind is stored a primitive get gives it. -/
lemma get_of_carrier {a : k.Carrier} (read : Store.read s key = .ok (some (.ofCarrier k a))) :
    Store.get s k key fallback = .ok a := by
  rw [Store.get, read]
  simp only [bind, Except.bind, Value.carrier?_ofCarrier]
  rfl

/-- Where a value of another kind is stored a primitive get tells both kinds. -/
lemma get_of_kind_ne {v : Value} (read : Store.read s key = .ok (some v)) (other : v.kind ≠ k) :
    Store.get s k key fallback = .error (.typeMismatch key k v.kind) := by
  rw [Store.get, read]
  simp only [bind, Except.bind, Value.carrier?_of_kind_ne other]

end Store

namespace TypedStore

variable [Store σ] {s : TypedStore σ φ} {key : String}

/-- A get under a name is a read of the store, with its adapter calls counted. -/
lemma get_eq (named : key ≠ "") (t : PrefType) (default : Option t.Val) :
    s.get t key default = ((readAs s.store s.registry t key default).1,
      { s with calls := s.calls + (readAs s.store s.registry t key default).2 }) := by
  rw [get, requireKey, if_neg named]

/-- A key that has no value or the empty text gives the default, whatever the registry is. -/
lemma get_structured_of_empty (named : key ≠ "") {p : Option Value}
    (read : Store.read s.store key = .ok p) (empty : p = none ∨ p = some (.string "")) (m : Model)
    (default : m.Val) : s.get (.structured m) key (some default) = (.ok default, s) := by
  have raw : Store.get s.store .string key "" = .ok "" := by
    rcases empty with rfl | rfl
    · exact Store.get_of_none read
    · exact Store.get_of_carrier (k := .string) read
  rw [get_eq named, readAs, raw]
  rfl

/-- A structured get decodes the text that is stored, by the adapter for its type or by the engine.
-/
lemma get_structured_of_text (named : key ≠ "") {text : String}
    (read : Store.read s.store key = .ok (some (.string text))) (nonempty : text ≠ "") (m : Model)
    (default : m.Val) :
    (s.get (.structured m) key (some default)).1 =
      (match s.registry.adapter? (.structured m) with
        | some a => a.decode text
        | none => s.registry.engine.decodeAs (.structured m) text).mapError
          (.decode text m.typeName) := by
  have raw : Store.get s.store .string key "" = .ok text :=
    Store.get_of_carrier (k := .string) read
  rw [get_eq named, readAs, raw]
  simp only [Registry.decode, if_neg nonempty]
  cases s.registry.adapter? (.structured m) <;> rfl

/-- A structured get over a value that is no text tells its kind. -/
lemma get_structured_of_kind_ne (named : key ≠ "") {v : Value}
    (read : Store.read s.store key = .ok (some v)) (other : v.kind ≠ .string) (m : Model)
    (default : m.Val) :
    (s.get (.structured m) key (some default)).1 =
      .error (.store (.typeMismatch key .string v.kind)) := by
  have raw : Store.get s.store .string key "" = .error (.typeMismatch key .string v.kind) :=
    Store.get_of_kind_ne read other
  rw [get_eq named, readAs, raw]

/-- With a default, only a value that is no text and a text that cannot be decoded fail. -/
lemma get_structured_error (named : key ≠ "") {p : Option Value}
    (read : Store.read s.store key = .ok p) {m : Model} {default : m.Val} {e : Error}
    (failed : (s.get (.structured m) key (some default)).1 = .error e) :
    (∃ v, p = some v ∧ v.kind ≠ .string ∧ e = .store (.typeMismatch key .string v.kind)) ∨
      ∃ text reason, e = .decode text m.typeName reason := by
  rcases Value.text_cases p with empty | ⟨text, rfl, nonempty⟩ | ⟨v, rfl, other⟩
  · rw [get_structured_of_empty named read empty] at failed
    cases failed
  · rw [get_structured_of_text named read nonempty] at failed
    obtain ⟨reason, -, rfl⟩ := mapError_eq_error failed
    exact .inr ⟨text, reason, rfl⟩
  · rw [get_structured_of_kind_ne named read other] at failed
    cases failed
    exact .inl ⟨v, rfl, other, rfl⟩

/-- The default is given whatever the registry only where there is no text to decode. -/
lemma empty_of_get_structured (named : key ≠ "") {p : Option Value}
    (read : Store.read s.store key = .ok p) {m : Model} {default : m.Val}
    (same : ∀ registry, { s with registry }.get (.structured m) key (some default) =
      (.ok default, { s with registry })) : p = none ∨ p = some (.string "") := by
  -- an adapter that refuses everything shows that it was called
  let refusing : Registry := { adapter? := fun _ => some .refusing }
  have kept := congrArg Prod.fst (same refusing)
  rcases Value.text_cases p with empty | ⟨text, rfl, nonempty⟩ | ⟨v, rfl, other⟩
  · exact empty
  · rw [get_structured_of_text (s := { s with registry := refusing }) named read nonempty] at kept
    cases kept
  · rw [get_structured_of_kind_ne (s := { s with registry := refusing }) named read other] at kept
    cases kept

/-- The default is given whatever it is only where there is no value. -/
lemma none_of_get_primitive (named : key ≠ "") {p : Option Value}
    (read : Store.read s.store key = .ok p) {k : Primitive}
    (same : ∀ default, (s.get (.primitive k) key default).1 = .ok (default.getD k.zero)) :
    p = none := by
  cases p with
  | none => rfl
  | some v =>
    by_cases kind : v.kind = k
    · obtain ⟨a, rfl⟩ : ∃ a, v = .ofCarrier k a := by
        subst kind
        cases v <;> exact ⟨_, rfl⟩
      -- every kind has another value, which is then the default
      obtain ⟨b, other⟩ : ∃ b : k.Carrier, b ≠ a := exists_ne a
      have kept := same (some b)
      rw [get_eq named, readAs, Store.get_of_carrier read] at kept
      exact absurd (Except.ok.inj kept).symm other
    · have kept := same none
      rw [get_eq named, readAs, Store.get_of_kind_ne read kind] at kept
      cases kept

/-- What a typed store opens is the text that its store has under the key. -/
lemma getSealed_of_read [KeyFacility φ] {sealedText : String} (named : key ≠ "")
    (found : Store.read s.store key = .ok (some (.string sealedText))) :
    (s.getSealed key).1 =
      (s.envelope.decrypt s.suite (s.supply.chance s.supply.used) s.facility sealedText).1 := by
  have got : s.get (.primitive .string) key none =
      (.ok sealedText, { s with calls := s.calls + ({} : Calls) }) := by
    rw [get_eq named, readAs, Store.get_of_carrier (k := .string) found]
    rfl
  rw [getSealed, got]
  rfl

variable [KeyFacility φ] {R : σ → Table String Value → Prop} {values : Table String Value}

/-- After any requests to set and get values and to register adapters, also after failures, let `p`
be what the last successful set of a key put there. The key is found just where there is such a
value. A native kind is answered by the payload of a value of that kind, by a mismatch for a value
of another kind, and by the default just where there is no value. A structured type is refused just
where no default is given; else it is a mismatch just where the value is no text; else it is the
default, whatever the engine and the adapters are, just where there is no value or the empty text;
and otherwise it is what the adapter that was registered last, or else the engine, makes of the
text, whatever it was written with and whatever the default. -/
theorem answers_follow_last_set (tells : Store.Tells R) (holds : R s.store values)
    {rs : List Request} (typed : ∀ r ∈ rs, r.Typed) (named : key ≠ "") :
    let s' := (s.performAll rs).2
    let p := ((s.puts rs).reverse.lookup key).or (values.get? key)
    s'.contains key = .ok p.isSome ∧
    (∀ k,
      (∀ default a, p = some (.ofCarrier k a) →
        (s'.get (.primitive k) key default).1 = .ok a) ∧
      (∀ default v, p = some v → v.kind ≠ k →
        (s'.get (.primitive k) key default).1 = .error (.store (.typeMismatch key k v.kind))) ∧
      ((∀ default, (s'.get (.primitive k) key default).1 = .ok (default.getD k.zero)) ↔
        p = none)) ∧
    ∀ m,
      (s'.get (.structured m) key none).1 = .error (.invalidArgument (.noDefault m.typeName)) ∧
      (∀ default, (∃ fault, (s'.get (.structured m) key default).1 =
        .error (.invalidArgument fault)) → default = none) ∧
      ∀ default,
        (∀ v, p = some v → v.kind ≠ .string →
          (s'.get (.structured m) key (some default)).1 =
            .error (.store (.typeMismatch key .string v.kind))) ∧
        ((∃ e, (s'.get (.structured m) key (some default)).1 = .error (.store e)) →
          ∃ v, p = some v ∧ v.kind ≠ .string) ∧
        ((∀ registry, { s' with registry }.get (.structured m) key (some default) =
            (.ok default, { s' with registry })) ↔
          p = none ∨ p = some (.string "")) ∧
        ∀ text, p = some (.string text) → text ≠ "" →
          (s'.get (.structured m) key (some default)).1 =
            (match (Request.lastAdapter? (.structured m) rs).or
                (s.registry.adapter? (.structured m)) with
              | some a => a.decode text
              | none => s.registry.engine.decodeAs (.structured m) text).mapError
                (.decode text m.typeName) := by
  intro s' p
  -- all answers depend on the store through this one read
  have read : Store.read s'.store key = .ok p := by
    rw [tells.read (performAll_holds tells holds typed), get?_valuesAfter_eq]
  refine ⟨?_, fun k => ⟨?_, ?_, none_of_get_primitive named read, ?_⟩, fun m => ⟨?_, ?_, ?_⟩⟩
  · rw [contains, requireKey, if_neg named]
    simp only [Store.contains, read]
    rfl
  · intro default a payload
    rw [get_eq named, readAs, Store.get_of_carrier (payload ▸ read)]
    rfl
  · intro default v found other
    rw [get_eq named, readAs, Store.get_of_kind_ne (found ▸ read) other]
    rfl
  · intro none default
    rw [get_eq named, readAs, Store.get_of_none (none ▸ read)]
    rfl
  · rw [get_eq named]
    rfl
  · rintro (none | default) ⟨fault, failed⟩
    · rfl
    · rcases get_structured_error named read failed with ⟨_, _, _, same⟩ | ⟨_, _, same⟩
      · cases same
      · cases same
  · intro default
    refine ⟨fun v found other => ?_, ?_, ⟨empty_of_get_structured named read, ?_⟩, ?_⟩
    · exact get_structured_of_kind_ne named (found ▸ read) other m default
    · rintro ⟨e, failed⟩
      rcases get_structured_error named read failed with ⟨v, found, other, _⟩ | ⟨_, _, same⟩
      · exact ⟨v, found, other⟩
      · cases same
    · intro empty registry
      exact get_structured_of_empty (s := { s' with registry }) named read empty m default
    · intro text found nonempty
      obtain ⟨engine, adapter⟩ := performAll_registry (s := s) typed (.structured m)
      rw [get_structured_of_text named (found ▸ read) nonempty, engine, adapter]

/-- A record is written by its name alone; then a write is refused by the store and another by an
adapter. What was written is still there, for the adapter that is registered in the end. -/
theorem refused_sets_leave_last_name :
    let s : TypedStore FaultyStore MemoryFacility :=
      { store := ⟨[⟨"locked", some "read only", none⟩], {}⟩, facility := {},
        supply := .sample }
    let history : List Request :=
      [.addAdapter (.structured .record) .nameOnly,
        .set (.structured .record) "k" ⟨"Sam", ⟨38, by decide, by decide⟩⟩ .apply,
        .set (.primitive .bool) "locked" true .commit,
        .addAdapter (.structured .record) .refusing,
        .set (.structured .record) "k" ⟨"Frodo", ⟨50, by decide, by decide⟩⟩ .commit,
        .get (.primitive .bool) "k" none,
        .addAdapter (.structured .record) .nameOnly]
    let s' := (s.performAll history).2
    s'.contains "k" = .ok true ∧ s'.contains "locked" = .ok false ∧
      (s'.get (.primitive .int) "k" none).1 =
        .error (.store (.typeMismatch "k" .int .string)) ∧
      ∀ default, (s'.get (.structured .record) "k" (some default)).1 =
        .ok ⟨"Sam", ⟨0, by decide, by decide⟩⟩ := by
  intro s history s'
  have holds : (∀ key, s.store.lie? key = none) ∧ s.store.base.values = ∅ := by
    refine ⟨fun key => ?_, rfl⟩
    show List.findSome? _ [_] = none
    rw [List.findSome?_singleton]
    split <;> rfl
  have typed : ∀ r ∈ history, r.Typed := by simp [history, Request.Typed]
  obtain ⟨there, native, structured⟩ := answers_follow_last_set FaultyStore.tells holds typed
    (by decide : "k" ≠ "")
  obtain ⟨absent, -⟩ := answers_follow_last_set FaultyStore.tells holds typed
    (by decide : "locked" ≠ "")
  refine ⟨there, absent, (native .int).2.1 none (.string "Sam") rfl (by decide), ?_⟩
  intro default
  exact ((structured .record).2.2 default).2.2.2 "Sam" rfl (by decide)

end TypedStore

end Preferences
