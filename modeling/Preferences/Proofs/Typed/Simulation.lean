import Mathlib.Tactic.Lemma
import Preferences.Typed.Request

/-!
# Typed stores over stores that act alike

A typed store sees its store through reads and writes only. Over two stores whose states give the
same reads and take writes with the same results, it gives the same answers to every request. Main
statement: `TypedStore.perform_alike`.
-/

namespace Preferences

variable {σ τ φ α : Type}

/-- States of two stores that reads and writes cannot tell apart, also afterwards. -/
structure Store.Alike [Store σ] [Store τ] (R : σ → τ → Prop) : Prop where
  read : ∀ {s t}, R s t → ∀ key, Store.read t key = Store.read s key
  write : ∀ {s t}, R s t → ∀ key v mode,
    (Store.write t key v mode).1 = (Store.write s key v mode).1 ∧
      R (Store.write s key v mode).2 (Store.write t key v mode).2

/-- What is read as a kind depends on what the key reads as, and on nothing else in the store. -/
lemma Store.get_congr [Store σ] [Store τ] {s : σ} {t : τ} {key : String}
    (read : Store.read t key = Store.read s key) (k : Primitive) (fallback : k.Carrier) :
    Store.get t k key fallback = Store.get s k key fallback := by
  rw [Store.get, read]
  rfl

/-- What is read from two stores is the same where they have the same under the key. -/
lemma readAs_congr [Store σ] [Store τ] {s : σ} {t : τ} {key : String}
    (read : Store.read t key = Store.read s key) (registry : Registry) (type : PrefType)
    (default : Option type.Val) :
    readAs t registry type key default = readAs s registry type key default := by
  cases type with
  | primitive k =>
    rw [readAs, Store.get_congr read]
    rfl
  | structured m =>
    cases default with
    | none => rfl
    | some default =>
      rw [readAs, Store.get_congr read]
      rfl

namespace Store.Alike

variable [Store σ] [Store τ] {R : σ → τ → Prop} {s : σ} {t : τ}

/-- Of stores that are alike both or none contains a key. -/
lemma contains (alike : Store.Alike R) (h : R s t) (key : String) :
    Store.contains t key = Store.contains s key := by
  rw [Store.contains, alike.read h]
  rfl

/-- Stores that are alike give the same for a primitive kind. -/
lemma get (alike : Store.Alike R) (h : R s t) (k : Primitive) (key : String)
    (fallback : k.Carrier) : Store.get t k key fallback = Store.get s k key fallback :=
  Store.get_congr (alike.read h key) k fallback

/-- Stores that are alike give the same for every type. -/
lemma readAs (alike : Store.Alike R) (h : R s t) (registry : Registry) (type : PrefType)
    (key : String) (default : Option type.Val) :
    readAs t registry type key default = readAs s registry type key default :=
  readAs_congr (alike.read h key) registry type default

end Store.Alike

namespace TypedStore

/-- The typed store over another store, all else the same. -/
def withStore (s : TypedStore σ φ) (t : τ) : TypedStore τ φ :=
  { store := t
    facility := s.facility
    envelope := s.envelope
    registry := s.registry
    calls := s.calls
    supply := s.supply
    suite := s.suite }

/-- What was done over one store and over another came to the same. -/
def Agree (R : σ → τ → Prop) (x : α × TypedStore σ φ) (y : α × TypedStore τ φ) : Prop :=
  ∃ t, R x.2.store t ∧ y = (x.1, x.2.withStore t)

variable {R : σ → τ → Prop} {s : TypedStore σ φ} {t : τ}

/-- Agreement does not depend on how a result is shown. -/
lemma Agree.map {β : Type} {x : α × TypedStore σ φ} {y : α × TypedStore τ φ} (h : Agree R x y)
    (f : α → β) : Agree R (f x.1, x.2) (f y.1, y.2) := by
  obtain ⟨t, related, rfl⟩ := h
  exact ⟨t, related, rfl⟩

/-- Replies agree where the outcomes do. -/
lemma Agree.reply {x : Except Error α × TypedStore σ φ} {y : Except Error α × TypedStore τ φ}
    (h : Agree R x y) (f : α → Reply) : Agree R (TypedStore.reply f x) (TypedStore.reply f y) :=
  h.map fun result => (result.map f).mapError Halt.error

/-- So they do with crashes among the outcomes. -/
lemma Agree.replyOrCrash {x : Except (Halt Error) α × TypedStore σ φ}
    {y : Except (Halt Error) α × TypedStore τ φ} (h : Agree R x y) (f : α → Reply) :
    Agree R (TypedStore.replyOrCrash f x) (TypedStore.replyOrCrash f y) :=
  h.map fun result => result.map f

/-- An alias is chosen alike. -/
lemma agree_setAlias (h : R s.store t) (keyAlias : String) :
    Agree R (s.setAlias keyAlias) ((s.withStore t).setAlias keyAlias) := by
  rw [setAlias, setAlias]
  simp only [withStore]
  cases s.envelope.setAlias keyAlias with
  | error e => exact ⟨t, h, rfl⟩
  | ok envelope => exact ⟨t, h, rfl⟩

variable [Store σ] [Store τ]

/-- A value is read alike. -/
lemma agree_get (alike : Store.Alike R) (h : R s.store t) (type : PrefType) (key : String)
    (default : Option type.Val) :
    Agree R (s.get type key default) ((s.withStore t).get type key default) := by
  rw [get, get]
  cases requireKey key with
  | error e => exact ⟨t, h, rfl⟩
  | ok _ =>
    simp only [withStore, alike.readAs h]
    exact ⟨t, h, rfl⟩

/-- A value is set alike. -/
lemma agree_set (alike : Store.Alike R) (h : R s.store t) (type : PrefType) (key : String)
    (v : type.Val) (mode : SyncMode) :
    Agree R (s.set type key v mode) ((s.withStore t).set type key v mode) := by
  rw [set, set]
  cases requireKey key with
  | error e => exact ⟨t, h, rfl⟩
  | ok _ =>
    simp only [withStore]
    cases toStored s.registry type v with
    | mk result calls =>
      cases result with
      | error e => exact ⟨t, h, rfl⟩
      | ok stored =>
        obtain ⟨same, related⟩ := alike.write h key stored mode
        refine ⟨_, related, ?_⟩
        simp only [PendingWrite.finish, same]
        rfl

/-- A write is staged alike. -/
lemma agree_stage (alike : Store.Alike R) (h : R s.store t) (w : PendingWrite)
    (finish : Option SyncMode) : Agree R (s.stage w finish) ((s.withStore t).stage w finish) := by
  rw [stage, stage]
  simp only [withStore, alike.contains h]
  cases Store.contains s.store w.key with
  | error e => exact ⟨t, h, rfl⟩
  | ok visible =>
    cases finish with
    | none => exact ⟨t, h, rfl⟩
    | some mode =>
      obtain ⟨same, related⟩ := alike.write h w.key w.value mode
      refine ⟨_, related, ?_⟩
      simp only [PendingWrite.finish, same]
      rfl

variable [KeyFacility φ]

/-- A text is set sealed alike. -/
lemma agree_setSealed (alike : Store.Alike R) (h : R s.store t) (key text : String) :
    Agree R (s.setSealed key text) ((s.withStore t).setSealed key text) := by
  have encrypted : (s.withStore t).encrypt text =
      ((s.encrypt text).1, (s.encrypt text).2.withStore t) := rfl
  have related : R (s.encrypt text).2.store t := h
  rw [setSealed, setSealed, encrypted]
  cases requireKey key with
  | error e => exact ⟨t, h, rfl⟩
  | ok _ =>
    generalize s.encrypt text = outcome at related
    obtain ⟨result, s'⟩ := outcome
    cases result with
    | error stop => exact ⟨t, related, rfl⟩
    | ok sealedText =>
      exact (agree_set alike related (.primitive .string) key sealedText .apply).map _

/-- A sealed text is read alike. -/
lemma agree_getSealed (alike : Store.Alike R) (h : R s.store t) (key : String) :
    Agree R (s.getSealed key) ((s.withStore t).getSealed key) := by
  rw [getSealed, getSealed]
  obtain ⟨t', related, same⟩ := agree_get alike h (.primitive .string) key none
  rw [same]
  generalize s.get (.primitive .string) key none = outcome at related
  obtain ⟨result, s'⟩ := outcome
  cases result with
  | error e => exact ⟨t', related, rfl⟩
  | ok sealedText => exact ⟨t', related, rfl⟩

/-- Every request to a typed store is answered alike over stores that act alike. -/
theorem perform_alike (alike : Store.Alike R) (h : R s.store t) (r : Request) :
    Agree R (s.perform r) ((s.withStore t).perform r) := by
  cases r with
  | get type key default => exact (agree_get alike h type key default).reply _
  | set type key v mode => exact (agree_set alike h type key v mode).reply _
  | setAlias keyAlias => exact (agree_setAlias h keyAlias).reply _
  | setSealed key text => exact (agree_setSealed alike h key text).replyOrCrash _
  | getSealed key => exact (agree_getSealed alike h key).replyOrCrash _
  | stage w finish => exact ((agree_stage alike h w finish).map _).reply _
  | contains key =>
    refine ⟨t, h, ?_⟩
    simp only [perform, contains, withStore, alike.contains h]
    rfl
  | storeRead key =>
    refine ⟨t, h, ?_⟩
    simp only [perform, withStore, alike.read h]
    rfl
  | storeGet k key fallback =>
    refine ⟨t, h, ?_⟩
    simp only [perform, withStore, alike.get h]
    rfl
  | storeContains key =>
    refine ⟨t, h, ?_⟩
    simp only [perform, withStore, alike.contains h]
    rfl
  | addAdapter | hasAdapter | serialize | deserialize | activeAlias | isReady | encrypt | decrypt =>
    exact ⟨t, h, rfl⟩

/-- What every write keeps of a store, every request keeps. -/
lemma perform_store {P : σ → Prop}
    (kept : ∀ {s}, P s → ∀ key v mode, P (Store.write s key v mode).2) (h : P s.store)
    (r : Request) : P (s.perform r).2.store := by
  have alike : Store.Alike fun a b : σ => a = b ∧ P a := {
    read := fun ⟨same, _⟩ key => by rw [same]
    write := fun ⟨same, h⟩ key v mode => by
      subst same
      exact ⟨rfl, rfl, kept h key v mode⟩ }
  obtain ⟨_, ⟨-, h⟩, -⟩ := perform_alike alike (s := s) ⟨rfl, h⟩ r
  exact h

end TypedStore

end Preferences
