import Preferences.Typed.Basic

/-!
# Requests

Everything that can be asked of a typed store, as data: a run of a typed store is a list of
requests, and `TypedStore.perform` answers one.
-/

namespace Preferences

/-- What can be asked of a typed store. -/
inductive Request where
  | get (t : PrefType) (key : String) (default : Option t.Val)
  | set (t : PrefType) (key : String) (v : t.Val) (mode : SyncMode)
  | contains (key : String)
  | addAdapter (t : PrefType) (a : Adapter t.Val)
  | hasAdapter (t : PrefType)
  | serialize (t : PrefType) (v : t.Val)
  | deserialize (t : PrefType) (input : String) (default : t.Val)
  | setAlias (keyAlias : String)
  | activeAlias
  | isReady
  | encrypt (text : String)
  | decrypt (sealedText : String)
  | setSealed (key text : String)
  | getSealed (key : String)
  /-- Asks the store itself, without any check of the key. -/
  | storeRead (key : String)
  | storeGet (k : Primitive) (key : String) (fallback : k.Carrier)
  | storeContains (key : String)
  /-- Stages a write in the store itself, and finishes it unless it is dropped. -/
  | stage (w : PendingWrite) (finish : Option SyncMode)

/-- What a typed store answers. -/
inductive Reply where
  | done
  | value (t : PrefType) (v : t.Val)
  | flag (b : Bool)
  | text (s : String)
  | activeAlias (keyAlias : Option String)
  | stored (v : Option Value)
  /-- A staged write, and whether its key held a value before it was finished. -/
  | staged (w : PendingWrite) (visible : Bool)

namespace TypedStore

variable {σ φ : Type} [Store σ] [KeyFacility φ]

/-- Stages a write in the store itself. -/
def stage (s : TypedStore σ φ) (w : PendingWrite) (finish : Option SyncMode) :
    Except StoreError Bool × TypedStore σ φ :=
  match Store.contains s.store w.key with
  | .error e => (.error e, s)
  | .ok visible =>
    match finish with
    | none => (.ok visible, s)
    | some mode =>
      let (result, store) := w.finish mode s.store
      (result.map fun _ => visible, { s with store })

/-- An answer to a request that cannot crash. -/
def reply {α : Type} (f : α → Reply) (x : Except Error α × TypedStore σ φ) :
    Except (Halt Error) Reply × TypedStore σ φ :=
  ((x.1.map f).mapError .error, x.2)

/-- An answer to a request that may crash. -/
def replyOrCrash {α : Type} (f : α → Reply) (x : Except (Halt Error) α × TypedStore σ φ) :
    Except (Halt Error) Reply × TypedStore σ φ :=
  (x.1.map f, x.2)

/-- Answers a request. -/
def perform (s : TypedStore σ φ) : Request → Except (Halt Error) Reply × TypedStore σ φ
  | .get t key default => reply (.value t) (s.get t key default)
  | .set t key v mode => reply (fun _ => .done) (s.set t key v mode)
  | .contains key => reply .flag (s.contains key, s)
  | .addAdapter t a => (.ok .done, s.addAdapter t a)
  | .hasAdapter t => (.ok (.flag (s.registry.has t)), s)
  | .serialize t v => reply .text (s.serialize t v)
  | .deserialize t input default => reply (.value t) (s.deserialize t input default)
  | .setAlias keyAlias => reply (fun _ => .done) (s.setAlias keyAlias)
  | .activeAlias => (.ok (.activeAlias s.envelope.activeAlias), s)
  | .isReady => (.ok (.flag s.envelope.isReady), s)
  | .encrypt text => replyOrCrash .text (s.encrypt text)
  | .decrypt sealedText => replyOrCrash .text (s.decrypt sealedText)
  | .setSealed key text => replyOrCrash (fun _ => .done) (s.setSealed key text)
  | .getSealed key => replyOrCrash .text (s.getSealed key)
  | .storeRead key => reply .stored ((Store.read s.store key).mapError .store, s)
  | .storeGet k key fallback =>
    reply (.value (.primitive k)) ((Store.get s.store k key fallback).mapError .store, s)
  | .storeContains key => reply .flag ((Store.contains s.store key).mapError .store, s)
  | .stage w finish =>
    let (result, s) := s.stage w finish
    reply (.staged w) (result.mapError .store, s)

/-- Answers requests in turn, also after failures. -/
def performAll (s : TypedStore σ φ) :
    List Request → List (Except (Halt Error) Reply) × TypedStore σ φ
  | [] => ([], s)
  | r :: rs =>
    let (answer, s) := s.perform r
    let (answers, s) := s.performAll rs
    (answer :: answers, s)

end TypedStore

end Preferences
