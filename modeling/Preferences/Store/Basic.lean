import Preferences.Store.Error

/-!
# Preference stores

A store reads and writes values under keys. Typed reads and staged writes are the same for every
store and are defined on top of the two.
-/

namespace Preferences

/-- How a write is handed to a store. -/
inductive SyncMode where
  /-- Visible at once and durable in time. -/
  | apply
  /-- Durable on return. -/
  | commit
  deriving DecidableEq

/-- A kind of store with states `σ`. A write gives the state it leaves also where it fails. -/
class Store (σ : Type) where
  read : σ → String → Except StoreError (Option Value)
  write : σ → String → Value → SyncMode → Except StoreError Unit × σ

namespace Store

variable {σ : Type} [Store σ]

/-- Does the key hold a value? -/
def contains (s : σ) (key : String) : Except StoreError Bool :=
  (read s key).map Option.isSome

/-- The payload under a key, of the kind asked for, or the fallback where there is none. -/
def get (s : σ) (k : Primitive) (key : String) (fallback : k.Carrier) :
    Except StoreError k.Carrier := do
  match ← read s key with
  | none => return fallback
  | some v =>
    match v.carrier? k with
    | some a => return a
    | none => .error (.typeMismatch key k v.kind)

end Store

/-- A write that is not visible before it is finished. -/
structure PendingWrite where
  key : String
  value : Value

namespace PendingWrite

/-- Hands the write over. -/
def finish {σ : Type} [Store σ] (w : PendingWrite) (mode : SyncMode) (s : σ) :
    Except StoreError Unit × σ :=
  Store.write s w.key w.value mode

/-- The write as debugging output shows it, without its payload. -/
def debug (w : PendingWrite) : String :=
  "PendingWrite \x7b key: " ++ quoted w.key ++ ", kind: " ++ quoted w.value.kind.label ++ " \x7d"

end PendingWrite

end Preferences
