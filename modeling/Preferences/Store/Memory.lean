import Preferences.Store.Basic

/-!
# Stores in memory

A map, for which both ways of writing are the same, and a map whose reads and writes are made to lie
for some keys.
-/

namespace Preferences

/-- A store in memory. -/
structure MemoryStore where
  values : Table String Value := ∅

namespace MemoryStore

/-- The number of keys that hold a value. -/
def size (s : MemoryStore) : Nat := s.values.size

/-- Puts a value under a key. -/
def insert (s : MemoryStore) (key : String) (v : Value) : MemoryStore := ⟨s.values.insert key v⟩

end MemoryStore

instance : Store MemoryStore where
  read s key := .ok (s.values.get? key)
  write s key v _ := (.ok (), s.insert key v)

/-- What a read of a key is made to give. -/
inductive ReadLie where
  | failure (reason : String)
  | missing
  | value (v : Value)

/-- What is wrong with a key. -/
structure KeyFault where
  key : String
  /-- Why every write fails. -/
  write : Option String
  /-- What every read gives. -/
  read : Option ReadLie

/-- A store in memory with faults. -/
structure FaultyStore where
  faults : List KeyFault
  base : MemoryStore := {}

namespace FaultyStore

/-- The lie told about a key. -/
def lie? (s : FaultyStore) (key : String) : Option ReadLie :=
  s.faults.findSome? fun f => if f.key = key then f.read else none

/-- Why writes of a key fail. -/
def refusal? (s : FaultyStore) (key : String) : Option String :=
  s.faults.findSome? fun f => if f.key = key then f.write else none

end FaultyStore

instance : Store FaultyStore where
  read s key :=
    match s.lie? key with
    | some (.failure reason) => .error (.storage (.reported reason))
    | some .missing => .ok none
    | some (.value v) => .ok (some v)
    | none => .ok (s.base.values.get? key)
  write s key v _ :=
    match s.refusal? key with
    | some reason => (.error (.storage (.reported reason)), s)
    | none => (.ok (), { s with base := s.base.insert key v })

end Preferences
