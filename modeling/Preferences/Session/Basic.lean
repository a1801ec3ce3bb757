import Preferences.Session.Stock
import Preferences.Typed.Request

/-!
# Sessions

Several typed stores over one disk, one key facility and, unless each brings its own, one registry.
A typed store can be closed and opened again: its envelope is then fresh, a store in memory keeps
its values and a store in a file reads the file. A request may leave writes to the background writer
of a file store, which works them off at the latest when the typed store is closed.
-/

namespace Preferences

/-- Where the values of a session are kept. -/
inductive Storage where
  | memory
  | faulty (faults : List KeyFault)
  | file (path : Path)

/-- How the typed stores of a session are opened. -/
structure Terms where
  storage : Storage := .memory
  /-- Is there one store in memory for all? -/
  shared : Bool := false
  /-- The alias that every envelope starts with. -/
  keyAlias : Option String := none
  /-- Does every typed store bring its own registry? -/
  ownRegistry : Bool := false

/-- What an open typed store has for itself. -/
structure Seat where
  envelope : Envelope := {}
  /-- Its own registry, if it has one. -/
  registry : Option Registry := none
  /-- Its store, if that is in a file. -/
  file : Option FileStore := none

/-- The state of a session. -/
structure Session where
  terms : Terms
  disk : Disk
  vault : Trapped Vault
  supply : Supply
  suite : Suite := .standard
  /-- The registry that typed stores share. -/
  registry : Registry := {}
  calls : Calls := {}
  /-- The stores in memory. -/
  shelves : List Stock := []
  /-- The typed stores, `none` where one is closed. -/
  seats : List (Option Seat) := []

namespace Session

/-- The place of a typed store's store among those in memory. -/
def shelf (s : Session) (i : Nat) : Nat := if s.terms.shared then 0 else i

/-- A store in memory as it is at the start. -/
def freshStock (terms : Terms) : Stock :=
  match terms.storage with
  | .faulty faults => .faulty { faults }
  | _ => .memory {}

/-- The envelope and the own registry, if there is one, that a typed store is opened with. Where it
brings its own registry it starts without an alias. -/
def outfit (terms : Terms) : Except Error (Envelope × Option Registry) :=
  if terms.ownRegistry then .ok ({}, some {})
  else
    match terms.keyAlias with
    | none => .ok ({}, none)
    | some keyAlias => (Envelope.setAlias {} keyAlias).map fun envelope => (envelope, none)

/-- What a typed store has for itself when it is opened. -/
def newSeat (s : Session) : Except Error Seat := do
  let file ← match s.terms.storage with
    | .file path => ((FileStore.openAt s.disk path).mapError .store).map some
    | _ => pure none
  let (envelope, registry) ← outfit s.terms
  return { envelope, registry, file }

/-- Opens a typed store. It stays closed where that fails. -/
def openAt (s : Session) (i : Nat) : Except Error Unit × Session :=
  match s.newSeat with
  | .ok seat => (.ok (), { s with seats := s.seats.set i (some seat) })
  | .error e => (.error e, { s with seats := s.seats.set i none })

/-- Does something with the file store behind a typed store, if there is one. -/
def withFile {α : Type} (s : Session) (i : Nat) (f : FileStore → Disk → α × FileStore × Disk) :
    Option α × Session :=
  match (s.seats[i]?).join with
  | none => (none, s)
  | some seat =>
    match seat.file with
    | none => (none, s)
    | some file =>
      let (a, file, disk) := f file s.disk
      (some a, { s with disk, seats := s.seats.set i (some { seat with file := some file }) })

/-- Lets the background writer of an open typed store persist the next snapshot. -/
def work (s : Session) (i : Nat) : Session :=
  (s.withFile i fun file disk => ((), file.work disk)).2

/-- Lets the background writer of an open typed store work off its queue. -/
def settle (s : Session) (i : Nat) : Session :=
  (s.withFile i fun file disk => ((), file.drain disk)).2

/-- Closes a typed store, after its background writer is done. -/
def close (s : Session) (i : Nat) : Session :=
  let s := s.settle i
  { s with seats := s.seats.set i none }

/-- Closes a typed store and opens it again. -/
def reopen (s : Session) (i : Nat) : Except Error Unit × Session := (s.close i).openAt i

/-- A typed store of the session, if it is open. -/
def typed? (s : Session) (i : Nat) : Option (TypedStore Stock (Trapped Vault)) := do
  let seat ← (s.seats[i]?).join
  let store ← match seat.file with
    | some file => some (.file ⟨file, s.disk⟩)
    | none => s.shelves[s.shelf i]?
  return {
    store
    facility := s.vault
    envelope := seat.envelope
    registry := seat.registry.getD s.registry
    calls := s.calls
    supply := s.supply
    suite := s.suite }

/-- The session after a typed store has changed. -/
def keep (s : Session) (i : Nat) (t : TypedStore Stock (Trapped Vault)) : Session :=
  let own := ((s.seats[i]?).join.bind Seat.registry).isSome
  let seat : Seat := { envelope := t.envelope, registry := if own then some t.registry else none }
  -- what the typed stores share goes back to the session, and the rest to the seat
  let s := { s with
    vault := t.facility
    calls := t.calls
    supply := t.supply
    registry := if own then s.registry else t.registry }
  match t.store with
  | .file mounted =>
    { s with
      disk := mounted.disk
      seats := s.seats.set i (some { seat with file := some mounted.store }) }
  | stock =>
    { s with shelves := s.shelves.set (s.shelf i) stock, seats := s.seats.set i (some seat) }

/-- Does something with a typed store, unless it is closed, and leaves writes to its background
writer. -/
def attend {α : Type} (s : Session) (i : Nat)
    (f : TypedStore Stock (Trapped Vault) → α × TypedStore Stock (Trapped Vault)) :
    Option α × Session :=
  match s.typed? i with
  | none => (none, s)
  | some t =>
    let (a, t) := f t
    (some a, s.keep i t)

/-- Does something with a typed store and lets its background writer work. -/
def withTyped {α : Type} (s : Session) (i : Nat)
    (f : TypedStore Stock (Trapped Vault) → α × TypedStore Stock (Trapped Vault)) :
    Option α × Session :=
  let (a, s) := s.attend i f
  (a, s.settle i)

/-- Answers a request to a typed store, unless it is closed, and leaves writes to its background
writer. -/
def request (s : Session) (i : Nat) (r : Request) :
    Option (Except (Halt Error) Reply) × Session :=
  s.attend i fun t => t.perform r

/-- Answers a request to a typed store and lets its background writer work. -/
def perform (s : Session) (i : Nat) (r : Request) :
    Option (Except (Halt Error) Reply) × Session :=
  let (answer, s) := s.request i r
  (answer, s.settle i)

/-- Makes a call to the key facility, past any trap. -/
def callVault {α : Type} (s : Session) (call : KeyCall Vault α) :
    Except (Halt KeyError) α × Session :=
  let (result, base) := call s.vault.base
  (result, { s with vault := { s.vault with base } })

/-- Sets the trap: the next envelope that asks for a keypair crashes. -/
def arm (s : Session) : Session := { s with vault := { s.vault with armed := true } }

/-- Opens all typed stores in turn. -/
def openAll (s : Session) : Nat → List (Except Error Unit) × Session
  | 0 => ([], s)
  | n + 1 =>
    let (results, s) := s.openAll n
    let (result, s) := s.openAt n
    (results ++ [result], s)

/-- A session with a number of typed stores, and how opening each of them went. -/
def start (terms : Terms) (disk : Disk) (vault : Vault) (supply : Supply) (count : Nat)
    (suite : Suite := .standard) : List (Except Error Unit) × Session :=
  let s : Session := {
    terms, disk, supply, suite
    vault := ⟨vault, false⟩
    shelves := List.replicate count (freshStock terms)
    seats := List.replicate count none }
  s.openAll count

end Session

end Preferences
