import Preferences.Session.Basic

/-!
# Runs of sessions

What can happen in a session, as data: a run of a session is a list of deeds, and `Session.act` does
one. Keypairs come from envelopes only.
-/

namespace Preferences

/-- What befalls a key facility from outside. -/
inductive Disturbance where
  /-- A facility in memory is switched off or on. -/
  | unavailable (off : Bool)
  /-- A stage of calls to a credential store begins to fail, or works again. -/
  | fault (stage : CredentialStage) (fault : Option CredentialFault)

/-- A facility after a disturbance, if it is one of its sort. -/
def Vault.disturb : Vault → Disturbance → Vault
  | .memory f, .unavailable off => .memory { f with unavailable := off }
  | .keyring k, .fault stage fault =>
    .keyring { k with credentials := k.credentials.setFault stage fault }
  | v, _ => v

/-- What can happen in a session. -/
inductive Deed where
  /-- A request to a typed store. -/
  | request (i : Nat) (r : Request)
  /-- The background writer of a typed store persists the next snapshot. -/
  | work (i : Nat)
  | close (i : Nat)
  | reopen (i : Nat)
  | disturb (d : Disturbance)

/-- What comes of a deed. -/
inductive Answer where
  /-- The answer to a request, unless the typed store is closed. -/
  | reply (r : Option (Except (Halt Error) Reply))
  | opened (r : Except Error Unit)
  | done

namespace Session

/-- Does one deed. -/
def act (s : Session) : Deed → Answer × Session
  | .request i r =>
    let (answer, s) := s.request i r
    (.reply answer, s)
  | .work i => (.done, s.work i)
  | .close i => (.done, s.close i)
  | .reopen i =>
    let (result, s) := s.reopen i
    (.opened result, s)
  | .disturb d => (.done, { s with vault := { s.vault with base := s.vault.base.disturb d } })

/-- Does deeds in turn. -/
def actAll (s : Session) : List Deed → List Answer × Session
  | [] => ([], s)
  | d :: ds =>
    let (answer, s) := s.act d
    let (answers, s) := s.actAll ds
    (answer :: answers, s)

end Session

end Preferences
