/-!
# Attempts

An attempt works on a state and may end early. The state that it leaves counts either way.
-/

namespace Preferences

/-- How an operation ends without a result. -/
inductive Halt (ε : Type) where
  /-- It reports an error. -/
  | error (e : ε)
  /-- It is cut short in the middle and reports nothing. -/
  | crash

/-- The same end with another error. -/
def Halt.map {ε δ : Type} (f : ε → δ) : Halt ε → Halt δ
  | error e => error (f e)
  | crash => crash

/-- A step from a state to a result, or an early end, and a state. -/
def Attempt (σ ε α : Type) : Type := σ → Except ε α × σ

namespace Attempt

variable {σ ε α β : Type}

/-- Gives a result and leaves the state alone. -/
def pure (a : α) : Attempt σ ε α := fun s => (.ok a, s)

/-- Goes on with the result of the first step, if it has one. -/
def bind (x : Attempt σ ε α) (f : α → Attempt σ ε β) : Attempt σ ε β := fun s =>
  match x s with
  | (.ok a, s) => f a s
  | (.error e, s) => (.error e, s)

instance : Monad (Attempt σ ε) where
  pure := pure
  bind := bind

/-- Ends early. -/
def halt (e : ε) : Attempt σ ε α := fun s => (.error e, s)

/-- Looks at the state and leaves it alone. -/
def look (f : σ → Except ε α) : Attempt σ ε α := fun s => (f s, s)

end Attempt

end Preferences
