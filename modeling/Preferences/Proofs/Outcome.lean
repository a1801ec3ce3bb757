import Mathlib.Tactic.Lemma
import Preferences.Data.Attempt

/-!
# Outcomes of computations in parts

A computation in parts succeeds where its parts do, one after another, and other words for its
errors change no success. Main statements: `bind_eq_ok` and `Attempt.bind_eq_ok`.
-/

namespace Preferences

variable {ε δ α β γ σ : Type}

section Except

variable {x : Except ε α}

/-- A computation in two parts succeeds where both parts do. -/
lemma bind_eq_ok {f : α → Except ε β} {b : β} :
    x >>= f = .ok b ↔ ∃ a, x = .ok a ∧ f a = .ok b := by
  cases x <;> simp [bind, Except.bind]

/-- A computation goes on with the result of its first part. -/
lemma ok_bind (a : α) (f : α → Except ε β) : Except.ok a >>= f = f a := rfl

/-- A first part that gives one result, under a condition. -/
lemma bind_eq_ok_of {f : α → Except ε β} {p : Prop} {a : α} {b : β}
    (h : ∀ out, x = .ok out ↔ p ∧ out = a) : x >>= f = .ok b ↔ p ∧ f a = .ok b := by
  rw [bind_eq_ok]
  constructor
  · rintro ⟨out, found, next⟩
    obtain ⟨holds, rfl⟩ := (h out).1 found
    exact ⟨holds, next⟩
  · rintro ⟨holds, next⟩
    exact ⟨a, (h a).2 ⟨holds, rfl⟩, next⟩

/-- A success under a change of failures is one without it. -/
lemma ok_of_mapError {f : ε → δ} {a : α} (h : x.mapError f = .ok a) : x = .ok a := by
  cases x with
  | error e => cases h
  | ok b => exact congrArg Except.ok (Except.ok.inj h)

/-- Failures may be changed without a change to successes. -/
lemma mapError_eq_ok_iff {f : ε → δ} {a : α} : x.mapError f = .ok a ↔ x = .ok a :=
  ⟨ok_of_mapError, fun h => by rw [h]; rfl⟩

/-- A changed failure comes of a failure. -/
lemma mapError_eq_error {f : ε → δ} {e : δ} (h : x.mapError f = .error e) :
    ∃ d, x = .error d ∧ e = f d := by
  cases x with
  | error d =>
    cases h
    exact ⟨d, rfl, rfl⟩
  | ok a => cases h

end Except

namespace Attempt

variable {x : Attempt σ ε α} {f : α → Attempt σ ε β} {s s' : σ} {b : β}

/-- An attempt in two parts succeeds where both parts do. -/
lemma bind_eq_ok :
    (x >>= f) s = (.ok b, s') ↔ ∃ a t, x s = (.ok a, t) ∧ f a t = (.ok b, s') := by
  show Attempt.bind x f s = _ ↔ _
  rw [Attempt.bind]
  rcases x s with ⟨e | a, t⟩
  · simp
  · constructor
    · exact fun done => ⟨a, t, rfl, done⟩
    · rintro ⟨a, t, same, done⟩
      cases same
      exact done

/-- An attempt in two parts succeeds where the first part does and the second does after it. -/
lemma bind_fst_eq_ok :
    ((x >>= f) s).1 = .ok b ↔ ∃ a, (x s).1 = .ok a ∧ (f a (x s).2).1 = .ok b := by
  show (Attempt.bind x f s).1 = _ ↔ _
  rw [Attempt.bind]
  rcases x s with ⟨e | a, t⟩ <;> simp

/-- Attempts in a row may be grouped either way. -/
lemma bind_bind (x : Attempt σ ε α) (f : α → Attempt σ ε β) (g : β → Attempt σ ε γ) :
    (x >>= f) >>= g = x >>= fun a => f a >>= g := by
  funext s
  show Attempt.bind (Attempt.bind x f) g s = Attempt.bind x (fun a => Attempt.bind (f a) g) s
  simp only [Attempt.bind]
  rcases x s with ⟨e | a, t⟩ <;> rfl

end Attempt

end Preferences
