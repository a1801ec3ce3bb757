import Preferences.Proofs.Json.Accepted

/-!
# Integers as words

A word is read as an integer of a range just where it is digits behind at most one sign, and their
value is in the range; so an integer is read back from its decimal text. Main statement:
`Word.parse_eq_ok_iff`.
-/

namespace Preferences

open Json (isDigit_of_mem_natDigits le_ofDigitChars ofInt?_val val_of_ofInt?)

/-- A word spells an integer: digits, behind at most one sign. -/
inductive SpellsInteger : List Char → Int → Prop where
  | plain {ds : List Char} (some : ds ≠ []) (digits : ∀ c ∈ ds, c.isDigit = true) :
    SpellsInteger ds (Nat.ofDigitChars 10 ds 0)
  | plus {ds : List Char} (some : ds ≠ []) (digits : ∀ c ∈ ds, c.isDigit = true) :
    SpellsInteger ('+' :: ds) (Nat.ofDigitChars 10 ds 0)
  | minus {ds : List Char} (some : ds ≠ []) (digits : ∀ c ∈ ds, c.isDigit = true) :
    SpellsInteger ('-' :: ds) (-Nat.ofDigitChars 10 ds 0)

/-- The decimal text of an integer spells it. -/
lemma spellsInteger_intDigits (z : Int) : SpellsInteger (intDigits z) z := by
  have digits (n : Nat) : ∀ c ∈ natDigits n, c.isDigit = true := fun c => isDigit_of_mem_natDigits
  have value (n : Nat) : Nat.ofDigitChars 10 (natDigits n) 0 = n := Nat.ofDigitChars_ten_toDigits
  cases z with
  | ofNat n =>
    have plain : SpellsInteger (natDigits n) _ := .plain Nat.toDigits_ne_nil (digits n)
    rwa [value] at plain
  | negSucc n =>
    have minus : SpellsInteger ('-' :: natDigits (n + 1)) _ :=
      .minus Nat.toDigits_ne_nil (digits (n + 1))
    rwa [value] at minus

namespace SpellsInteger

variable {ds : List Char} {z : Int}

/-- Behind a plus sign there are digits, and they count as they are. -/
lemma plus_iff : SpellsInteger ('+' :: ds) z ↔
    ds ≠ [] ∧ (∀ c ∈ ds, c.isDigit = true) ∧ z = Nat.ofDigitChars 10 ds 0 := by
  constructor
  · intro spelled
    cases spelled with
    | plain _ digits => exact absurd (digits '+' List.mem_cons_self) (by decide)
    | plus some digits => exact ⟨some, digits, rfl⟩
  · rintro ⟨some, digits, rfl⟩
    exact .plus some digits

/-- Behind a minus sign there are digits, and they count negative. -/
lemma minus_iff : SpellsInteger ('-' :: ds) z ↔
    ds ≠ [] ∧ (∀ c ∈ ds, c.isDigit = true) ∧ z = -Nat.ofDigitChars 10 ds 0 := by
  constructor
  · intro spelled
    cases spelled with
    | plain _ digits => exact absurd (digits '-' List.mem_cons_self) (by decide)
    | minus some digits => exact ⟨some, digits, rfl⟩
  · rintro ⟨some, digits, rfl⟩
    exact .minus some digits

/-- Without a sign there are digits, and they count as they are. -/
lemma plain_iff (unsigned : ∀ cs, ds ≠ '+' :: cs ∧ ds ≠ '-' :: cs) : SpellsInteger ds z ↔
    ds ≠ [] ∧ (∀ c ∈ ds, c.isDigit = true) ∧ z = Nat.ofDigitChars 10 ds 0 := by
  constructor
  · intro spelled
    cases spelled with
    | plain some digits => exact ⟨some, digits, rfl⟩
    | plus => exact absurd rfl (unsigned _).1
    | minus => exact absurd rfl (unsigned _).2
  · rintro ⟨some, digits, rfl⟩
    exact .plain some digits

end SpellsInteger

/-- Digits are taken up to the limit, and nothing but digits. -/
lemma magnitude_eq_ok_iff {limit m n : Nat} {overflow : IntegerFault} {ds : List Char}
    (small : m ≤ limit) :
    magnitude limit overflow m ds = .ok n ↔
      (∀ c ∈ ds, c.isDigit = true) ∧ n = Nat.ofDigitChars 10 ds m ∧ n ≤ limit := by
  induction ds generalizing m with
  | nil =>
    constructor
    · intro done
      cases done
      exact ⟨nofun, rfl, small⟩
    · rintro ⟨-, rfl, -⟩
      rfl
  | cons c cs ih =>
    -- further digits never make a number smaller, so that a limit stays passed
    have grows := le_ofDigitChars cs (10 * m + digitValue c)
    rw [magnitude, List.forall_mem_cons, Nat.ofDigitChars_cons]
    cases digit : c.isDigit with
    | false => simp
    | true =>
      rw [if_neg (by decide)]
      by_cases large : limit < 10 * m + digitValue c
      · rw [if_pos large]
        constructor
        · nofun
        · rintro ⟨-, rfl, fits⟩
          exact absurd (Nat.lt_of_lt_of_le large grows) (Nat.not_lt.2 fits)
      · rw [if_neg large, ih (Nat.le_of_not_lt large)]
        exact ⟨fun ⟨rest, value⟩ => ⟨⟨rfl, rest⟩, value⟩, fun ⟨⟨_, rest⟩, value⟩ => ⟨rest, value⟩⟩

namespace Word

variable {w : Width} {cs : List Char} {n : Word w}

/-- Digits up to a limit, of which a sign makes an integer of the range. -/
lemma signed_eq_ok_iff {limit : Nat} {sign : Nat → Int}
    (fits : ∀ m, w.lo ≤ sign m ∧ sign m ≤ w.hi ↔ m ≤ limit) (overflow : IntegerFault)
    (n : Word w) (ds : List Char) :
    ((magnitude limit overflow 0 ds).bind fun m =>
      match Ranged.ofInt? (sign m) with
      | some z => .ok z
      | none => .error overflow) = .ok n ↔
      (∀ c ∈ ds, c.isDigit = true) ∧ n.val = sign (Nat.ofDigitChars 10 ds 0) := by
  constructor
  · intro done
    cases taken : magnitude limit overflow 0 ds with
    | error fault =>
      rw [taken] at done
      cases done
    | ok m =>
      rw [taken] at done
      obtain ⟨digits, rfl, -⟩ := (magnitude_eq_ok_iff (Nat.zero_le limit)).1 taken
      refine ⟨digits, ?_⟩
      cases there : (Ranged.ofInt? (sign (Nat.ofDigitChars 10 ds 0)) : Option (Word w)) with
      | none =>
        simp only [Except.bind, there] at done
        cases done
      | some z =>
        simp only [Except.bind, there] at done
        cases done
        exact val_of_ofInt? there
  · rintro ⟨digits, value⟩
    have small := (fits (Nat.ofDigitChars 10 ds 0)).1 ⟨value ▸ n.lo_le, value ▸ n.le_hi⟩
    have taken : magnitude limit overflow 0 ds = _ :=
      (magnitude_eq_ok_iff (Nat.zero_le limit)).2 ⟨digits, rfl, small⟩
    simp only [taken, Except.bind, ← value, ofInt?_val]

/-- A word is read as an integer just where it spells it. -/
lemma parse_eq_ok_iff (signed : w.lo < 0) : parse w cs = .ok n ↔ SpellsInteger cs n.val := by
  have zero : 0 ≤ w.hi := by cases w <;> decide
  have above (m : Nat) : w.lo ≤ Int.ofNat m ∧ Int.ofNat m ≤ w.hi ↔ m ≤ w.hi.toNat := by
    simp only [Int.ofNat_eq_natCast]
    omega
  have below (m : Nat) : w.lo ≤ -Int.ofNat m ∧ -Int.ofNat m ≤ w.hi ↔ m ≤ (-w.lo).toNat := by
    simp only [Int.ofNat_eq_natCast]
    omega
  have positive := signed_eq_ok_iff above .tooLarge n
  have negative := signed_eq_ok_iff below .tooSmall n
  unfold parse
  dsimp only
  split
  next => exact ⟨nofun, fun spelled => absurd rfl ((SpellsInteger.plain_iff (by simp)).1 spelled).1⟩
  next => exact ⟨nofun, fun spelled => absurd rfl (SpellsInteger.plus_iff.1 spelled).1⟩
  next => exact ⟨nofun, fun spelled => absurd rfl (SpellsInteger.minus_iff.1 spelled).1⟩
  next ds some =>
    rw [SpellsInteger.plus_iff]
    exact (positive ds).trans ⟨fun h => ⟨some, h⟩, fun h => h.2⟩
  next ds some =>
    rw [if_pos signed, SpellsInteger.minus_iff]
    exact (negative ds).trans ⟨fun h => ⟨some, h⟩, fun h => h.2⟩
  next _ some _ _ plus minus =>
    rw [SpellsInteger.plain_iff fun ds => ⟨plus ds, minus ds⟩]
    exact (positive cs).trans ⟨fun h => ⟨some, h⟩, fun h => h.2⟩

example : Word.parse .nat8 "256".toList = .error .tooLarge := by decide

/-- An integer is read back from its decimal text. -/
lemma parse_intDigits (signed : w.lo < 0) (n : Word w) : parse w (intDigits n.val) = .ok n :=
  (parse_eq_ok_iff signed).2 (spellsInteger_intDigits n.val)

end Word

end Preferences
