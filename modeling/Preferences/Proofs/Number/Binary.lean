import Mathlib
import Preferences.Number.Binary

/-!
# Binary64 arithmetic in rational numbers

What an operation on binary64 numbers gives lies on the same side of every representable number as
the exact result does, so that bounds on exact results are bounds on results. Main statement:
`faithful_roundWithAccuracy`.
-/

namespace Preferences.Binary

open Float.Model Float.Model.UnpackedFloat

/-! ## Mantissas that are cut off -/

/-- The value is the mantissa, or lies between it and the next where one of the bits is set. -/
inductive Represents (em : ExtendedMantissa) (x : ℚ) : Prop where
  | exact : em.roundBit = false → em.stickyBit = false → x = em.mantissa → Represents em x
  | inexact : (em.roundBit || em.stickyBit) = true → (em.mantissa : ℚ) < x → x < em.mantissa + 1 →
    Represents em x

namespace Represents

variable {em : ExtendedMantissa} {x : ℚ} {n : ℕ}

/-- A value is no less than the mantissa that represents it. -/
lemma mantissa_le (h : Represents em x) : (em.mantissa : ℚ) ≤ x := by
  cases h with
  | exact _ _ same => exact same.ge
  | inexact _ below _ => exact below.le

/-- A value is less than the mantissa after the one that represents it. -/
lemma lt_succ (h : Represents em x) : x < em.mantissa + 1 := by
  cases h with
  | exact _ _ same => linarith
  | inexact _ _ above => exact above

/-- Rounding does not pass a whole number from below. -/
lemma rounded_le (h : Represents em x) (le : x ≤ n) : em.roundedMantissa ≤ n := by
  obtain ⟨m, round, sticky⟩ := em
  cases h with
  | exact none none' same =>
    cases none
    cases none'
    rw [same] at le
    exact Nat.cast_le.1 le
  | inexact _ below _ =>
    have lt : m < n := Nat.cast_lt.1 (lt_of_lt_of_le below le)
    have up : (ExtendedMantissa.mk m round sticky).roundedMantissa ≤ m + 1 := by
      cases round <;> cases sticky <;> simp only [ExtendedMantissa.roundedMantissa,
        ExtendedMantissa.accuracy, Accuracy.roundToNearestEven] <;> omega
    omega

/-- Rounding does not pass a whole number from above. -/
lemma le_rounded (h : Represents em x) (le : (n : ℚ) ≤ x) : n ≤ em.roundedMantissa := by
  have lt : n < em.mantissa + 1 := by
    have cast : (n : ℚ) < ((em.mantissa + 1 : ℕ) : ℚ) := by
      push_cast
      exact lt_of_le_of_lt le h.lt_succ
    exact Nat.cast_lt.1 cast
  have down : em.mantissa ≤ em.roundedMantissa := by
    obtain ⟨m, round, sticky⟩ := em
    cases round <;> cases sticky <;> simp only [ExtendedMantissa.roundedMantissa,
      ExtendedMantissa.accuracy, Accuracy.roundToNearestEven] <;> omega
  omega

/-- A shift by one bit halves the value, and the two extra bits still tell what was dropped. -/
lemma shiftRightOne (h : Represents em x) : Represents em.shiftRightOne (x / 2) := by
  have halves : ((em.mantissa / 2 : ℕ) : ℚ) * 2 + ((em.mantissa % 2 : ℕ) : ℚ) = em.mantissa := by
    exact_mod_cast Nat.div_add_mod' em.mantissa 2
  have odd_or_even : em.mantissa % 2 = 0 ∨ em.mantissa % 2 = 1 := by omega
  cases h with
  | exact none none' same =>
    rcases odd_or_even with even | odd
    · rw [even, Nat.cast_zero] at halves
      refine .exact ?_ ?_ ?_
      · simp [ExtendedMantissa.shiftRightOne, even]
      · simp [ExtendedMantissa.shiftRightOne, none, none']
      · simp only [ExtendedMantissa.shiftRightOne]
        linarith
    · rw [odd, Nat.cast_one] at halves
      refine .inexact ?_ ?_ ?_
      · simp [ExtendedMantissa.shiftRightOne, odd]
      all_goals
        simp only [ExtendedMantissa.shiftRightOne]
        linarith
  | inexact some below above =>
    have bit : (0 : ℚ) ≤ ((em.mantissa % 2 : ℕ) : ℚ) ∧ ((em.mantissa % 2 : ℕ) : ℚ) ≤ 1 := by
      rcases odd_or_even with digit | digit <;> rw [digit] <;> norm_num
    refine .inexact ?_ ?_ ?_
    · simp [ExtendedMantissa.shiftRightOne, some]
    all_goals
      simp only [ExtendedMantissa.shiftRightOne]
      linarith [bit.1, bit.2]

/-- A shift by some bits divides the value by a power of two. -/
lemma shiftRight (h : Represents em x) (k : ℕ) : Represents (em >>> k) (x / 2 ^ k) := by
  show Represents (k.repeat ExtendedMantissa.shiftRightOne em) (x / 2 ^ k)
  induction k with
  | zero => simpa [Nat.repeat] using h
  | succ k ih =>
    rw [Nat.repeat, pow_succ, ← div_div]
    exact ih.shiftRightOne

end Represents

/-- A mantissa without extra bits represents itself. -/
lemma represents_exact (m : ℕ) :
    Represents (ExtendedMantissa.ofMantissaAndAccuracy m .exact) m :=
  .exact rfl rfl rfl

/-- A quotient, with what is known of its remainder. -/
lemma represents_quotient (m : ℕ) {n : ℕ} (pos : 0 < n) :
    Represents (ExtendedMantissa.ofMantissaAndAccuracy (m / n) (accuracyOfFraction (m % n) n))
      ((m : ℚ) / n) := by
  have pos' : (0 : ℚ) < n := Nat.cast_pos.2 pos
  have parts : (m : ℚ) = n * ((m / n : ℕ) : ℚ) + ((m % n : ℕ) : ℚ) := by
    exact_mod_cast (Nat.div_add_mod m n).symm
  by_cases none : m % n = 0
  · rw [accuracyOfFraction, if_pos none]
    rw [none, Nat.cast_zero, add_zero] at parts
    refine .exact rfl rfl ?_
    rw [parts]
    exact mul_div_cancel_left₀ _ pos'.ne'
  · rw [accuracyOfFraction, if_neg none]
    have some : (0 : ℚ) < ((m % n : ℕ) : ℚ) := Nat.cast_pos.2 (Nat.pos_of_ne_zero none)
    have small : ((m % n : ℕ) : ℚ) < n := Nat.cast_lt.2 (Nat.mod_lt m pos)
    have bounds : ((m / n : ℕ) : ℚ) < m / n ∧ (m : ℚ) / n < ((m / n : ℕ) : ℚ) + 1 := by
      rw [lt_div_iff₀ pos', div_lt_iff₀ pos']
      constructor <;> nlinarith
    cases compare (2 * (m % n)) n <;> exact .inexact rfl bounds.1 bounds.2

/-! ## Rounding -/

/-- The magnitude of a finite number. -/
def magnitude : UnpackedFloat → ℚ
  | .finite _ m e _ => m * 2 ^ e
  | .zero _ | .infinity _ | .notANumber => 0

/-- A finite number as it is unpacked, but for its greatest exponent. -/
def Canonical : UnpackedFloat → Prop
  | .zero _ => True
  | .finite _ m e _ => m < 2 ^ 53 ∧ -1074 ≤ e ∧ (2 ^ 52 ≤ m ∨ e = -1074)
  | .infinity _ | .notANumber => False

/-- The magnitudes of binary64 numbers, if exponents had no upper end. -/
def Representable (y : ℚ) : Prop := ∃ (a : ℕ) (s : ℤ), a ≤ 2 ^ 53 ∧ -1074 ≤ s ∧ y = a * 2 ^ s

/-- The number is what the value is rounded to, down or up. -/
structure Faithful (x : ℚ) (u : UnpackedFloat) : Prop where
  canonical : Canonical u
  le : ∀ {y}, Representable y → x ≤ y → magnitude u ≤ y
  ge : ∀ {y}, Representable y → y ≤ x → y ≤ magnitude u

/-- Zero has no magnitude. -/
@[simp]
lemma magnitude_zero (s : Sign) : magnitude (.zero s) = 0 := rfl

/-- No magnitude is negative. -/
lemma magnitude_nonneg (u : UnpackedFloat) : 0 ≤ magnitude u := by
  cases u with
  | finite => rw [magnitude]; positivity
  | zero | infinity | notANumber => exact le_rfl

/-- Zero is what zero is rounded to. -/
lemma faithful_zero (s : Sign) : Faithful 0 (.zero s) where
  canonical := trivial
  le _ le := le
  ge _ le := le

/-- The exponent to which a mantissa is cut off. -/
def unit (m : ℕ) (e : ℤ) : ℤ := max (m.log2 + e - 52) (-1074)

section Rounding

variable {m : ℕ} {e : ℤ} {acc : Accuracy}

/-- There are bits enough for rounding to drop some of them, unless the number is subnormal. -/
def Fine (m : ℕ) (e : ℤ) : Prop := 52 ≤ m.log2 ∨ e ≤ -1074

/-- No bits are added where there are enough of them. -/
lemma Fine.le_unit (fine : Fine m e) : e ≤ unit m e := by
  rw [Fine] at fine
  rw [unit]
  omega

/-- The exponent that rounding aims at is the one to which a mantissa is cut off. -/
lemma targetExponent_eq (m : ℕ) (e : ℤ) :
    Format.binary64.targetExponent (totalExponent m e) = unit m e := by
  rw [Format.targetExponent, totalExponent, unit, Format.mantissaBits, Format.minExponent,
    Format.mantissaBits]
  norm_num
  omega

/-- To shift to that exponent drops the bits below it. -/
lemma shiftToTargetExponent_eq (fine : Fine m e) :
    shiftToTargetExponent Format.binary64 m e acc =
      (ExtendedMantissa.ofMantissaAndAccuracy m acc >>> (unit m e - e).toNat, unit m e) := by
  have le := fine.le_unit
  rw [shiftToTargetExponent, targetExponent_eq, shiftToExponent]
  refine Prod.ext rfl ?_
  dsimp only
  omega

/-- A mantissa that is short enough stays as it is. -/
lemma shiftToTargetExponent_short (small : m < 2 ^ 53) (least : -1074 ≤ e) :
    shiftToTargetExponent Format.binary64 m e .exact = (⟨m, false, false⟩, e) := by
  have log : m.log2 < 53 := by
    by_cases zero : m = 0
    · rw [zero]
      decide
    · exact (Nat.log2_lt zero).2 small
  have no_shift : (unit m e - e).toNat = 0 := by
    rw [unit]
    omega
  rw [shiftToTargetExponent, targetExponent_eq, shiftToExponent, no_shift]
  simp [ExtendedMantissa.ofMantissaAndAccuracy, HShiftRight.hShiftRight, Nat.repeat]

/-- A mantissa that was rounded up to one bit more is halved. -/
lemma shiftToTargetExponent_carry (least : -1074 ≤ e) :
    shiftToTargetExponent Format.binary64 (2 ^ 53) e .exact = (⟨2 ^ 52, false, false⟩, e + 1) := by
  have one : (unit (2 ^ 53) e - e).toNat = 1 := by
    rw [unit, Nat.log2_two_pow]
    omega
  rw [shiftToTargetExponent, targetExponent_eq, shiftToExponent, one]
  rfl

/-- The mantissa that comes of cutting off and rounding. -/
def cut (m : ℕ) (e : ℤ) (acc : Accuracy) : ℕ :=
  (ExtendedMantissa.ofMantissaAndAccuracy m acc >>> (unit m e - e).toNat).roundedMantissa

/-- Rounding gives the mantissa that is left, but for one that has grown by a bit. -/
lemma roundWithAccuracy_eq (fine : Fine m e) (s : Sign) (le : cut m e acc ≤ 2 ^ 53) :
    roundWithAccuracy Format.binary64 s m e acc =
      if h : cut m e acc = 0 then .zero s
      else if cut m e acc < 2 ^ 53 then .finite s (cut m e acc) (unit m e) (Nat.pos_of_ne_zero h)
      else .finite s (2 ^ 52) (unit m e + 1) (by decide) := by
  have least : -1074 ≤ unit m e := le_max_right _ _
  rw [roundWithAccuracy, shiftToTargetExponent_eq fine]
  dsimp only
  rw [← cut]
  rcases Nat.lt_or_eq_of_le le with short | carry
  · rw [shiftToTargetExponent_short short least]
    simp only [if_pos short]
  · rw [carry, shiftToTargetExponent_carry least]
    rfl

/-- What is rounded has the magnitude of the mantissa that was cut off. -/
lemma magnitude_roundWithAccuracy (fine : Fine m e) (s : Sign) (le : cut m e acc ≤ 2 ^ 53) :
    magnitude (roundWithAccuracy Format.binary64 s m e acc) = cut m e acc * 2 ^ unit m e := by
  rw [roundWithAccuracy_eq fine s le]
  split
  next zero => rw [zero, magnitude, Nat.cast_zero, zero_mul]
  next =>
    split
    next => rfl
    next long =>
      have carry : cut m e acc = 2 ^ 53 := by omega
      rw [carry, magnitude, zpow_add_one₀ two_ne_zero]
      push_cast
      ring

/-- A rounded number is as numbers are unpacked. -/
lemma canonical_roundWithAccuracy (fine : Fine m e) (s : Sign) (le : cut m e acc ≤ 2 ^ 53)
    (normal : unit m e ≠ -1074 → 2 ^ 52 ≤ cut m e acc) :
    Canonical (roundWithAccuracy Format.binary64 s m e acc) := by
  have least : -1074 ≤ unit m e := le_max_right _ _
  rw [roundWithAccuracy_eq fine s le]
  split
  next => trivial
  next =>
    split
    next short => exact ⟨short, least, (em (unit m e = -1074)).symm.imp_left normal⟩
    next => exact ⟨by norm_num, by omega, .inl le_rfl⟩

/-- The mantissa is cut off between the whole numbers around the value in units, and has as many
bits as the format unless the number is subnormal. -/
lemma cut_spec {x : ℚ} (fine : Fine m e)
    (h : Represents (ExtendedMantissa.ofMantissaAndAccuracy m acc) x) :
    ∃ y : ℚ, x * 2 ^ e = y * 2 ^ unit m e ∧ (∀ n : ℕ, y ≤ n → cut m e acc ≤ n) ∧
      (∀ n : ℕ, n ≤ y → n ≤ cut m e acc) ∧ y ≤ (2 ^ 53 : ℕ) ∧
      (unit m e ≠ -1074 → (2 ^ 52 : ℕ) ≤ y) := by
  have mantissa : (ExtendedMantissa.ofMantissaAndAccuracy m acc).mantissa = m := by
    rcases acc with _ | order
    · rfl
    · cases order <;> rfl
  have floor : (m : ℚ) ≤ x := mantissa ▸ h.mantissa_le
  have ceiling : x < m + 1 := mantissa ▸ h.lt_succ
  -- the `k` bits that are cut off lie between the exponent and the unit
  obtain ⟨k, amount⟩ : ∃ k : ℕ, (unit m e - e).toNat = k := ⟨_, rfl⟩
  have shift : unit m e = e + k := by
    have := fine.le_unit
    omega
  have represents := h.shiftRight k
  have power : (0 : ℚ) < 2 ^ k := by positivity
  refine ⟨x / 2 ^ k, ?_, ?_, ?_, ?_, ?_⟩
  · rw [shift, zpow_add₀ two_ne_zero, zpow_natCast]
    field_simp
  · intro n le
    rw [cut, amount]
    exact represents.rounded_le le
  · intro n le
    rw [cut, amount]
    exact represents.le_rounded le
  · have log : m.log2 + 1 ≤ 53 + k := by
      rw [unit] at shift
      omega
    have below : m + 1 ≤ 2 ^ 53 * 2 ^ k := by
      rw [← pow_add]
      exact Nat.lt_log2_self.trans_le (Nat.pow_le_pow_right (by decide) log)
    have below' : (m : ℚ) + 1 ≤ (2 ^ 53 : ℕ) * 2 ^ k := by exact_mod_cast below
    rw [div_le_iff₀ power]
    linarith
  · intro normal
    have log : m.log2 = 52 + k := by
      rw [unit] at shift normal
      omega
    have above : 2 ^ 52 * 2 ^ k ≤ m := by
      rw [← pow_add, ← log]
      refine Nat.log2_self_le ?_
      rintro rfl
      rw [Nat.log2_zero] at log
      omega
    have above' : ((2 ^ 52 : ℕ) : ℚ) * 2 ^ k ≤ m := by exact_mod_cast above
    rw [le_div_iff₀ power]
    linarith

/-- A representable number is a multiple of a unit, or at most the least one that is normal with
it. -/
lemma Representable.on_grid {y : ℚ} (h : Representable y) (t : ℤ) :
    (∃ n : ℕ, y = n * 2 ^ t) ∨ -1074 < t ∧ y ≤ (2 ^ 52 : ℕ) * 2 ^ t := by
  obtain ⟨a, s, small, least, rfl⟩ := h
  rcases le_or_gt t s with le | lt
  · obtain ⟨d, rfl⟩ := Int.le.dest le
    refine .inl ⟨a * 2 ^ d, ?_⟩
    rw [zpow_add₀ two_ne_zero, zpow_natCast]
    push_cast
    ring
  · refine .inr ⟨by omega, ?_⟩
    have small' : (a : ℚ) ≤ 2 ^ 53 := by exact_mod_cast small
    have next : (2 : ℚ) ^ (s + 1) ≤ 2 ^ t := zpow_le_zpow_right₀ one_le_two (by omega)
    calc (a * 2 ^ s : ℚ) ≤ 2 ^ 53 * 2 ^ s := by gcongr
      _ = (2 ^ 52 : ℕ) * 2 ^ (s + 1) := by
        rw [zpow_add_one₀ two_ne_zero]
        push_cast
        ring
      _ ≤ (2 ^ 52 : ℕ) * 2 ^ t := by gcongr

/-- Rounding an exact value that a mantissa with bits enough stands for. -/
theorem faithful_roundWithAccuracy {x : ℚ} (fine : Fine m e)
    (h : Represents (ExtendedMantissa.ofMantissaAndAccuracy m acc) x) (s : Sign) :
    Faithful (x * 2 ^ e) (roundWithAccuracy Format.binary64 s m e acc) := by
  obtain ⟨y, value, down, up, short, long⟩ := cut_spec fine h
  have tick : (0 : ℚ) < 2 ^ unit m e := by positivity
  have fits : cut m e acc ≤ 2 ^ 53 := down _ short
  have full (normal : unit m e ≠ -1074) : 2 ^ 52 ≤ cut m e acc := up _ (long normal)
  rw [value]
  refine ⟨canonical_roundWithAccuracy fine s fits full, fun h le => ?_, fun h le => ?_⟩
  · rw [magnitude_roundWithAccuracy fine s fits]
    rcases h.on_grid (unit m e) with ⟨n, rfl⟩ | ⟨normal, most⟩
    · have whole : cut m e acc ≤ n := down n (le_of_mul_le_mul_right le tick)
      gcongr
    · -- between the least normal number and one that is at most that, there is only that
      have whole : cut m e acc ≤ 2 ^ 52 := down _ (le_of_mul_le_mul_right (le.trans most) tick)
      have long' := long normal.ne'
      calc (cut m e acc * 2 ^ unit m e : ℚ) ≤ (2 ^ 52 : ℕ) * 2 ^ unit m e := by gcongr
        _ ≤ y * 2 ^ unit m e := by gcongr
        _ ≤ _ := le
  · rw [magnitude_roundWithAccuracy fine s fits]
    rcases h.on_grid (unit m e) with ⟨n, rfl⟩ | ⟨normal, most⟩
    · have whole : n ≤ cut m e acc := up n (le_of_mul_le_mul_right le tick)
      gcongr
    · have whole := full normal.ne'
      refine most.trans ?_
      gcongr

end Rounding

/-! ## Operations -/

/-- A number as it is unpacked has bits enough. -/
lemma Canonical.fine {s : Sign} {m : ℕ} {e : ℤ} {pos : 0 < m} (h : Canonical (.finite s m e pos)) :
    Fine m e := by
  obtain ⟨-, -, normal | least⟩ := h
  · exact .inl ((Nat.le_log2 pos.ne').2 normal)
  · exact .inr least.le

/-- The product of two numbers is rounded to what is next to it, if there are bits enough. -/
lemma faithful_mul_finite {s s' : Sign} {m m' : ℕ} {e e' : ℤ} (pos : 0 < m) (pos' : 0 < m')
    (fine : Fine (m * m') (e + e')) :
    Faithful (m * 2 ^ e * (m' * 2 ^ e'))
      (UnpackedFloat.mul Format.binary64 (.finite s m e pos) (.finite s' m' e' pos')) := by
  have rounded := faithful_roundWithAccuracy fine (represents_exact (m * m')) (s * s')
  have product : ((m * m' : ℕ) : ℚ) * 2 ^ (e + e') = m * 2 ^ e * (m' * 2 ^ e') := by
    rw [zpow_add₀ two_ne_zero]
    push_cast
    ring
  rwa [product] at rounded

/-- A product of finite numbers. -/
lemma faithful_mul {u v : UnpackedFloat} (hu : Canonical u) (hv : Canonical v) :
    Faithful (magnitude u * magnitude v) (UnpackedFloat.mul Format.binary64 u v) := by
  cases u with
  | infinity | notANumber => exact hu.elim
  | zero s =>
    cases v with
    | infinity | notANumber => exact hv.elim
    | zero | finite =>
      rw [magnitude_zero, zero_mul]
      exact faithful_zero _
  | finite s m e pos =>
    cases v with
    | infinity | notANumber => exact hv.elim
    | zero =>
      rw [magnitude_zero, mul_zero]
      exact faithful_zero _
    | finite s' m' e' pos' =>
      have larger : m.log2 ≤ (m * m').log2 ∧ m'.log2 ≤ (m * m').log2 := by
        simp only [Nat.le_log2 (Nat.mul_pos pos pos').ne']
        exact ⟨(Nat.log2_self_le pos.ne').trans (Nat.le_mul_of_pos_right m pos'),
          (Nat.log2_self_le pos'.ne').trans (Nat.le_mul_of_pos_left m' pos)⟩
      refine faithful_mul_finite pos pos' ?_
      have fine := hu.fine
      have fine' := hv.fine
      simp only [Fine] at fine fine' ⊢
      omega

/-- A shift to the left adds bits. -/
lemma log2_shiftLeft {m : ℕ} (pos : 0 < m) (k : ℕ) : (m <<< k).log2 = m.log2 + k := by
  rw [Nat.shiftLeft_eq, Nat.log2_eq_iff (Nat.mul_pos pos (Nat.two_pow_pos k)).ne', pow_add,
    Nat.add_right_comm, pow_add]
  exact ⟨Nat.mul_le_mul_right _ (Nat.log2_self_le pos.ne'),
    Nat.mul_lt_mul_of_pos_right Nat.lt_log2_self (Nat.two_pow_pos k)⟩

/-- A shift to the left, with a smaller exponent, keeps the value. -/
lemma value_shiftLeft (m k : ℕ) (e : ℤ) : ((m <<< k : ℕ) : ℚ) * 2 ^ (e - k) = m * 2 ^ e := by
  rw [Nat.shiftLeft_eq, zpow_sub₀ two_ne_zero, zpow_natCast]
  push_cast
  field_simp

/-- Two mantissas divided have almost as many bits as their exponents differ by. -/
lemma le_log2_div {m n : ℕ} (pos : 0 < n) {b : ℕ} (long : b + n.log2 + 1 ≤ m.log2) :
    b ≤ (m / n).log2 := by
  have nonzero : m ≠ 0 := by
    rintro rfl
    rw [Nat.log2_zero] at long
    omega
  have large : 2 ^ b * n ≤ m := by
    calc 2 ^ b * n ≤ 2 ^ b * 2 ^ (n.log2 + 1) := Nat.mul_le_mul_left _ Nat.lt_log2_self.le
      _ = 2 ^ (b + n.log2 + 1) := by rw [← pow_add, Nat.add_assoc]
      _ ≤ 2 ^ m.log2 := Nat.pow_le_pow_right (by decide) long
      _ ≤ m := Nat.log2_self_le nonzero
  have quotient : 2 ^ b ≤ m / n := (Nat.le_div_iff_mul_le pos).2 large
  exact (Nat.le_log2 (Nat.pos_of_ne_zero (by have := Nat.two_pow_pos b; omega)).ne').2 quotient

/-- A quotient of finite numbers. -/
lemma faithful_div {u v : UnpackedFloat} (hu : Canonical u) (hv : Canonical v)
    (pos : 0 < magnitude v) :
    Faithful (magnitude u / magnitude v) (UnpackedFloat.div Format.binary64 u v) := by
  cases v with
  | zero => exact absurd pos (lt_irrefl _)
  | infinity | notANumber => exact hv.elim
  | finite s' m' e' pos' =>
    cases u with
    | infinity | notANumber => exact hu.elim
    | zero =>
      rw [magnitude_zero, zero_div]
      exact faithful_zero _
    | finite s m e pos =>
      rw [UnpackedFloat.div, divCore]
      dsimp only
      -- the dividend is shifted until the quotient has all the bits that are kept
      generalize target : min (e - e') (Format.binary64.targetExponent
        (totalExponent m e - totalExponent m' e')) = t
      generalize amount : (e - e' - t).toNat = k
      have shift : t = e - e' - k := by omega
      have fine : Fine (m <<< k / m') t := by
        have enough : 52 + m'.log2 + 1 ≤ (m <<< k).log2 ∨ t ≤ -1074 := by
          rw [log2_shiftLeft pos]
          rw [Format.targetExponent, totalExponent, totalExponent, Format.mantissaBits,
            Format.minExponent, Format.mantissaBits] at target
          norm_num at target
          omega
        exact enough.imp_left (le_log2_div pos')
      have rounded := faithful_roundWithAccuracy fine (represents_quotient (m <<< k) pos') (s / s')
      have quotient : ((m <<< k : ℕ) : ℚ) / m' * 2 ^ t = m * 2 ^ e / (m' * 2 ^ e') := by
        rw [shift, sub_right_comm, zpow_sub₀ two_ne_zero, ← value_shiftLeft m k e]
        ring
      rwa [quotient] at rounded

/-- A natural number becomes a binary number. -/
lemma faithful_ofNat (n : ℕ) : Faithful n (UnpackedFloat.ofNat Format.binary64 n) := by
  rw [UnpackedFloat.ofNat, UnpackedFloat.ofInt, UnpackedFloat.normalize]
  rcases Nat.eq_zero_or_pos n with rfl | pos
  · exact faithful_zero _
  · rw [Int.compare_eq_gt.2 (Int.natCast_pos.2 pos), Int.toNat_natCast]
    dsimp only
    rw [UnpackedFloat.round, targetExponent_eq, decreaseExponent]
    dsimp only
    generalize amount : (0 - unit n 0).toNat = k
    have fine : Fine (n <<< k) (0 - k) := by
      rw [Fine, log2_shiftLeft pos]
      rw [unit] at amount
      omega
    have rounded := faithful_roundWithAccuracy fine (represents_exact (n <<< k)) .positive
    rwa [value_shiftLeft, zpow_zero, mul_one] at rounded

/-! ## Numbers in 64 bits -/

/-- The sign is unpacked as it was packed. -/
lemma unpackSign_packComponents {spec : Format} (s : Sign) (e : BitVec spec.exponentBits)
    (m : BitVec spec.mantissaBitsWithoutImplicit) :
    Sign.ofBitVec (unpackSign (packComponents spec s e m)) = s := by
  have bit : unpackSign (packComponents spec s e m) = s.toBitVec := by
    ext i hi
    obtain rfl : i = 0 := by omega
    simp [unpackSign, packComponents, BitVec.getLsbD_append, BitVec.getElem_append]
  rw [bit]
  cases s <;> rfl

/-- The leading bit that is not kept stands before the others. -/
lemma toNat_implicit (m : BitVec 52) : (1#1 ++ m).toNat = 2 ^ 52 + m.toNat := by
  rw [BitVec.toNat_append, ← Nat.shiftLeft_add_eq_or_of_lt m.isLt]
  rfl

/-- The number with these fields. -/
def ofFields (s : Sign) (e : BitVec 11) (m : BitVec 52) : UnpackedFloat :=
  if e = -1#11 then if m = 0#52 then .infinity s else .notANumber
  else if e = 0#11 then
    if h : m = 0#52 then .zero s
    else .finite s m.toNat (-1074) (by simpa [BitVec.toNat_pos, BitVec.pos_iff_ne_zero])
  else .finite s (2 ^ 52 + m.toNat) (e.toNat - 1075) (by omega)

/-- A number is unpacked from its sign, its exponent and its fraction. -/
lemma unpack_eq_ofFields (b : BitVec Format.binary64.numBits) :
    UnpackedFloat.unpack Format.binary64 b =
      ofFields (Sign.ofBitVec (unpackSign b)) (unpackExponent b) (unpackMantissa b) := by
  rw [UnpackedFloat.unpack, ofFields]
  simp only [toNat_implicit]
  refine if_congr Iff.rfl rfl ?_
  split
  next zero =>
    rw [zero]
    rfl
  next => rfl

/-- Fields that are packed are unpacked again. -/
lemma unpack_packComponents (s : Sign) (e : BitVec 11) (m : BitVec 52) :
    UnpackedFloat.unpack Format.binary64 (packComponents Format.binary64 s e m) =
      ofFields s e m := by
  rw [unpack_eq_ofFields, unpackSign_packComponents, unpackExponent_packComponents,
    unpackMantissa_packComponents]

/-- A number is packed with its exponent if it has the leading bit, without if not, and as an
infinity if it is too large. -/
lemma pack_finite (s : Sign) {m : ℕ} (e : ℤ) (pos : 0 < m) :
    UnpackedFloat.pack Format.binary64 (.finite s m e pos) =
      if 2047 ≤ (e + 1075).toNat then packComponents Format.binary64 s (-1#11) 0#52
      else if m.log2 = 52 then
        packComponents Format.binary64 s (BitVec.ofNat 11 (e + 1075).toNat) (BitVec.ofNat 52 m)
      else packComponents Format.binary64 s 0#11 (BitVec.ofNat 52 m) := by
  have biased : e + (Format.binary64.exponentBias : ℤ) +
      (Format.binary64.mantissaBitsWithoutImplicit : ℤ) = e + 1075 := by
    rw [Format.exponentBias]
    norm_num
    omega
  rw [UnpackedFloat.pack, biased]
  refine if_congr ?_ rfl (if_congr ?_ rfl rfl)
  · show 2 ^ 11 ≤ (e + 1075).toNat + 1 ↔ _
    omega
  · show m.log2 + 1 = 1 + 52 ↔ _
    omega

/-- The first magnitude with no room is the mantissa's end at the greatest exponent. -/
lemma two_pow_room : (2 ^ 53 * 2 ^ (971 : ℤ) : ℚ) = 2 ^ 1024 := by
  rw [show (971 : ℤ) = ((971 : ℕ) : ℤ) from rfl, zpow_natCast, ← pow_add]

/-- The format has room for exponents up to that of its greatest number. -/
lemma magnitude_lt_iff {s : Sign} {m : ℕ} {e : ℤ} {pos : 0 < m}
    (h : Canonical (.finite s m e pos)) : magnitude (.finite s m e pos) < 2 ^ 1024 ↔ e ≤ 971 := by
  obtain ⟨short, least, normal⟩ := h
  rw [magnitude]
  constructor
  · intro small
    by_contra large
    have full : (2 ^ 52 : ℚ) ≤ m := by exact_mod_cast normal.resolve_right (by omega)
    have power : (2 : ℚ) ^ (971 + 1 : ℤ) ≤ 2 ^ e := zpow_le_zpow_right₀ one_le_two (by omega)
    refine absurd small (not_lt.2 ?_)
    calc (2 ^ 1024 : ℚ) = 2 ^ 52 * 2 ^ (971 + 1 : ℤ) := by
          rw [← two_pow_room, zpow_add_one₀ two_ne_zero]
          ring
      _ ≤ m * 2 ^ e := by gcongr
  · intro small
    have short' : (m : ℚ) < 2 ^ 53 := by exact_mod_cast short
    have power : (2 : ℚ) ^ e ≤ 2 ^ (971 : ℤ) := zpow_le_zpow_right₀ one_le_two small
    calc (m * 2 ^ e : ℚ) ≤ m * 2 ^ (971 : ℤ) := by gcongr
      _ < 2 ^ 53 * 2 ^ (971 : ℤ) := by gcongr
      _ = 2 ^ 1024 := two_pow_room

/-- Numbers with the same sign, mantissa and exponent are the same. -/
lemma finite_congr {s : Sign} {m m' : ℕ} {e e' : ℤ} {pos : 0 < m} {pos' : 0 < m'} (same : m = m')
    (same' : e = e') : UnpackedFloat.finite s m e pos = .finite s m' e' pos' := by
  subst same same'
  rfl

/-- A number that fits into some bits and is not theirs has other bits. -/
lemma ofNat_ne {w n : ℕ} {x : BitVec w} (room : n < 2 ^ w) (apart : n ≠ x.toNat) :
    BitVec.ofNat w n ≠ x := by
  rintro rfl
  rw [BitVec.toNat_ofNat, Nat.mod_eq_of_lt room] at apart
  exact apart rfl

/-- The leading bit of a mantissa that has all its bits is left out, and put back. -/
lemma ofFields_of_full (s : Sign) {m : ℕ} {e : ℤ} (pos : 0 < m) (full : m.log2 = 52)
    (least : -1074 ≤ e) (room : e ≤ 971) :
    ofFields s (BitVec.ofNat 11 (e + 1075).toNat) (BitVec.ofNat 52 m) = .finite s m e pos := by
  have bounds := (Nat.log2_eq_iff pos.ne').1 full
  have bits : (BitVec.ofNat 11 (e + 1075).toNat).toNat = (e + 1075).toNat := by
    rw [BitVec.toNat_ofNat]
    omega
  have field : (BitVec.ofNat 52 m).toNat = m - 2 ^ 52 := by
    rw [BitVec.toNat_ofNat]
    omega
  have ne_top : BitVec.ofNat 11 (e + 1075).toNat ≠ -1#11 := by
    refine ofNat_ne (by omega) ?_
    change _ ≠ 2047
    omega
  have ne_zero : BitVec.ofNat 11 (e + 1075).toNat ≠ 0#11 := by
    refine ofNat_ne (by omega) ?_
    change _ ≠ 0
    omega
  rw [ofFields, if_neg ne_top, if_neg ne_zero]
  simp only [bits, field]
  exact finite_congr (by omega) (by omega)

/-- A mantissa that is short of bits is kept as it is, in the least unit. -/
lemma ofFields_of_short (s : Sign) {m : ℕ} (pos : 0 < m) (less : m < 2 ^ 52) :
    ofFields s 0#11 (BitVec.ofNat 52 m) = .finite s m (-1074) pos := by
  have ne_zero : BitVec.ofNat 52 m ≠ 0#52 := ofNat_ne less pos.ne'
  rw [ofFields, if_neg (by decide), if_pos rfl, dif_neg ne_zero]
  refine finite_congr ?_ rfl
  rw [BitVec.toNat_ofNat, Nat.mod_eq_of_lt less]

/-- A number that the format has room for is unpacked as it was packed. -/
lemma unpack_pack {u : UnpackedFloat} (h : Canonical u) (small : magnitude u < 2 ^ 1024) :
    (Float.Model.pack u).unpack = u := by
  show UnpackedFloat.unpack Format.binary64 (UnpackedFloat.pack Format.binary64 u) = u
  cases u with
  | infinity | notANumber => exact h.elim
  | zero s => exact (unpack_packComponents s 0 0).trans (by simp [ofFields])
  | finite s m e pos =>
    have room : e ≤ 971 := (magnitude_lt_iff h).1 small
    obtain ⟨short, least, normal⟩ := h
    rw [pack_finite, if_neg (by omega)]
    by_cases full : m.log2 = 52
    · rw [if_pos full, unpack_packComponents, ofFields_of_full s pos full least room]
    · have less : m < 2 ^ 52 := by
        by_contra enough
        exact full ((Nat.log2_eq_iff pos.ne').2 ⟨by omega, short⟩)
      rw [if_neg full, unpack_packComponents, ofFields_of_short s pos less]
      exact finite_congr rfl (normal.resolve_left (by omega)).symm

/-- Where the format has no room, there is an infinity. -/
lemma isInf_pack {u : UnpackedFloat} (h : Canonical u) (large : 2 ^ 1024 ≤ magnitude u) :
    (Float.Model.pack u).unpack.isInf = true := by
  show (UnpackedFloat.unpack Format.binary64 (UnpackedFloat.pack Format.binary64 u)).isInf = true
  cases u with
  | infinity | notANumber => exact h.elim
  | zero =>
    rw [magnitude_zero] at large
    exact absurd large (not_le.2 (by positivity))
  | finite s m e pos =>
    have room : ¬ e ≤ 971 := fun room => absurd ((magnitude_lt_iff h).2 room) (not_lt.2 large)
    rw [pack_finite, if_pos (by omega), unpack_packComponents, ofFields, if_pos rfl, if_pos rfl]
    rfl

/-- Fields are those of a finite number unless the exponent has all bits set. -/
lemma canonical_ofFields (s : Sign) {e : BitVec 11} (m : BitVec 52) (room : e ≠ -1#11) :
    Canonical (ofFields s e m) ∧ magnitude (ofFields s e m) < 2 ^ 1024 := by
  have field := m.isLt
  have below : e.toNat ≤ 2046 := by
    have bound := e.isLt
    have top : e.toNat ≠ 2047 := fun same => room (BitVec.eq_of_toNat_eq same)
    omega
  rw [ofFields, if_neg room]
  split
  next =>
    split
    next =>
      refine ⟨trivial, ?_⟩
      rw [magnitude_zero]
      positivity
    next some =>
      have pos : m.toNat ≠ 0 := fun same => some (BitVec.eq_of_toNat_eq same)
      have canonical : Canonical (.finite s m.toNat (-1074) (by omega)) :=
        ⟨by omega, le_rfl, .inr rfl⟩
      exact ⟨canonical, (magnitude_lt_iff canonical).2 (by decide)⟩
  next nonzero =>
    have pos : e.toNat ≠ 0 := fun same => nonzero (BitVec.eq_of_toNat_eq same)
    have canonical : Canonical (.finite s (2 ^ 52 + m.toNat) (e.toNat - 1075) (by omega)) :=
      ⟨by omega, by omega, .inl (by omega)⟩
    exact ⟨canonical, (magnitude_lt_iff canonical).2 (by omega)⟩

/-- The bits for the exponent. -/
def exponentField (x : Float) : BitVec 11 := @unpackExponent Format.binary64 x.toBits.toBitVec

/-- The bits after the point. -/
def fractionField (x : Float) : BitVec 52 := @unpackMantissa Format.binary64 x.toBits.toBitVec

/-- The exponent of a float is between its sign and its fraction. -/
lemma toNat_exponentField (x : Float) :
    (exponentField x).toNat = x.toBits.toNat / 2 ^ 52 % 2 ^ 11 := by
  simp [exponentField, unpackExponent, BitVec.extractLsb_toNat, Nat.shiftRight_eq_div_pow]

/-- The fraction of a float is behind all else. -/
lemma toNat_fractionField (x : Float) : (fractionField x).toNat = x.toBits.toNat % 2 ^ 52 := by
  simp [fractionField, unpackMantissa, BitVec.extractLsb_toNat]

/-- A float is unpacked from its fields. -/
lemma unpack_toModel (x : Float) : ∃ s, x.toModel.unpack =
    ofFields s (exponentField x) (fractionField x) :=
  ⟨_, unpack_eq_ofFields x.toBits.toBitVec⟩

/-- Finite numbers are those whose exponent is not the greatest. -/
lemma isFinite_iff (x : Float) : x.isFinite = true ↔ exponentField x ≠ -1#11 := by
  obtain ⟨s, fields⟩ := unpack_toModel x
  show x.toModel.unpack.isFinite = true ↔ _
  rw [fields, ofFields]
  by_cases top : exponentField x = -1#11
  · simp only [top, if_true, ne_eq, not_true, iff_false]
    split <;> simp [UnpackedFloat.isFinite]
  · simp only [top, if_false, ne_eq, not_false_iff, iff_true]
    split
    next => split <;> rfl
    next => rfl

/-- A finite float is unpacked as a number that has room. -/
lemma canonical_of_isFinite {x : Float} (finite : x.isFinite = true) :
    Canonical x.toModel.unpack ∧ magnitude x.toModel.unpack < 2 ^ 1024 := by
  obtain ⟨s, fields⟩ := unpack_toModel x
  rw [fields]
  exact canonical_ofFields s _ ((isFinite_iff x).1 finite)

/-- A float that is unpacked as a number is finite. -/
lemma isFinite_of_canonical {x : Float} (h : Canonical x.toModel.unpack) : x.isFinite = true := by
  show x.toModel.unpack.isFinite = true
  revert h
  cases x.toModel.unpack with
  | infinity | notANumber => exact False.elim
  | zero | finite => exact fun _ => rfl

end Preferences.Binary
