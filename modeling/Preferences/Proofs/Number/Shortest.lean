import Preferences.Number.Binary
import Preferences.Proofs.Number.Scaled

/-!
# Shortest digits of a number

The search for the shortest digits of a finite number ends: seventeen digits are enough. What it
finds is not zero, and not above the decimal that is found for the greatest number. Main statement:
`Dyadic.shortest_spec`.
-/

namespace Preferences

open Binary

/-- The exact value. -/
def Dyadic.val (d : Dyadic) : ℚ := d.mantissa * 2 ^ d.exponent

/-- The number is the magnitude of a finite one. -/
structure Dyadic.Finite (d : Dyadic) : Prop where
  pos : 0 < d.mantissa
  short : d.mantissa < 2 ^ 53
  least : -1074 ≤ d.exponent
  most : d.exponent ≤ 971
  narrow : d.narrowBelow = true → d.mantissa = 2 ^ 52

/-! ## Fractions -/

/-- A power is one of two natural powers over the other. -/
lemma zpow_eq_div (b : ℚ) (k : ℤ) : b ^ k = b ^ k.toNat / b ^ (-k).toNat := by
  obtain ⟨n, rfl | rfl⟩ := k.eq_nat_or_neg
  · simp
  · simp

/-- The denominator of the fractions on a grid. -/
def gridDen (q k : ℤ) : ℕ := 2 ^ (-q).toNat * 10 ^ k.toNat

/-- No denominator on a grid is zero. -/
lemma gridDen_pos (q k : ℤ) : 0 < gridDen q k := by
  rw [gridDen]
  positivity

/-- The denominator of a scaled number is that of its grid. -/
lemma scaled_den (n : ℕ) (q k : ℤ) : (Fraction.scaled n q k).den = gridDen q k := rfl

/-- A number in units of a power of ten. -/
lemma scaled_num (n : ℕ) (q k : ℤ) :
    ((Fraction.scaled n q k).num : ℚ) * 10 ^ k = n * 2 ^ q * gridDen q k := by
  have num : ((Fraction.scaled n q k).num : ℚ) = n * 2 ^ q.toNat * 10 ^ (-k).toNat := by
    rw [Fraction.scaled]
    simp only [Nat.pow_eq]
    push_cast
    rfl
  have den : (gridDen q k : ℚ) = 2 ^ (-q).toNat * 10 ^ k.toNat := by
    rw [gridDen]
    push_cast
    rfl
  rw [num, den, zpow_eq_div 2 q, zpow_eq_div 10 k]
  field_simp

/-- Comparison with a multiple of a power of ten. -/
lemma num_le_iff (n u : ℕ) (q k : ℤ) :
    (Fraction.scaled n q k).num ≤ u * gridDen q k ↔ (n * 2 ^ q : ℚ) ≤ u * 10 ^ k := by
  have power : (0 : ℚ) < 10 ^ k := by positivity
  have den : (0 : ℚ) < gridDen q k := Nat.cast_pos.2 (gridDen_pos q k)
  rw [← Nat.cast_le (α := ℚ), ← mul_le_mul_iff_left₀ power, scaled_num, Nat.cast_mul,
    mul_right_comm (u : ℚ), mul_le_mul_iff_left₀ den]

/-- Comparison with a multiple of a power of ten, from the other side. -/
lemma le_num_iff (n u : ℕ) (q k : ℤ) :
    u * gridDen q k ≤ (Fraction.scaled n q k).num ↔ (u * 10 ^ k : ℚ) ≤ n * 2 ^ q := by
  have power : (0 : ℚ) < 10 ^ k := by positivity
  have den : (0 : ℚ) < gridDen q k := Nat.cast_pos.2 (gridDen_pos q k)
  rw [← Nat.cast_le (α := ℚ), ← mul_le_mul_iff_left₀ power, scaled_num, Nat.cast_mul,
    mul_right_comm (u : ℚ), mul_le_mul_iff_left₀ den]

/-! ## The decade -/

variable {d : Dyadic}

/-- The search for the decade stops where the number is below the power of ten. -/
lemma Dyadic.decade_spec {fuel : ℕ} {k : ℤ} (lower : (10 : ℚ) ^ (k - 1) ≤ d.val)
    (upper : d.val < 10 ^ (k + fuel)) :
    (10 : ℚ) ^ (d.decade fuel k - 1) ≤ d.val ∧ d.val < 10 ^ d.decade fuel k ∧
      k ≤ d.decade fuel k := by
  induction fuel generalizing k with
  | zero => exact ⟨lower, by simpa [decade] using upper, le_rfl⟩
  | succ fuel ih =>
    have one : 1 * gridDen d.exponent k ≤ (Fraction.scaled d.mantissa d.exponent k).num ↔
        (10 : ℚ) ^ k ≤ d.val := by
      rw [le_num_iff, Nat.cast_one, one_mul]
      rfl
    rw [one_mul] at one
    rw [decade, scaled_den]
    split
    next below =>
      refine ⟨lower, ?_, le_rfl⟩
      rw [← not_le, ← one]
      omega
    next above =>
      have step := ih (k := k + 1) (by rw [add_sub_cancel_right]; exact one.1 (by omega))
        (by rw [add_assoc, add_comm (1 : ℤ)]; exact_mod_cast upper)
      exact ⟨step.1, step.2.1, by omega⟩

/-! ## Grids -/

namespace Dyadic

/-- The number in units of a power of ten, as a numerator over `gridDen`. -/
def gridNum (d : Dyadic) (k : ℤ) : ℕ := (Fraction.scaled (4 * d.mantissa) (d.exponent - 2) k).num

/-- The denominator for the number and the ends of its interval. -/
def quarterDen (d : Dyadic) (k : ℤ) : ℕ := gridDen (d.exponent - 2) k

/-- Does the multiple of the power of ten round to the number? -/
def inside (d : Dyadic) (k : ℤ) (n : ℕ) : Bool :=
  let low :=
    (Fraction.scaled (4 * d.mantissa - if d.narrowBelow then 1 else 2) (d.exponent - 2) k).num
  let high := (Fraction.scaled (4 * d.mantissa + 2) (d.exponent - 2) k).num
  if d.mantissa % 2 = 0 then low ≤ n * d.quarterDen k && n * d.quarterDen k ≤ high
  else low < n * d.quarterDen k && n * d.quarterDen k < high

/-- Of the multiples on a grid the one below the number and the one above it are tried. -/
lemma onGrid_eq (d : Dyadic) (k : ℤ) :
    d.onGrid k =
      let below := d.gridNum k / d.quarterDen k
      let up := d.gridNum k - below * d.quarterDen k
      let down := (below + 1) * d.quarterDen k - d.gridNum k
      if d.inside k below && 0 < below then
        if d.inside k (below + 1) && (down < up || (down = up && (below + 1) % 2 = 0)) then
          some (below + 1)
        else some below
      else if d.inside k (below + 1) then some (below + 1)
      else none := rfl

/-- The end of the interval of values that round to the number, on the side of zero. -/
def lowEnd (d : Dyadic) : ℚ := d.val - (if d.narrowBelow then 1 else 2) * 2 ^ (d.exponent - 2)

/-- The other end of the interval. -/
def highEnd (d : Dyadic) : ℚ := d.val + 2 * 2 ^ (d.exponent - 2)

/-- Four quarters of the last place make the number. -/
lemma quarters (d : Dyadic) : ((4 * d.mantissa : ℕ) : ℚ) * 2 ^ (d.exponent - 2) = d.val := by
  rw [val, zpow_sub₀ two_ne_zero]
  push_cast
  ring

/-- Comparison of a multiple of a power of ten with the number. -/
lemma le_gridNum_iff (d : Dyadic) (k : ℤ) (n : ℕ) :
    n * d.quarterDen k ≤ d.gridNum k ↔ (n * 10 ^ k : ℚ) ≤ d.val := by
  rw [quarterDen, gridNum, le_num_iff, quarters]

/-- The upper end of the interval is half a last place above the number. -/
lemma highEnd_eq (d : Dyadic) :
    ((4 * d.mantissa + 2 : ℕ) : ℚ) * 2 ^ (d.exponent - 2) = d.highEnd := by
  rw [highEnd, ← quarters]
  push_cast
  ring

/-- The lower end of the interval is half a last place below the number, or a quarter where places
get narrower. -/
lemma lowEnd_eq (pos : 0 < d.mantissa) :
    ((4 * d.mantissa - if d.narrowBelow then 1 else 2 : ℕ) : ℚ) * 2 ^ (d.exponent - 2) =
      d.lowEnd := by
  rw [lowEnd, ← quarters, ← sub_mul, Nat.cast_sub (by split <;> omega)]
  push_cast
  ring

variable {k : ℤ} {n u : ℕ}

/-- What rounds to the number is no greater than the upper end. -/
lemma le_highEnd_of_inside (h : d.inside k n = true) : (n * 10 ^ k : ℚ) ≤ d.highEnd := by
  rw [← highEnd_eq, ← le_num_iff]
  simp only [inside] at h
  split at h
  all_goals
    simp only [Bool.and_eq_true, decide_eq_true_eq] at h
    rw [quarterDen] at h
    omega

/-- Outside the interval, on either side. -/
lemma not_inside (pos : 0 < d.mantissa) (h : d.inside k n = false) :
    (n * 10 ^ k : ℚ) ≤ d.lowEnd ∨ d.highEnd ≤ n * 10 ^ k := by
  rw [← highEnd_eq, ← lowEnd_eq pos, ← num_le_iff, ← le_num_iff]
  simp only [inside] at h
  split at h
  all_goals
    simp only [Bool.and_eq_false_iff, decide_eq_false_iff_not] at h
    rw [quarterDen] at h
    omega

/-- The lower end is no greater than the number. -/
lemma lowEnd_le (d : Dyadic) : d.lowEnd ≤ d.val := by
  have : (0 : ℚ) < 2 ^ (d.exponent - 2) := by positivity
  rw [lowEnd]
  split <;> linarith

/-- The upper end is greater than the number. -/
lemma lt_highEnd (d : Dyadic) : d.val < d.highEnd := by
  rw [highEnd]
  have : (0 : ℚ) < 2 ^ (d.exponent - 2) := by positivity
  linarith

/-- The multiples of the power of ten around the number. -/
lemma grid_neighbours (d : Dyadic) (k : ℤ) :
    (((d.gridNum k / d.quarterDen k : ℕ) : ℚ) * 10 ^ k ≤ d.val) ∧
      d.val < ((d.gridNum k / d.quarterDen k + 1 : ℕ) : ℚ) * 10 ^ k := by
  constructor
  · rw [← le_gridNum_iff]
    exact Nat.div_mul_le_self _ _
  · rw [← not_le, ← le_gridNum_iff, not_le]
    exact Nat.lt_mul_of_div_lt (Nat.lt_succ_self _) (gridDen_pos _ _)

/-- Below the number, only the smaller end of the interval counts. -/
lemma le_lowEnd (pos : 0 < d.mantissa) (below : (n * 10 ^ k : ℚ) ≤ d.val)
    (h : d.inside k n = false) : (n * 10 ^ k : ℚ) ≤ d.lowEnd :=
  (not_inside pos h).resolve_right (not_le.2 (below.trans_lt d.lt_highEnd))

/-- The lower end is not negative. -/
lemma lowEnd_nonneg (pos : 0 < d.mantissa) : 0 ≤ d.lowEnd := by
  rw [← lowEnd_eq pos]
  positivity

/-- The greater of two neighbours is at most half a unit above the number where the smaller is as
far from it. -/
lemma le_of_nearer {b : ℕ} (below : (b * 10 ^ k : ℚ) ≤ d.val)
    (near : (b + 1) * d.quarterDen k - d.gridNum k ≤ d.gridNum k - b * d.quarterDen k) :
    ((b + 1 : ℕ) * 10 ^ k : ℚ) ≤ d.val + 10 ^ k / 2 := by
  have double : (Fraction.scaled (2 * (4 * d.mantissa)) (d.exponent - 2) k).num =
      2 * d.gridNum k := by
    simp only [gridNum, Fraction.scaled]
    ring
  have twice : (2 * b + 1) * d.quarterDen k ≤
      (Fraction.scaled (2 * (4 * d.mantissa)) (d.exponent - 2) k).num := by
    rw [← le_gridNum_iff] at below
    rw [double]
    rw [Nat.add_mul] at near ⊢
    rw [Nat.mul_assoc]
    omega
  rw [quarterDen, le_num_iff, Nat.cast_mul, mul_assoc, quarters] at twice
  push_cast at twice ⊢
  linarith

/-- A multiple that was chosen is one of the two around the number and at most the end of its
interval. The greater of them is chosen only if it is the nearer, or the smaller is outside. -/
lemma onGrid_eq_some (pos : 0 < d.mantissa) (h : d.onGrid k = some u) :
    0 < u ∧ ((u - 1) * 10 ^ k : ℚ) ≤ d.val ∧ (u * 10 ^ k : ℚ) ≤ d.highEnd ∧
      ((u * 10 ^ k : ℚ) ≤ d.val + 10 ^ k / 2 ∨ ((u - 1) * 10 ^ k : ℚ) ≤ d.lowEnd) := by
  have power : (0 : ℚ) < 10 ^ k := by positivity
  obtain ⟨below, above⟩ := d.grid_neighbours k
  rw [onGrid_eq] at h
  dsimp only at h
  generalize d.gridNum k / d.quarterDen k = b at h below above
  have pred : ((b + 1 : ℕ) : ℚ) - 1 = b := by
    push_cast
    ring
  -- is the smaller neighbour inside, and then, is the greater one nearer?
  split at h
  next within =>
    simp only [Bool.and_eq_true, decide_eq_true_eq] at within
    split at h
    next chosen =>
      cases h
      simp only [Bool.and_eq_true, Bool.or_eq_true, decide_eq_true_eq] at chosen
      refine ⟨Nat.succ_pos b, pred ▸ below, le_highEnd_of_inside chosen.1, .inl ?_⟩
      exact le_of_nearer below (chosen.2.elim le_of_lt fun tie => tie.1.le)
    next =>
      cases h
      refine ⟨within.2, ?_, le_highEnd_of_inside within.1, .inl ?_⟩
      · nlinarith
      · linarith
  next out =>
    rcases ite_eq_iff.1 h with ⟨within, chosen⟩ | ⟨-, none⟩
    · cases chosen
      refine ⟨Nat.succ_pos b, pred ▸ below, le_highEnd_of_inside within, .inr ?_⟩
      rw [pred]
      rcases Nat.eq_zero_or_pos b with rfl | some
      · rw [Nat.cast_zero, zero_mul]
        exact lowEnd_nonneg pos
      · exact le_lowEnd pos below (by simpa [some] using out)
    · cases none

/-- A grid that is fine enough has a multiple that rounds to the number. -/
lemma onGrid_isSome (pos : 0 < d.mantissa) (large : (10 : ℚ) ^ k ≤ d.val)
    (fine : (10 : ℚ) ^ k < d.highEnd - d.lowEnd) : (d.onGrid k).isSome = true := by
  obtain ⟨below, above⟩ := d.grid_neighbours k
  have some : 0 < d.gridNum k / d.quarterDen k := by
    have one : 1 * d.quarterDen k ≤ d.gridNum k := by
      rw [le_gridNum_iff, Nat.cast_one, one_mul]
      exact large
    exact Nat.div_pos (by omega) (gridDen_pos _ _)
  rw [onGrid_eq]
  dsimp only
  generalize d.gridNum k / d.quarterDen k = b at below above some ⊢
  split
  next => split <;> rfl
  next out =>
    split
    next => rfl
    next out' =>
      have low : (b * 10 ^ k : ℚ) ≤ d.lowEnd := le_lowEnd pos below (by simpa [some] using out)
      rcases not_inside pos (Bool.eq_false_of_not_eq_true out') with less | high
      · exact absurd (less.trans (lowEnd_le d)) (not_le.2 above)
      · push_cast at high
        linarith

/-! ## The search -/

/-- The search stops at the latest where there is a multiple. -/
lemma search_spec {dec : ℤ} {last : ℕ} (fuel : ℕ)
    (hit : (d.onGrid (dec - last)).isSome = true) (le : n ≤ last) (enough : last ≤ n + fuel) :
    ∃ j u, n ≤ j ∧ j ≤ last ∧ d.onGrid (dec - j) = some u ∧
      d.search dec fuel n = .ofUnits u (dec - j) := by
  induction fuel generalizing n with
  | zero =>
    obtain rfl : n = last := by omega
    obtain ⟨u, found⟩ := Option.isSome_iff_exists.1 hit
    refine ⟨n, u, le_rfl, le_rfl, found, ?_⟩
    rw [search, Int.ofNat_eq_natCast, found, Option.getD_some]
  | succ fuel ih =>
    rw [search, Int.ofNat_eq_natCast]
    split
    next u found => exact ⟨n, u, le_rfl, le, found, rfl⟩
    next none =>
      have later : n ≠ last := by
        rintro rfl
        rw [none] at hit
        cases hit
      obtain ⟨j, u, ge, le', found, same⟩ := ih (n := n + 1) (by omega) (by omega)
      exact ⟨j, u, by omega, le', found, same⟩

end Dyadic

/-! ## Digits without trailing zeros -/

/-- The digits of a number with more than one are those of its tenth and the last one. -/
lemma natDigits_of_ten_le {n : ℕ} (long : 10 ≤ n) :
    natDigits n = natDigits (n / 10) ++ [(n % 10).digitChar] :=
  Nat.toDigits_of_base_le (by decide) long

/-- The last digit is the remainder by ten. -/
lemma natDigits_last (n : ℕ) : ∃ ds, natDigits n = ds ++ [(n % 10).digitChar] := by
  rcases Nat.lt_or_ge n 10 with short | long
  · refine ⟨[], ?_⟩
    rw [Nat.mod_eq_of_lt short]
    exact Nat.toDigits_of_lt_base short
  · exact ⟨_, natDigits_of_ten_le long⟩

/-- Ten times a number has a zero behind its digits. -/
lemma natDigits_ten_mul {n : ℕ} (pos : 0 < n) : natDigits (10 * n) = natDigits n ++ ['0'] := by
  rw [natDigits_of_ten_le (by omega), Nat.mul_div_cancel_left n (by decide), Nat.mul_mod_right]
  rfl

/-- The digits of a number, up to the last one that is not zero. -/
lemma trim_natDigits {u : ℕ} (pos : 0 < u) : ∃ n z, u = n * 10 ^ z ∧ n % 10 ≠ 0 ∧
    (natDigits u).length = (natDigits n).length + z ∧
    ((natDigits u).reverse.dropWhile (· == '0')).reverse = natDigits n := by
  induction u using Nat.strongRecOn with
  | ind u ih =>
    by_cases trailing : u % 10 = 0
    · obtain ⟨v, rfl⟩ : ∃ v, u = 10 * v := ⟨u / 10, by omega⟩
      obtain ⟨n, z, rfl, nonzero, length, digits⟩ := ih v (by omega) (by omega)
      refine ⟨n, z + 1, by ring, nonzero, ?_, ?_⟩
      · rw [natDigits_ten_mul (by omega), List.length_append, length]
        rfl
      · rw [natDigits_ten_mul (by omega), List.reverse_append]
        exact digits
    · refine ⟨u, 0, by simp, trailing, rfl, ?_⟩
      obtain ⟨ds, digits⟩ := natDigits_last u
      have last : ((u % 10).digitChar == '0') = false := by
        rw [beq_eq_false_iff_ne, Ne, Nat.digitChar_eq_zero]
        omega
      rw [digits, List.reverse_append, List.reverse_singleton, List.singleton_append,
        List.dropWhile_cons_of_neg (by simp [last]), List.reverse_cons, List.reverse_reverse]

/-- Units are written without the zeros behind them. -/
lemma ofUnits_eq {u : ℕ} (pos : 0 < u) (k : ℤ) : ∃ n z : ℕ, u = n * 10 ^ z ∧ n % 10 ≠ 0 ∧
    Digits.ofUnits u k = ⟨natDigits n, (natDigits n).length + (z + k)⟩ := by
  obtain ⟨n, z, same, nonzero, length, digits⟩ := trim_natDigits pos
  refine ⟨n, z, same, nonzero, ?_⟩
  rw [Digits.ofUnits, digits, length, Int.ofNat_eq_natCast]
  congr 1
  push_cast
  ring

/-! ## Shortest digits -/

namespace Dyadic

namespace Finite

/-- A finite number is no smaller than the least decade tried. -/
lemma ten_pow_le (h : d.Finite) : (10 : ℚ) ^ (-330 - 1 : ℤ) ≤ d.val := by
  have powers : (2 : ℚ) ^ 1074 ≤ 10 ^ 331 := by
    have whole : 2 ^ 1074 ≤ 10 ^ 331 := by decide +kernel
    exact_mod_cast whole
  have one : (1 : ℚ) ≤ d.mantissa := by exact_mod_cast h.pos
  calc (10 : ℚ) ^ (-330 - 1 : ℤ) = (10 ^ 331)⁻¹ := by
        rw [show (-330 - 1 : ℤ) = -(331 : ℕ) by norm_num, zpow_neg, zpow_natCast]
    _ ≤ (2 ^ 1074)⁻¹ := inv_anti₀ (by positivity) powers
    _ = 2 ^ (-1074 : ℤ) := by
        rw [show (-1074 : ℤ) = -(1074 : ℕ) by norm_num, zpow_neg, zpow_natCast]
    _ ≤ 1 * 2 ^ d.exponent := by
        rw [one_mul]
        exact zpow_le_zpow_right₀ one_le_two h.least
    _ ≤ d.val := by
        rw [val]
        gcongr

/-- No finite number is greater than the greatest. -/
lemma le_greatest (h : d.Finite) : d.val ≤ greatest := by
  have short : (d.mantissa : ℚ) ≤ ((2 ^ 53 - 1 : ℕ) : ℚ) := by
    have := h.short
    exact_mod_cast (by omega : d.mantissa ≤ 2 ^ 53 - 1)
  have power : (2 : ℚ) ^ d.exponent ≤ 2 ^ (971 : ℕ) := by
    rw [← zpow_natCast]
    exact zpow_le_zpow_right₀ one_le_two h.most
  calc d.val ≤ ((2 ^ 53 - 1 : ℕ) : ℚ) * 2 ^ (971 : ℕ) := by
        rw [val]
        gcongr
    _ = greatest := by
        rw [greatest, Nat.cast_mul, Nat.cast_pow (2 : ℕ) 971]
        rfl

/-- A grid with seventeen digits before the point is finer than the interval. -/
lemma fine (h : d.Finite) {k : ℤ} (small : (10 : ℚ) ^ k * 10 ^ 16 ≤ d.val) :
    (10 : ℚ) ^ k < d.highEnd - d.lowEnd := by
  have unit : (0 : ℚ) < 2 ^ d.exponent := by positivity
  have quarter : (2 : ℚ) ^ (d.exponent - 2) = 2 ^ d.exponent / 4 := by
    rw [zpow_sub₀ two_ne_zero]
    norm_num
  rw [highEnd, lowEnd, quarter]
  rw [val] at small ⊢
  split
  next narrow =>
    rw [h.narrow narrow] at small ⊢
    push_cast at small ⊢
    linarith
  next =>
    have short : (d.mantissa : ℚ) < 2 ^ 53 := by exact_mod_cast h.short
    nlinarith

/-- The decade of the number, and what it can be. -/
lemma decade (h : d.Finite) : (10 : ℚ) ^ (d.decade 640 (-330) - 1) ≤ d.val ∧
    d.val < 10 ^ d.decade 640 (-330) ∧ -330 ≤ d.decade 640 (-330) ∧
    d.decade 640 (-330) ≤ 309 := by
  have top : (greatest : ℚ) < 10 ^ (309 : ℤ) := by
    have whole : greatest < 10 ^ 309 := by decide +kernel
    rw [show (309 : ℤ) = (309 : ℕ) from rfl, zpow_natCast]
    exact_mod_cast whole
  have upper : d.val < 10 ^ (-330 + (640 : ℕ) : ℤ) :=
    (h.le_greatest.trans_lt top).trans (zpow_lt_zpow_right₀ (by norm_num) (by norm_num))
  obtain ⟨ge, lt, start⟩ := decade_spec h.ten_pow_le upper
  refine ⟨ge, lt, start, ?_⟩
  have less : (10 : ℚ) ^ (d.decade 640 (-330) - 1) < 10 ^ (309 : ℤ) :=
    (ge.trans h.le_greatest).trans_lt top
  have := (zpow_lt_zpow_iff_right₀ (by norm_num : (1 : ℚ) < 10)).1 less
  omega

/-- The greatest numbers have the greatest exponent, and their interval is symmetric. -/
lemma top (h : d.Finite) (large : (10 : ℚ) ^ 308 ≤ d.val) :
    d.highEnd = d.val + 2 ^ 970 ∧ d.lowEnd = d.val - 2 ^ 970 := by
  have powers : (2 : ℚ) ^ 53 * 2 ^ (970 : ℤ) < 10 ^ 308 := by
    have whole : 2 ^ 53 * 2 ^ 970 < 10 ^ 308 := by decide +kernel
    rw [show (970 : ℤ) = (970 : ℕ) from rfl, zpow_natCast]
    exact_mod_cast whole
  have short : (d.mantissa : ℚ) < 2 ^ 53 := by exact_mod_cast h.short
  have exponent : d.exponent = 971 := by
    by_contra other
    have most := h.most
    have power : (2 : ℚ) ^ d.exponent ≤ 2 ^ (970 : ℤ) := zpow_le_zpow_right₀ one_le_two (by omega)
    have small : d.val ≤ 2 ^ 53 * 2 ^ (970 : ℤ) := by
      rw [val]
      gcongr
    exact absurd (large.trans small) (not_le.2 powers)
  have wide : d.narrowBelow ≠ true := by
    intro narrow
    have small : d.val = 2 ^ 53 * 2 ^ (970 : ℤ) := by
      rw [val, h.narrow narrow, exponent, show (971 : ℤ) = 970 + 1 by norm_num,
        zpow_add_one₀ two_ne_zero]
      generalize (2 : ℚ) ^ (970 : ℤ) = power
      push_cast
      ring
    exact absurd (large.trans small.le) (not_le.2 powers)
  have half : (2 : ℚ) * 2 ^ (d.exponent - 2) = 2 ^ 970 := by
    rw [exponent, show (971 - 2 : ℤ) = (969 : ℕ) by norm_num, zpow_natCast]
    exact (pow_succ' 2 969).symm
  refine ⟨by rw [highEnd, half], by rw [lowEnd, if_neg wide, half]⟩

/-- Not even the greatest number has digits above those found for it. -/
lemma units_le_top (h : d.Finite) (large : (10 : ℚ) ^ 308 ≤ d.val) {i u : ℕ}
    (found : d.onGrid (292 + i) = some u) : u * 10 ^ i ≤ 17976931348623157 := by
  obtain ⟨-, -, high, near⟩ := onGrid_eq_some h.pos found
  obtain ⟨highEnd, lowEnd⟩ := h.top large
  have most := h.le_greatest
  have power : (10 : ℚ) ^ (292 + i : ℤ) = 10 ^ i * 10 ^ 292 := by
    rw [zpow_add₀ (by norm_num), zpow_natCast, mul_comm]
    rfl
  rw [power, highEnd] at high
  rw [power, lowEnd] at near
  -- on the finest grid the nearer neighbour is chosen; on others the end of the interval decides
  cases i with
  | zero =>
    have units : (10 : ℚ) ^ 292 ≤ 2 * 2 ^ 970 := by
      have whole : 10 ^ 292 ≤ 2 * 2 ^ 970 := by decide +kernel
      exact_mod_cast whole
    have rounded : 2 * u * 10 ^ 292 ≤ 2 * greatest + 10 ^ 292 := by
      have rational : (2 * u * 10 ^ 292 : ℚ) ≤ 2 * greatest + 10 ^ 292 := by
        rw [pow_zero, one_mul] at near
        generalize (10 : ℚ) ^ 292 = ten at near units ⊢
        generalize (2 : ℚ) ^ 970 = half at near units
        rcases near with near | outside <;> linarith
      exact_mod_cast rational
    have below : 2 * greatest + 10 ^ 292 < 2 * 17976931348623158 * 10 ^ 292 := by decide +kernel
    have less := Nat.lt_of_mul_lt_mul_right (rounded.trans_lt below)
    omega
  | succ i =>
    have inside : u * 10 ^ (i + 1) * 10 ^ 292 ≤ greatest + 2 ^ 970 := by
      have rational : (u * 10 ^ (i + 1) * 10 ^ 292 : ℚ) ≤ greatest + 2 ^ 970 := by
        rw [mul_assoc]
        exact high.trans (add_le_add_left most _)
      exact_mod_cast rational
    have below : greatest + 2 ^ 970 < 17976931348623159 * 10 ^ 292 := by decide +kernel
    have less := Nat.lt_of_mul_lt_mul_right (inside.trans_lt below)
    rw [pow_succ, ← mul_assoc] at less ⊢
    omega

end Finite

/-- Units below a number with so many digits have no more of them. -/
lemma units_le_ten_pow {dec : ℤ} {j u : ℕ} (lt : d.val < 10 ^ dec)
    (below : ((u - 1) * 10 ^ (dec - j) : ℚ) ≤ d.val) : u ≤ 10 ^ j := by
  have power : (10 : ℚ) ^ dec = 10 ^ j * 10 ^ (dec - j) := by
    rw [← zpow_natCast, ← zpow_add₀ (by norm_num)]
    congr 1
    omega
  rw [power] at lt
  have less : (u - 1 : ℚ) < 10 ^ j := lt_of_mul_lt_mul_right (below.trans_lt lt) (by positivity)
  have whole : (u : ℚ) < ((10 ^ j + 1 : ℕ) : ℚ) := by
    push_cast
    linarith
  exact Nat.lt_succ_iff.1 (Nat.cast_lt.1 whole)

/-- No digits are above those of the greatest number. -/
lemma Finite.units_le (h : d.Finite) {dec : ℤ} (ge : (10 : ℚ) ^ (dec - 1) ≤ d.val)
    (lt : d.val < 10 ^ dec) (most : dec ≤ 309) {j u : ℕ} (short : j ≤ 17)
    (found : d.onGrid (dec - j) = some u) : (u * 10 ^ (dec - j) : ℚ) ≤ greatestDecimal := by
  obtain ⟨-, below, -⟩ := onGrid_eq_some h.pos found
  -- only the numbers of the last decade come near the greatest one
  rcases eq_or_ne dec 309 with rfl | other
  · have grid : (309 - j : ℤ) = 292 + (17 - j : ℕ) := by omega
    rw [grid] at found ⊢
    have top : u * 10 ^ (17 - j) ≤ 17976931348623157 := by
      refine h.units_le_top ?_ found
      rw [show (309 - 1 : ℤ) = (308 : ℕ) by norm_num, zpow_natCast] at ge
      exact ge
    have whole : u * 10 ^ (17 - j) * 10 ^ 292 ≤ greatestDecimal := Nat.mul_le_mul_right _ top
    have power : (10 : ℚ) ^ (292 + (17 - j : ℕ) : ℤ) = 10 ^ (17 - j) * 10 ^ 292 := by
      rw [zpow_add₀ (by norm_num), zpow_natCast, mul_comm]
      rfl
    rw [power, ← mul_assoc]
    exact_mod_cast whole
  · have units : u ≤ 10 ^ j := units_le_ten_pow lt below
    have whole : 10 ^ 308 ≤ greatestDecimal := by decide +kernel
    calc (u * 10 ^ (dec - j) : ℚ) ≤ (10 ^ j : ℕ) * 10 ^ (dec - j) := by gcongr
      _ = 10 ^ dec := by
        push_cast
        rw [← zpow_natCast, ← zpow_add₀ (by norm_num)]
        congr 1
        omega
      _ ≤ 10 ^ (308 : ℤ) := zpow_le_zpow_right₀ (by norm_num) (by omega)
      _ ≤ greatestDecimal := by
        rw [show (308 : ℤ) = (308 : ℕ) from rfl, zpow_natCast]
        exact_mod_cast whole

/-- The shortest digits are those of a whole number of seventeen digits at most, which is not zero,
in units of a power of ten. -/
theorem shortest_spec (h : d.Finite) : ∃ (n : ℕ) (e : ℤ), 0 < n ∧ n < 10 ^ 17 ∧ -400 ≤ e ∧
    e ≤ 400 ∧ (0 ≤ e → n * 10 ^ e.toNat ≤ greatestDecimal) ∧
    d.shortest = ⟨natDigits n, (natDigits n).length + e⟩ := by
  obtain ⟨ge, lt, start, most⟩ := h.decade
  rw [shortest]
  generalize d.decade 640 (-330) = dec at ge lt start most ⊢
  have ten : (1 : ℚ) < 10 := by norm_num
  -- seventeen digits are finer than the gaps between numbers, so that the search ends
  have fine : (10 : ℚ) ^ (dec - (17 : ℕ)) * 10 ^ 16 ≤ d.val := by
    refine le_of_eq_of_le ?_ ge
    rw [← zpow_natCast, ← zpow_add₀ (by norm_num)]
    congr 1
    omega
  have large : (10 : ℚ) ^ (dec - (17 : ℕ)) ≤ d.val :=
    (zpow_le_zpow_right₀ ten.le (by omega)).trans ge
  have last : (d.onGrid (dec - (17 : ℕ))).isSome = true := onGrid_isSome h.pos large (h.fine fine)
  obtain ⟨j, u, -, short, found, same⟩ := search_spec (n := 1) 17 last (by decide) (by decide)
  obtain ⟨pos, below, -⟩ := onGrid_eq_some h.pos found
  obtain ⟨n, z, rfl, nonzero, digits⟩ := ofUnits_eq pos (dec - j)
  have units : n * 10 ^ z ≤ 10 ^ j := units_le_ten_pow lt below
  have top : (n * 10 ^ (z + (dec - j) : ℤ) : ℚ) ≤ greatestDecimal := by
    have le := h.units_le ge lt most short found
    rw [zpow_add₀ (by norm_num), zpow_natCast, ← mul_assoc]
    exact_mod_cast le
  refine ⟨n, z + (dec - j), by omega, ?_, by omega, ?_, ?_, same.trans digits⟩
  · have le : n ≤ 10 ^ 17 := by
      calc n ≤ n * 10 ^ z := Nat.le_mul_of_pos_right n (by positivity)
        _ ≤ 10 ^ j := units
        _ ≤ 10 ^ 17 := Nat.pow_le_pow_right (by decide) short
    omega
  · have one : (1 : ℚ) ≤ n := by exact_mod_cast (by omega : 1 ≤ n)
    have bound : (greatestDecimal : ℚ) ≤ 10 ^ (400 : ℤ) := by
      have whole : greatestDecimal ≤ 10 ^ 400 := by decide +kernel
      rw [show (400 : ℤ) = (400 : ℕ) from rfl, zpow_natCast]
      exact_mod_cast whole
    have power : (10 : ℚ) ^ (z + (dec - j) : ℤ) ≤ 10 ^ (400 : ℤ) :=
      ((le_mul_of_one_le_left (by positivity) one).trans top).trans bound
    exact (zpow_le_zpow_iff_right₀ ten).1 power
  · intro nonneg
    generalize (z + (dec - j) : ℤ) = e at top nonneg ⊢
    lift e to ℕ using nonneg
    rw [zpow_natCast] at top
    exact_mod_cast top

/-- The magnitude of a finite number other than zero. -/
lemma finite_ofFloat {x : Float} (finite : x.isFinite = true) (nonzero : (x == 0) = false) :
    (ofFloat x).Finite := by
  have room : (exponentField x).toNat ≠ 2047 := fun same =>
    (isFinite_iff x).1 finite (BitVec.eq_of_toNat_eq same)
  have bits : ¬((exponentField x).toNat = 0 ∧ (fractionField x).toNat = 0) := by
    rintro ⟨zero, zero'⟩
    obtain ⟨s, fields⟩ := unpack_toModel x
    rw [BitVec.eq_of_toNat_eq (y := 0#11) zero, BitVec.eq_of_toNat_eq (y := 0#52) zero'] at fields
    have equal : (x == 0) = true := by
      show x.toModel.unpack.beq _ = true
      rw [fields]
      rfl
    rw [equal] at nonzero
    cases nonzero
  have exponent := (exponentField x).isLt
  have fraction := (fractionField x).isLt
  rw [toNat_exponentField] at room bits exponent
  rw [toNat_fractionField] at bits fraction
  rw [ofFloat]
  simp only [Nat.pow_eq, Int.ofNat_eq_natCast]
  split
  next subnormal =>
    refine ⟨?_, ?_, ?_, ?_, nofun⟩
    all_goals
      dsimp only
      omega
  next normal =>
    refine ⟨?_, ?_, ?_, ?_, fun narrow => ?_⟩
    all_goals dsimp only at *
    case refine_5 =>
      rw [Bool.and_eq_true, beq_iff_eq] at narrow
      omega
    all_goals omega

end Dyadic

end Preferences
