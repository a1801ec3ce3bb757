import Preferences.Proofs.Number.Binary

/-!
# Bounds on scaled numbers

A significand times a power of ten is finite whenever there is a result at all, and there is one up
to the least decimal of seventeen digits for the greatest number. Main statements:
`isFinite_of_scaleByTen` and `scaleByTen_isSome`.
-/

namespace Preferences

open Float.Model Float.Model.UnpackedFloat

namespace Binary

/-- The magnitude of a number, where it is finite. -/
def size (x : Float) : ℚ := magnitude x.toModel.unpack

/-- The number is finite, with a magnitude between the bounds. -/
structure Between (lo hi : ℕ) (x : Float) : Prop where
  finite : x.isFinite = true
  ge : lo ≤ size x
  le : size x ≤ hi

/-- The bound is a number of the format. -/
def Sharp (n : ℕ) : Prop := n < 2 ^ 1024 ∧ ∃ a ≤ 2 ^ 53, ∃ s, n = a * 2 ^ s

/-- A sharp bound is a magnitude of the format. -/
lemma Sharp.representable {n : ℕ} (h : Sharp n) : Representable n := by
  obtain ⟨-, a, small, s, rfl⟩ := h
  exact ⟨a, s, small, by omega, by push_cast; rfl⟩

/-- Zero is a sharp bound. -/
lemma sharp_zero : Sharp 0 := ⟨by positivity, 0, by decide, 0, rfl⟩

/-- So is every power of two that has room. -/
lemma sharp_two_pow {k : ℕ} (room : k < 1024) : Sharp (2 ^ k) := by
  refine ⟨?_, 1, by decide, k, (one_mul _).symm⟩
  gcongr
  decide

/-- So is one. -/
lemma sharp_one : Sharp 1 := sharp_two_pow (k := 0) (by decide)

/-- What a value between two numbers of the format is rounded to lies between them too. -/
lemma between_pack {y : ℚ} {u : UnpackedFloat} {lo hi : ℕ} (h : Faithful y u) (lower : Sharp lo)
    (upper : Sharp hi) (ge : lo ≤ y) (le : y ≤ hi) : Between lo hi (.ofModel (.pack u)) := by
  have below : magnitude u ≤ hi := h.le upper.representable le
  have above : lo ≤ magnitude u := h.ge lower.representable ge
  have room : (hi : ℚ) < 2 ^ 1024 := by exact_mod_cast upper.1
  have same : (Float.Model.pack u).unpack = u := unpack_pack h.canonical (below.trans_lt room)
  have finite : (Float.ofModel (.pack u)).isFinite = true :=
    isFinite_of_canonical (show Canonical (Float.Model.pack u).unpack by
      rw [same]
      exact h.canonical)
  refine ⟨finite, ?_, ?_⟩
  · rw [size, same]
    exact above
  · rw [size, same]
    exact below

/-- What is rounded from above a sharp bound stays above it or is infinite. -/
lemma pack_cases {y : ℚ} {u : UnpackedFloat} {lo : ℕ} (h : Faithful y u) (lower : Sharp lo)
    (ge : lo ≤ y) : ((Float.ofModel (.pack u)).isFinite = true ∧ lo ≤ size (.ofModel (.pack u))) ∨
      (Float.ofModel (.pack u)).isInf = true := by
  rcases lt_or_ge (magnitude u) (2 ^ 1024) with small | large
  · have same : (Float.Model.pack u).unpack = u := unpack_pack h.canonical small
    refine .inl ⟨isFinite_of_canonical (show Canonical (Float.Model.pack u).unpack from ?_), ?_⟩
    · rw [same]
      exact h.canonical
    · rw [size, same]
      exact h.ge lower.representable ge
  · exact .inr (isInf_pack h.canonical large)

/-- A word made a float is no greater than a sharp bound above it. -/
lemma between_toFloat {w : UInt64} {hi : ℕ} (upper : Sharp hi) (le : w.toNat ≤ hi) :
    Between 0 hi w.toFloat :=
  between_pack (faithful_ofNat w.toNat) sharp_zero upper (by positivity) (by exact_mod_cast le)

variable {x y : Float} {a b hi : ℕ}

/-- A product is no greater than a sharp bound above the product of the bounds. -/
lemma between_mul (hx : Between 0 a x) (hy : Between 0 b y) (upper : Sharp hi) (le : a * b ≤ hi) :
    Between 0 hi (x * y) := by
  have le' : (a * b : ℚ) ≤ hi := by exact_mod_cast le
  have nonneg : 0 ≤ size x * size y := mul_nonneg (magnitude_nonneg _) (magnitude_nonneg _)
  have product : size x * size y ≤ a * b :=
    mul_le_mul hx.le hy.le (magnitude_nonneg _) (by positivity)
  exact between_pack
    (faithful_mul (canonical_of_isFinite hx.finite).1 (canonical_of_isFinite hy.finite).1)
    sharp_zero upper (by exact_mod_cast nonneg) (product.trans le')

/-- A product of finite numbers is finite or infinite, but always a number. -/
lemma isFinite_or_isInf_mul (hx : x.isFinite = true) (hy : y.isFinite = true) :
    (x * y).isFinite = true ∨ (x * y).isInf = true := by
  have nonneg : 0 ≤ size x * size y := mul_nonneg (magnitude_nonneg _) (magnitude_nonneg _)
  have rounded := faithful_mul (canonical_of_isFinite hx).1 (canonical_of_isFinite hy).1
  exact (pack_cases rounded sharp_zero (by exact_mod_cast nonneg)).imp_left And.left

/-- Division by one or more does not make a number greater. -/
lemma between_div (hx : Between 0 hi x) (upper : Sharp hi)
    (hy : (y.isFinite = true ∧ 1 ≤ size y) ∨ y.isInf = true) : Between 0 hi (x / y) := by
  rcases hy with ⟨finite, large⟩ | infinite
  · have quotient : size x / size y ≤ hi := by
      rw [div_le_iff₀ (by linarith)]
      nlinarith [hx.le, hx.ge, (Nat.cast_nonneg hi : (0 : ℚ) ≤ hi)]
    have nonneg : 0 ≤ size x / size y := div_nonneg (magnitude_nonneg _) (magnitude_nonneg _)
    exact between_pack
      (faithful_div (canonical_of_isFinite hx.finite).1 (canonical_of_isFinite finite).1
        (show 0 < size y by linarith)) sharp_zero upper (by exact_mod_cast nonneg) quotient
  · have zero : Faithful 0
        (UnpackedFloat.div Format.binary64 x.toModel.unpack y.toModel.unpack) := by
      have finite : x.toModel.unpack.isFinite = true := hx.finite
      have infinite' : y.toModel.unpack.isInf = true := infinite
      revert finite infinite'
      cases x.toModel.unpack <;> cases y.toModel.unpack <;>
        first | exact fun _ _ => faithful_zero _ | nofun
    exact between_pack zero sharp_zero upper le_rfl (by positivity)

/-- The negative of a finite number is finite. -/
lemma isFinite_neg (h : x.isFinite = true) : (-x).isFinite = true := by
  obtain ⟨canonical, small⟩ := canonical_of_isFinite h
  have canonical' : Canonical x.toModel.unpack.neg ∧
      magnitude x.toModel.unpack.neg = magnitude x.toModel.unpack := by
    revert canonical
    cases x.toModel.unpack with
    | infinity | notANumber => exact False.elim
    | zero | finite => exact fun canonical => ⟨canonical, rfl⟩
  refine isFinite_of_canonical ?_
  show Canonical (Float.Model.pack x.toModel.unpack.neg).unpack
  rw [unpack_pack canonical'.1 (canonical'.2 ▸ small)]
  exact canonical'.1

/-! ## Powers of ten -/

/-- Between bounds is between wider ones. -/
lemma Between.mono {lo lo' hi' : ℕ} (h : Between lo hi x) (ge : lo' ≤ lo) (le : hi ≤ hi') :
    Between lo' hi' x := by
  have ge' : (lo' : ℚ) ≤ lo := by exact_mod_cast ge
  have le' : (hi : ℚ) ≤ hi' := by exact_mod_cast le
  exact ⟨h.finite, ge'.trans h.ge, h.le.trans le'⟩

/-- Whether a number is known to lie between bounds, in whole numbers of the least unit. -/
def isBetween (lo hi : ℕ) (x : Float) : Bool :=
  match x.toModel.unpack with
  | .finite _ m e _ =>
    -1074 ≤ e && lo * 2 ^ 1074 ≤ m * 2 ^ (e + 1074).toNat &&
      m * 2 ^ (e + 1074).toNat ≤ hi * 2 ^ 1074
  | _ => false

/-- What is found to be between bounds is. -/
lemma between_of_isBetween {lo hi : ℕ} (h : isBetween lo hi x = true) : Between lo hi x := by
  have finite : x.isFinite = true := by
    show x.toModel.unpack.isFinite = true
    rw [isBetween] at h
    split at h
    next same => rw [same]; rfl
    next => cases h
  rw [isBetween] at h
  split at h
  next s m e pos same =>
    simp only [Bool.and_eq_true, decide_eq_true_eq] at h
    obtain ⟨⟨least, ge⟩, le⟩ := h
    obtain ⟨k, exponent⟩ : ∃ k : ℕ, e = k - 1074 := ⟨(e + 1074).toNat, by omega⟩
    have amount : (e + 1074).toNat = k := by omega
    rw [amount] at ge le
    have ge' : (lo * 2 ^ 1074 : ℚ) ≤ m * 2 ^ k := by exact_mod_cast ge
    have le' : (m * 2 ^ k : ℚ) ≤ hi * 2 ^ 1074 := by exact_mod_cast le
    have value : size x = m * 2 ^ k / 2 ^ 1074 := by
      rw [size, same, magnitude, exponent, zpow_sub₀ two_ne_zero, zpow_natCast, mul_div_assoc]
      rfl
    refine ⟨finite, ?_, ?_⟩
    · rw [value, le_div_iff₀ (by positivity)]
      exact ge'
    · rw [value, div_le_iff₀ (by positivity)]
      exact le'
  next => cases h

/-- The greatest number of the format. -/
def greatest : ℕ := (2 ^ 53 - 1) * 2 ^ 971

/-- The greatest number of the format is a sharp bound. -/
lemma sharp_greatest : Sharp greatest := ⟨by decide +kernel, 2 ^ 53 - 1, by decide, 971, rfl⟩

/-- Beyond `10 ^ 22` a power of ten is rounded from its digits. -/
lemma powerOfTen_long {n : ℕ} (long : 22 < n) :
    powerOfTen n = .ofModel (.pack (UnpackedFloat.ofScientific Format.binary64 1 n)) := by
  rw [powerOfTen, Float.ofScientific, dif_neg (by omega)]
  rfl

/-- A power of ten is rounded to what is next to it. -/
lemma faithful_ofScientific {n : ℕ} (small : n ≤ 2048) :
    Faithful (10 ^ n) (UnpackedFloat.ofScientific Format.binary64 1 n) := by
  have one : 0 < 1 <<< 53 := by decide
  have pos : 0 < 10 ^ n := by positivity
  have fine : Fine (1 <<< 53 * 10 ^ n) (-53 + 0) := by
    refine .inl ((Nat.le_log2 (Nat.mul_pos one pos).ne').2 ?_)
    have := Nat.le_mul_of_pos_right (1 <<< 53) pos
    omega
  have rounded : Faithful _ (UnpackedFloat.mul Format.binary64
      (.finite .positive (1 <<< 53) (-53) one) (.finite .positive (10 ^ n) 0 pos)) :=
    faithful_mul_finite one pos fine
  have value : (((1 <<< 53 : ℕ) : ℚ) * 2 ^ (-53 : ℤ) * ((10 ^ n : ℕ) * 2 ^ (0 : ℤ))) = 10 ^ n := by
    have unit : ((1 <<< 53 : ℕ) : ℚ) * 2 ^ (-53 : ℤ) = 1 := by
      rw [Nat.shiftLeft_eq]
      norm_num
    rw [unit]
    push_cast
    ring
  rw [value] at rounded
  rw [UnpackedFloat.ofScientific, dif_neg one_ne_zero, if_neg (by norm_num; omega),
    if_neg (by norm_num; omega), if_pos (by omega)]
  exact rounded

/-- Up to `10 ^ 22`, powers of ten are exact. -/
lemma between_powerOfTen_short {n : ℕ} (short : n < 23) : Between 1 (10 ^ n) (powerOfTen n) := by
  have all : ∀ n < 23, isBetween 1 (10 ^ n) (powerOfTen n) = true := by decide +kernel
  exact between_of_isBetween (all n short)

/-- A power of ten is no less than one. -/
lemma one_le_ten_pow (n : ℕ) : ((1 : ℕ) : ℚ) ≤ 10 ^ n := by
  exact_mod_cast Nat.one_le_pow n 10 (by decide)

/-- A power of ten is one or more, or too great for the format. -/
lemma powerOfTen_cases (n : ℕ) :
    ((powerOfTen n).isFinite = true ∧ 1 ≤ size (powerOfTen n)) ∨ (powerOfTen n).isInf = true := by
  rcases Nat.lt_or_ge n 23 with short | long
  · have between := between_powerOfTen_short short
    exact .inl ⟨between.finite, by exact_mod_cast between.ge⟩
  rw [powerOfTen_long long]
  rcases Nat.lt_or_ge 2048 n with huge | small
  · rw [UnpackedFloat.ofScientific, dif_neg one_ne_zero, if_pos (by norm_num; omega)]
    exact .inr rfl
  · have cases := pack_cases (faithful_ofScientific small) sharp_one (one_le_ten_pow n)
    rwa [Nat.cast_one] at cases

end Binary

/-! ## Scaling -/

open Binary

/-- A significand made a float is below `2 ^ 64`, or just there. -/
lemma between_significand (n : ℕ) : Between 0 (2 ^ 64) n.toUInt64.toFloat :=
  between_toFloat (sharp_two_pow (by decide)) (UInt64.toNat_lt _).le

/-- The divisors of a significand leave it small. -/
lemma between_shrink {fuel : ℕ} {x : Float} {e : ℤ} (h : Between 0 (2 ^ 64) x) :
    Between 0 (2 ^ 64) (shrink fuel x e).1 := by
  induction fuel generalizing x e with
  | zero => exact h
  | succ fuel ih =>
    rw [shrink]
    split
    next => exact ih (between_div h (sharp_two_pow (by decide)) (powerOfTen_cases 308))
    next => exact h

/-- A power of ten is between one and a sharp bound above it. -/
lemma between_powerOfTen {n m hi : ℕ} (le : n ≤ m) (upper : Sharp hi) (power : 10 ^ m ≤ hi)
    (small : m ≤ 2048) : Between 1 hi (powerOfTen n) := by
  have le' : 10 ^ n ≤ hi := (Nat.pow_le_pow_right (by decide) le).trans power
  rcases Nat.lt_or_ge n 23 with short | long
  · exact (between_powerOfTen_short short).mono le_rfl le'
  · rw [powerOfTen_long long]
    exact between_pack (faithful_ofScientific (le.trans small)) sharp_one upper (one_le_ten_pow n)
      (by exact_mod_cast le')

/-- Scaling gives finite numbers only. -/
theorem isFinite_of_scaleByTen {n : ℕ} {e : ℤ} {x : Float} (h : scaleByTen n e = some x) :
    x.isFinite = true := by
  have start := between_significand n
  simp only [scaleByTen] at h
  split at h
  next =>
    have shrunk : Between 0 (2 ^ 64) (shrink 4 n.toUInt64.toFloat e).1 := between_shrink start
    split at h
    next =>
      cases h
      exact shrunk.finite
    next =>
      cases h
      exact (between_div shrunk (sharp_two_pow (by decide)) (powerOfTen_cases _)).finite
  next =>
    split at h
    next small =>
      rcases ite_eq_iff.1 h with ⟨-, none⟩ | ⟨finite, some⟩
      · cases none
      · cases some
        have factor : Between 1 greatest (powerOfTen e.toNat) :=
          between_powerOfTen (m := 308) (by omega) sharp_greatest (by decide +kernel) (by decide)
        exact (isFinite_or_isInf_mul start.finite factor.finite).resolve_right finite
    next =>
      rcases ite_eq_iff.1 h with ⟨-, some⟩ | ⟨-, none⟩
      · cases some
        exact start.finite
      · cases none

/-- A finite number is not infinite. -/
lemma not_isInf {x : Float} (finite : x.isFinite = true) : x.isInf = false := by
  have finite' : x.toModel.unpack.isFinite = true := finite
  show x.toModel.unpack.isInf = false
  revert finite'
  cases x.toModel.unpack with
  | infinity | notANumber => nofun
  | zero | finite => exact fun _ => rfl

/-- The greatest significand, but one, of seventeen digits or less for each of the greatest
exponents, and the room that its power of ten leaves it. -/
lemma sharp_significand : ∀ i < 17, Sharp (17976931348623156 / 10 ^ i) := by
  intro i small
  refine ⟨?_, ?_⟩
  · exact (Nat.div_le_self _ _).trans_lt (by decide +kernel)
  · rcases Nat.eq_zero_or_pos i with rfl | pos
    · exact ⟨8988465674311578, by decide, 1, by decide⟩
    · refine ⟨17976931348623156 / 10 ^ i, ?_, 0, by simp⟩
      have power : 10 ^ 1 ≤ 10 ^ i := Nat.pow_le_pow_right (by decide) pos
      have le : 17976931348623156 / 10 ^ i ≤ 17976931348623156 / 10 ^ 1 :=
        Nat.div_le_div_left power (by decide)
      exact le.trans (by decide)

/-- The last powers of ten leave room for significands of as many digits as are left. -/
lemma between_powerOfTen_top : ∀ i < 17,
    Between 1 (greatest / (17976931348623156 / 10 ^ i)) (powerOfTen (292 + i)) := by
  have all : ∀ i < 17,
      isBetween 1 (greatest / (17976931348623156 / 10 ^ i)) (powerOfTen (292 + i)) = true := by
    decide +kernel
  exact fun i small => between_of_isBetween (all i small)

/-- The least decimal of seventeen digits that rounds to the greatest number. -/
def greatestDecimal : ℕ := 17976931348623157 * 10 ^ 292

/-- A product below the greatest decimal has a power of ten and a significand with room for each
other. -/
lemma product_of_top {n i : ℕ} (le : n * 10 ^ (292 + i) ≤ greatestDecimal) (pos : 0 < n)
    (other : (n, i) ≠ (17976931348623157, 0)) : i < 17 ∧ n ≤ 17976931348623156 / 10 ^ i := by
  have scaled : n * 10 ^ i ≤ 17976931348623157 := by
    rw [greatestDecimal, pow_add, Nat.mul_left_comm, Nat.mul_comm (10 ^ 292)] at le
    exact Nat.le_of_mul_le_mul_right le (by positivity)
  have different : n * 10 ^ i ≠ 17976931348623157 := by
    cases i with
    | zero =>
      intro same
      rw [pow_zero, mul_one] at same
      exact other (by rw [same])
    | succ i =>
      rw [pow_succ, ← mul_assoc]
      omega
  refine ⟨?_, (Nat.le_div_iff_mul_le (by positivity)).2 (by omega)⟩
  by_contra large
  have power : 10 ^ 17 ≤ 10 ^ i := Nat.pow_le_pow_right (by decide) (by omega)
  nlinarith

/-- A significand of seventeen digits is scaled as far as numbers go. -/
theorem scaleByTen_isSome {n : ℕ} {e : ℤ} (pos : 0 < n) (short : n < 10 ^ 17)
    (le : 0 ≤ e → n * 10 ^ e.toNat ≤ greatestDecimal) : (scaleByTen n e).isSome = true := by
  have product (a b : ℕ) (upper : Sharp a) (below : n ≤ a)
      (factor : Between 1 b (powerOfTen e.toNat)) (fits : a * b ≤ greatest) :
      (n.toUInt64.toFloat * powerOfTen e.toNat).isInf = false := by
    have same : n.toUInt64.toNat = n := UInt64.toNat_ofNat_of_lt' (short.trans (by decide))
    have significand : Between 0 a n.toUInt64.toFloat :=
      between_toFloat upper (by rw [same]; exact below)
    have factor := factor.mono (Nat.zero_le 1) le_rfl
    exact not_isInf (between_mul significand factor sharp_greatest fits).finite
  simp only [scaleByTen]
  split
  next =>
    split <;> rfl
  next nonneg =>
    have le := le (by omega)
    -- below this power seventeen digits never reach the greatest number
    rcases Nat.lt_or_ge e.toNat 292 with small | large
    · have upper : Sharp (10 ^ 17) := ⟨by decide +kernel, 5 ^ 17, by decide, 17, by decide⟩
      have factor : Between 1 (2 ^ 967) (powerOfTen e.toNat) :=
        between_powerOfTen (m := 291) (by omega) (sharp_two_pow (by decide)) (by decide +kernel)
          (by decide)
      have finite := product _ _ upper short.le factor (by decide +kernel)
      rw [if_pos (by omega), finite]
      rfl
    · obtain ⟨i, exponent⟩ := Nat.exists_eq_add_of_le large
      rw [exponent] at le
      -- only the product for the greatest number leaves no room for the bounds on its factors
      by_cases top : (n, i) = (17976931348623157, 0)
      · cases top
        have e_eq : e = 292 := by omega
        subst e_eq
        decide +kernel
      · obtain ⟨small, below⟩ := product_of_top le pos top
        have finite := product _ _ (sharp_significand i small) below
          (exponent ▸ between_powerOfTen_top i small) (Nat.mul_div_le _ _)
        rw [if_pos (by omega), finite]
        rfl

end Preferences
