import Preferences.Proofs.Json.Accepted
import Preferences.Proofs.Number.Shortest

/-!
# Floats in JSON texts

Every float that is read from a text is finite, and the text of every finite float is read as a
float again, though not always as the same one. Main statements: `isFinite_of_numberHead` and
`takesNumber_floatChars`.
-/

namespace Preferences.Json

/-! ## Floats are read as finite ones -/

/-- A sign leaves a number finite. -/
lemma isFinite_withSign {x : Float} (finite : x.isFinite = true) (positive : Bool) :
    (withSign positive x).isFinite = true := by
  cases positive with
  | true => exact finite
  | false => exact Binary.isFinite_neg finite

/-- A float that was read is finite. -/
lemma isFinite_of_approximate {x : Float} (h : Approximate (.float x)) : x.isFinite = true := by
  cases h with
  | zero positive => exact isFinite_withSign rfl positive
  | scaled positive read => exact isFinite_withSign (isFinite_of_scaleByTen read) positive

/-- An integer with too many digits is read as a finite float. -/
lemma isFinite_of_whole {positive : Bool} {n : Nat} {x : Float} (h : whole positive n = .float x) :
    x.isFinite = true := by
  rw [whole] at h
  split at h
  next => cases h
  next =>
    cases h
    exact isFinite_withSign (between_significand n).finite positive

/-- A float that was read is finite. -/
theorem isFinite_of_numberHead {cs rest : List Char} {x : Float}
    (h : numberHead cs = .ok (.float x, rest)) : x.isFinite = true := by
  rcases numberHead_eq_ok h with approximate | ⟨positive, m, -, same⟩
  · exact isFinite_of_approximate approximate
  · exact isFinite_of_whole same.symm

/-! ## Texts of floats are read -/

/-- The reader of what follows the sign takes the text for a number. -/
def TakesUnsigned (positive : Bool) (n : JsonNumber) (text : List Char) : Prop :=
  (∃ c cs, text = c :: cs ∧ c.isDigit = true) ∧
    ∀ rest, Stops rest → unsigned positive (text ++ rest) = .ok (n, rest)

/-- A number that is taken behind its sign is taken with it. -/
lemma takesNumber_of_unsigned {positive : Bool} {n : JsonNumber} {text : List Char}
    (h : TakesUnsigned positive n text) :
    TakesNumber n ((if positive then [] else ['-']) ++ text) := by
  obtain ⟨⟨c, cs, rfl, digit⟩, taken⟩ := h
  cases positive with
  | false => exact ⟨⟨'-', c :: cs, rfl, .inl rfl⟩, taken⟩
  | true =>
    refine ⟨⟨c, cs, rfl, .inr digit⟩, fun rest stops => ?_⟩
    exact (numberHead_of_digit digit _).trans (taken rest stops)

section Reading

variable {positive : Bool} {n : Nat} {start e : Int} {fs rest : List Char} {x : Float}

/-- A number that can be scaled is read as the scaled one. -/
lemma scaled_eq (h : scaleByTen n e = some x) :
    scaled positive n e rest = .ok (.float (withSign positive x), rest) := by
  rw [scaled, h]

/-- Digits after the point, all of which fit. -/
lemma decimals_digits (some : fs ≠ []) (digits : ∀ d ∈ fs, d.isDigit = true)
    (foreign : Foreign rest) (small : Nat.ofDigitChars 10 fs n ≤ maxSignificand) :
    decimals positive n start (fs ++ rest) =
      exponent? positive (Nat.ofDigitChars 10 fs n) (start - fs.length) rest := by
  have taken : fit maxSignificand n (fs ++ rest) = _ := fit_append fs digits foreign n small
  have used : (fs ++ rest).length - rest.length = fs.length := by simp
  have used_some : fs.length ≠ 0 := by simpa using some
  rw [decimals, taken]
  dsimp only
  rw [used]
  cases rest with
  | nil => simp only [if_neg used_some]
  | cons c cs =>
    have other := foreign c cs rfl
    simp only [other, if_neg used_some, Bool.false_eq_true, if_false]

/-- Where a number stops there is no exponent. -/
lemma exponent?_stops (stops : Stops rest) :
    exponent? positive n start rest = scaled positive n start rest :=
  exponent?_plain fun c ds same => (stops c ds same).2.2

/-- Behind the digits a point begins decimals. -/
lemma afterDigits_point (cs : List Char) :
    afterDigits positive n ('.' :: cs) = decimals positive n 0 cs := rfl

/-- Behind the digits a mark begins an exponent. -/
lemma afterDigits_mark (cs : List Char) :
    afterDigits positive n ('e' :: cs) = exponent positive n 0 cs := rfl

/-- Digits of an exponent, after its sign. -/
lemma exponent_digits {k : Nat} {sign : Char} (up : Bool)
    (signed : sign = if up then '+' else '-') (stops : Stops rest) (small : k ≤ 0x7fffffff) :
    exponent positive n start (sign :: (natDigits k ++ rest)) =
      scaled positive n (clampExponent (if up then start + k else start - k)) rest := by
  obtain ⟨c, cs, head⟩ : ∃ c cs, natDigits k = c :: cs :=
    List.exists_cons_of_ne_nil Nat.toDigits_ne_nil
  have digit : c.isDigit = true := isDigit_of_mem_natDigits (head ▸ List.mem_cons_self)
  have value : Nat.ofDigitChars 10 (natDigits k) 0 = k := Nat.ofDigitChars_ten_toDigits
  have taken : fit 0x7fffffff 0 (natDigits k ++ rest) = _ :=
    fit_append (natDigits k) (fun d => isDigit_of_mem_natDigits) stops.foreign 0
      (value.trans_le small)
  rw [value, head] at taken
  rw [exponent.eq_def, head, List.cons_append]
  rw [List.cons_append] at taken
  cases up with
  | true | false =>
    subst signed
    simp only [Bool.false_eq_true, if_true, if_false, digit, Bool.not_true, taken]
    cases rest with
    | nil => rfl
    | cons d ds =>
      have other := stops.foreign d ds rfl
      simp only [other, Bool.false_eq_true, if_false]

/-- The sign and the digits of an exponent. -/
def exponentChars (k : Int) : List Char := (if k < 0 then '-' else '+') :: natDigits k.natAbs

/-- An exponent that fits into 32 bits. -/
lemma exponent_exponentChars {k : Int} (stops : Stops rest) (small : k.natAbs ≤ 1000)
    (small' : start.natAbs ≤ 1000) :
    exponent positive n start (exponentChars k ++ rest) = scaled positive n (start + k) rest := by
  have clamped : clampExponent (start + k) = start + k := by
    rw [clampExponent]
    omega
  rw [exponentChars, List.cons_append]
  by_cases negative : k < 0
  · have sum : start - (k.natAbs : Int) = start + k := by omega
    rw [if_pos negative]
    refine (exponent_digits false rfl stops (by omega)).trans ?_
    rw [if_neg (by decide), sum, clamped]
  · have sum : start + (k.natAbs : Int) = start + k := by omega
    rw [if_neg negative]
    refine (exponent_digits true rfl stops (by omega)).trans ?_
    rw [if_pos rfl, sum, clamped]

/-- What may follow the digits of a number: an exponent or nothing. -/
def tailChars : Option Int → List Char
  | none => []
  | some k => 'e' :: exponentChars k

/-- Behind the digits comes an exponent, or what stops a number. -/
lemma foreign_tailChars (k : Option Int) (stops : Stops rest) : Foreign (tailChars k ++ rest) := by
  cases k with
  | none => exact stops.foreign
  | some k =>
    rintro c cs ⟨⟩
    rfl

/-- The exponent behind the digits, or none, is added to the start. -/
lemma exponent?_tailChars {k : Option Int} (stops : Stops rest) (small : (k.getD 0).natAbs ≤ 1000)
    (small' : start.natAbs ≤ 1000) :
    exponent? positive n start (tailChars k ++ rest) =
      scaled positive n (start + k.getD 0) rest := by
  cases k with
  | none =>
    rw [Option.getD_none, add_zero]
    exact exponent?_stops stops
  | some k => exact exponent_exponentChars stops small small'

end Reading

/-! ## The forms in which floats are written -/

/-- The text is read as a float. -/
def TakesFloat (positive : Bool) (text : List Char) : Prop :=
  ∃ x, TakesUnsigned positive (.float (withSign positive x)) text

/-- A number is never out of range by a negative exponent. -/
lemma scaleByTen_of_neg (n : Nat) {e : Int} (negative : e < 0) : ∃ x, scaleByTen n e = some x := by
  rw [scaleByTen]
  simp only [if_pos negative]
  split
  next => exact ⟨_, rfl⟩
  next => exact ⟨_, rfl⟩

section Forms

variable {positive : Bool} {n : Nat} {c : Char} {cs lead fs : List Char} {k : Option Int}

/-- A zero, a point and digits. -/
lemma takesFloat_fraction (some : fs ≠ []) (digits : ∀ d ∈ fs, d.isDigit = true)
    (small : Nat.ofDigitChars 10 fs 0 ≤ maxSignificand) :
    TakesFloat positive ('0' :: '.' :: fs) := by
  have length : 0 < fs.length := List.length_pos_iff.2 some
  obtain ⟨x, read⟩ := scaleByTen_of_neg (Nat.ofDigitChars 10 fs 0) (e := 0 - fs.length) (by omega)
  refine ⟨x, ⟨'0', _, rfl, rfl⟩, fun rest stops => ?_⟩
  have head : unsigned positive ('0' :: '.' :: fs ++ rest) =
      decimals positive 0 0 (fs ++ rest) := rfl
  rw [head, decimals_digits some digits stops.foreign small, exponent?_stops stops]
  exact scaled_eq read

/-- Digits, a point, digits and perhaps an exponent. -/
lemma takesFloat_point (head : lead = c :: cs) (nonzero : c ≠ '0')
    (digits : ∀ d ∈ lead ++ fs, d.isDigit = true) (value : Nat.ofDigitChars 10 (lead ++ fs) 0 = n)
    (small : n ≤ maxSignificand) (some : fs ≠ []) (short : fs.length ≤ 1000)
    (short' : (k.getD 0).natAbs ≤ 1000)
    (scales : ∃ x, scaleByTen n (0 - fs.length + k.getD 0) = .some x) :
    TakesFloat positive (lead ++ '.' :: fs ++ tailChars k) := by
  obtain ⟨x, read⟩ := scales
  obtain ⟨digits_lead, digits_fs⟩ := List.forall_mem_append.1 digits
  subst head
  refine ⟨x, ⟨c, _, rfl, digits_lead c List.mem_cons_self⟩, fun rest stops => ?_⟩
  have shape : c :: cs ++ '.' :: fs ++ tailChars k ++ rest =
      c :: cs ++ '.' :: (fs ++ (tailChars k ++ rest)) := by simp
  rw [Nat.ofDigitChars_append] at value
  have small_lead : Nat.ofDigitChars 10 (c :: cs) 0 ≤ maxSignificand :=
    (le_ofDigitChars fs _).trans (value.trans_le small)
  rw [shape, unsigned_digits nonzero digits_lead (by rintro c cs ⟨⟩; rfl) small_lead,
    afterDigits_point,
    decimals_digits some digits_fs (foreign_tailChars k stops) (value.trans_le small), value,
    exponent?_tailChars stops short' (by omega)]
  exact scaled_eq read

/-- One digit and an exponent. -/
lemma takesFloat_mark {k : Int} (nonzero : c ≠ '0') (digit : c.isDigit = true)
    (value : Nat.ofDigitChars 10 [c] 0 = n) (small : n ≤ maxSignificand)
    (short : k.natAbs ≤ 1000) (scales : ∃ x, scaleByTen n k = .some x) :
    TakesFloat positive (c :: tailChars (some k)) := by
  obtain ⟨x, read⟩ := scales
  refine ⟨x, ⟨c, _, rfl, digit⟩, fun rest stops => ?_⟩
  have shape : c :: tailChars (some k) ++ rest = [c] ++ 'e' :: (exponentChars k ++ rest) := rfl
  rw [shape, unsigned_digits nonzero (by simpa using digit) (by rintro c cs ⟨⟩; rfl)
      (value.trans_le small), value, afterDigits_mark,
    exponent_exponentChars stops short (by decide), zero_add]
  exact scaled_eq read

end Forms

/-- Digits with a point after the first. -/
def pointChars : List Char → List Char
  | [] => []
  | [c] => [c]
  | c :: cs => c :: '.' :: cs

/-- The digits of a number other than zero, seventeen at most. -/
structure Significant (ds : List Char) (n : Nat) : Prop where
  head : ∃ c cs, ds = c :: cs ∧ c ≠ '0'
  digits : ∀ d ∈ ds, d.isDigit = true
  value : Nat.ofDigitChars 10 ds 0 = n
  short : ds.length ≤ 17
  below : n < 10 ^ ds.length

/-- The digits of a number with at most seventeen of them are significant. -/
lemma significant_natDigits {n : Nat} (pos : 0 < n) (short : n < 10 ^ 17) :
    Significant (natDigits n) n where
  head := natDigits_head pos
  digits _ := isDigit_of_mem_natDigits
  value := Nat.ofDigitChars_ten_toDigits
  short := (Nat.length_toDigits_le_iff (by decide) (by decide)).2 short
  below := by
    have some : 0 < (natDigits n).length := List.length_pos_iff.2 Nat.toDigits_ne_nil
    exact (Nat.length_toDigits_le_iff (by decide) some).1 le_rfl

namespace Significant

variable {ds : List Char} {n z : Nat} (h : Significant ds n) (positive : Bool)
include h

/-- Seventeen digits fit into a significand. -/
lemma fits : n ≤ maxSignificand := by
  have power : 10 ^ ds.length ≤ 10 ^ 17 := Nat.pow_le_pow_right (by decide) h.short
  have below := h.below
  rw [maxSignificand]
  omega

/-- Zeros behind digits are digits. -/
lemma digits_zeros : ∀ d ∈ ds ++ List.replicate z '0', d.isDigit = true := by
  refine List.forall_mem_append.2 ⟨h.digits, fun d there => ?_⟩
  rw [List.eq_of_mem_replicate there]
  rfl

/-- All digits stand before the point. -/
lemma takesFloat_whole (le : ds.length + z ≤ 16) :
    TakesFloat positive (ds ++ List.replicate z '0' ++ ['.', '0']) := by
  obtain ⟨c, cs, head, nonzero⟩ := h.head
  have value : Nat.ofDigitChars 10 (ds ++ List.replicate z '0' ++ ['0']) 0 = n * 10 ^ z * 10 := by
    rw [Nat.ofDigitChars_append, Nat.ofDigitChars_append, h.value, Nat.ofDigitChars_replicate_zero]
    show 10 * (10 ^ z * n) + 0 = _
    ring
  have small : n * 10 ^ z * 10 ≤ maxSignificand := by
    have product : n * 10 ^ z < 10 ^ ds.length * 10 ^ z :=
      Nat.mul_lt_mul_of_pos_right h.below (by positivity)
    have power : 10 ^ ds.length * 10 ^ z ≤ 10 ^ 16 := by
      rw [← pow_add]
      exact Nat.pow_le_pow_right (by decide) le
    rw [maxSignificand]
    omega
  have taken : TakesFloat positive
      (ds ++ List.replicate z '0' ++ '.' :: ['0'] ++ tailChars none) :=
    takesFloat_point (by rw [head, List.cons_append]) nonzero
      (List.forall_mem_append.2 ⟨h.digits_zeros, by simp⟩) value small (List.cons_ne_nil _ _)
      (by decide) (by decide) (scaleByTen_of_neg _ (by decide))
  rwa [tailChars, List.append_nil] at taken

/-- The point stands between the digits. -/
lemma takesFloat_inner {p : Nat} (pos : 0 < p) (inner : p < ds.length) :
    TakesFloat positive (ds.take p ++ ['.'] ++ ds.drop p) := by
  obtain ⟨c, cs, head, nonzero⟩ := h.head
  have short := h.short
  have head' : ds.take p = c :: cs.take (p - 1) := by
    rw [head, List.take_cons pos]
  have rest : (ds.drop p).length = ds.length - p := List.length_drop
  have taken : TakesFloat positive (ds.take p ++ '.' :: ds.drop p ++ tailChars none) :=
    takesFloat_point head' nonzero (by rw [List.take_append_drop]; exact h.digits)
      (by rw [List.take_append_drop]; exact h.value) h.fits
      (List.length_pos_iff.1 (by omega)) (by omega) (by decide)
      (scaleByTen_of_neg _ (by rw [Option.getD_none]; omega))
  rw [tailChars, List.append_nil] at taken
  rwa [List.append_assoc, List.singleton_append]

/-- All digits stand after the point. -/
lemma takesFloat_fraction :
    TakesFloat positive (['0', '.'] ++ List.replicate z '0' ++ ds) := by
  obtain ⟨c, cs, head, nonzero⟩ := h.head
  have value : Nat.ofDigitChars 10 (List.replicate z '0' ++ ds) 0 = n := by
    rw [Nat.ofDigitChars_append, Nat.ofDigitChars_replicate_zero, Nat.mul_zero, h.value]
  refine Json.takesFloat_fraction (by simp [head]) ?_ (value.trans_le h.fits)
  intro d there
  exact h.digits_zeros (z := z) d (List.mem_append.2 (List.mem_append.1 there).symm)

/-- One digit stands before the point, and there is an exponent. -/
lemma takesFloat_mark {k : Int} (small : k.natAbs ≤ 1000)
    (scales : ∃ x, scaleByTen n (k + 1 - ds.length) = some x) :
    TakesFloat positive (pointChars ds ++ tailChars (some k)) := by
  obtain ⟨c, cs, rfl, nonzero⟩ := h.head
  have short := h.short
  cases cs with
  | nil =>
    refine Json.takesFloat_mark nonzero (h.digits c List.mem_cons_self) h.value h.fits small ?_
    simpa using scales
  | cons d ds =>
    have same : (0 - (d :: ds).length + (some k).getD 0 : Int) = k + 1 - (c :: d :: ds).length := by
      simp only [List.length_cons, Option.getD_some]
      omega
    have room : (d :: ds).length ≤ 1000 := by
      rw [List.length_cons] at short
      omega
    rw [← same] at scales
    have lead : [c] = c :: [] := rfl
    exact takesFloat_point lead nonzero h.digits h.value h.fits (List.cons_ne_nil _ _) room small
      scales

end Significant

/-- Digits of a number of seventeen digits at most, in every form. -/
lemma takesFloat_write {n : Nat} {e : Int} {d : Digits} (h : Significant d.digits n)
    (point : d.point = d.digits.length + e) (ge : -400 ≤ e) (le : e ≤ 400)
    (scales : ∃ x, scaleByTen n e = some x) (positive : Bool) :
    TakesFloat positive (FloatFormat.json.write d) := by
  have length := h.short
  have most : FloatFormat.json.most = 16 := rfl
  rw [FloatFormat.write]
  dsimp only
  rw [Int.ofNat_eq_natCast]
  by_cases positional : 0 < d.point ∧ d.point ≤ FloatFormat.json.most
  · rw [if_pos positional]
    rw [most] at positional
    by_cases whole : (d.digits.length : Int) ≤ d.point
    · rw [if_pos whole]
      exact h.takesFloat_whole positive (by omega)
    · rw [if_neg whole]
      exact h.takesFloat_inner positive (by omega) (by omega)
  · rw [if_neg positional]
    by_cases fraction : FloatFormat.json.least < d.point ∧ d.point ≤ 0
    · rw [if_pos fraction]
      exact h.takesFloat_fraction positive
    · rw [if_neg fraction]
      have small : (d.point - 1).natAbs ≤ 1000 := by omega
      have same : d.point - 1 + 1 - (d.digits.length : Int) = e := by omega
      rw [List.append_assoc]
      exact h.takesFloat_mark positive small (by rw [same]; exact scales)

/-- The text of a finite float is read as a float. -/
theorem takesNumber_floatChars {x : Float} (finite : x.isFinite = true) :
    ∃ y, TakesNumber (.float y) (floatChars x) := by
  have taken (text : List Char) (h : ∀ positive, TakesFloat positive text) :
      ∃ y, TakesNumber (.float y)
        ((if x.toBits.toNat / Nat.pow 2 63 = 1 then ['-'] else []) ++ text) := by
    by_cases negative : x.toBits.toNat / Nat.pow 2 63 = 1
    · obtain ⟨y, read⟩ := h false
      rw [if_pos negative]
      exact ⟨_, takesNumber_of_unsigned read⟩
    · obtain ⟨y, read⟩ := h true
      rw [if_neg negative]
      exact ⟨_, takesNumber_of_unsigned read⟩
  rw [floatChars]
  split
  next =>
    refine taken ['0', '.', '0'] fun positive => ?_
    exact takesFloat_fraction (List.cons_ne_nil _ _) (by simp) (by decide)
  next nonzero =>
    obtain ⟨n, e, pos, short, ge, le, top, digits⟩ :=
      Dyadic.shortest_spec (Dyadic.finite_ofFloat finite (by simpa using nonzero))
    have scales := Option.isSome_iff_exists.1 (scaleByTen_isSome pos short top)
    rw [digits]
    exact taken _ (takesFloat_write (significant_natDigits pos short) rfl ge le scales)

/-- From the text of a finite float, a finite float is read. -/
lemma reads_real {x : Float} (finite : x.isFinite = true) :
    ∃ y, y.isFinite = true ∧ Reads real (floatChars x) y := by
  obtain ⟨y, ⟨c, cs, chars, number⟩, taken⟩ := takesNumber_floatChars finite
  rw [chars] at taken ⊢
  have head : numberHead (c :: cs ++ []) = .ok (.float y, []) := taken [] Stops.nil
  refine ⟨y, isFinite_of_numberHead head, fun blanks rest hb stops => ?_⟩
  have read : numberHead (c :: (cs ++ rest)) = .ok (.float y, rest) := taken rest stops
  rw [List.append_assoc, List.cons_append, real, beforeValue_append hb _ (isSpace_of_number number)]
  simp only [bind, Except.bind, if_pos number, read]
  rfl

end Preferences.Json
