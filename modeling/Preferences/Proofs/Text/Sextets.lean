import Mathlib.Data.Nat.Digits.Lemmas
import Mathlib.Tactic.Ring
import Preferences.Proofs.Text.Base64

/-!
# Base64 as digits

The bytes of a string are the digits of a number to the base 256, and the symbols of its base64 text
are the digits of the same number to the base 64, after as many zero bits as the last symbol takes
up. The padding signs fill the last group of four. Main statement: `Base64.written_iff`, by which
this rule and the encoder give the same texts.
-/

namespace Preferences.Base64

/-- The number that has these digits to a base, the highest digit first. -/
def numeral (base : Nat) (ds : List Nat) : Nat := ds.foldl (fun n d => d + base * n) 0

/-- The rule of padded base64. -/
structure Written (bs : Bytes) (ns : List Nat) (unused pads : Nat) : Prop where
  small : ∀ n ∈ ns, n < 64
  bits : 6 * ns.length = 8 * bs.length + unused
  few : unused < 6
  value : numeral 64 ns = 2 ^ unused * numeral 256 (bs.map UInt8.toNat)
  filled : 4 ∣ ns.length + pads
  short : pads < 4

/-- A numeral is a sum of its digits, the last one counting least. -/
lemma numeral_eq_ofDigits (base : Nat) (ds : List Nat) :
    numeral base ds = Nat.ofDigits base ds.reverse := by
  rw [Nat.ofDigits_eq_foldr, List.foldr_reverse]
  rfl

/-- The numeral of digits in a row has the first ones in front of the others. -/
lemma numeral_append (base : Nat) (ds es : List Nat) :
    numeral base (ds ++ es) = numeral base es + base ^ es.length * numeral base ds := by
  simp only [numeral_eq_ofDigits, List.reverse_append, Nat.ofDigits_append, List.length_reverse]

/-- The four symbols of three bytes are the digits of one number. -/
lemma group_value (a b c : UInt8) : ∃ w x y z, w < 64 ∧ x < 64 ∧ y < 64 ∧ z < 64 ∧
    group a b c = [w, x, y, z].map symbol ∧
    w * 262144 + x * 4096 + y * 64 + z = a.toNat * 65536 + b.toNat * 256 + c.toNat := by
  have ha := a.toNat_lt
  have hb := b.toNat_lt
  have hc := c.toNat_lt
  refine ⟨_, _, _, _, ?_, ?_, ?_, ?_, rfl, ?_⟩
  all_goals omega

variable {bs : Bytes} {ns ms : List Nat} {unused unused' pads pads' : Nat}

/-- A group in front of what is written by the rule is written by it too. -/
lemma Written.group (h : Written bs ns unused pads) {a b c : UInt8} {w x y z : Nat}
    (hw : w < 64) (hx : x < 64) (hy : y < 64) (hz : z < 64)
    (same : w * 262144 + x * 4096 + y * 64 + z = a.toNat * 65536 + b.toNat * 256 + c.toNat) :
    Written (a :: b :: c :: bs) ([w, x, y, z] ++ ns) unused pads where
  small := by
    intro n there
    rcases List.mem_append.1 there with first | later
    · simp only [List.mem_cons, List.not_mem_nil, or_false] at first
      omega
    · exact h.small n later
  bits := by
    have bits := h.bits
    simp only [List.length_append, List.length_cons, List.length_nil]
    omega
  few := h.few
  value := by
    -- both sides are shifted by as many bits, those of the groups that follow
    have shift : 64 ^ ns.length = 2 ^ unused * 256 ^ (bs.map UInt8.toNat).length := by
      have sextets : (64 : Nat) ^ ns.length = 2 ^ (6 * ns.length) := by rw [pow_mul]; rfl
      have octets : (256 : Nat) ^ bs.length = 2 ^ (8 * bs.length) := by rw [pow_mul]; rfl
      rw [List.length_map, sextets, octets, h.bits, pow_add, Nat.mul_comm]
    have symbols : numeral 64 [w, x, y, z] = w * 262144 + x * 4096 + y * 64 + z := by
      simp only [numeral, List.foldl]
      omega
    have bytes : numeral 256 [a.toNat, b.toNat, c.toNat] =
        a.toNat * 65536 + b.toNat * 256 + c.toNat := by
      simp only [numeral, List.foldl]
      omega
    have split : (a :: b :: c :: bs).map UInt8.toNat =
        [a.toNat, b.toNat, c.toNat] ++ bs.map UInt8.toNat := rfl
    rw [split, numeral_append, numeral_append, h.value, symbols, bytes, same, shift]
    ring
  filled := by
    have filled := h.filled
    simp only [List.length_append, List.length_cons, List.length_nil]
    omega
  short := h.short

/-- What the encoder writes, it writes by the rule. -/
lemma written_encodeChars (bs : Bytes) : ∃ ns unused pads, Written bs ns unused pads ∧
    encodeChars bs = ns.map symbol ++ List.replicate pads '=' := by
  induction bs using encodeChars.induct with
  | case1 =>
    exact ⟨[], 0, 0, ⟨List.forall_mem_nil _, rfl, by decide, rfl, by decide, by decide⟩, rfl⟩
  | case2 a =>
    obtain ⟨w, x, y, z, hw, hx, hy, hz, symbols, value⟩ := group_value a 0 0
    rw [UInt8.toNat_zero] at value
    refine ⟨[w, x], 4, 2, ⟨?_, rfl, by decide, ?_, ⟨1, rfl⟩, by decide⟩, ?_⟩
    · simp [hw, hx]
    · simp only [numeral, List.map_cons, List.map_nil, List.foldl]
      omega
    · rw [encodeChars, symbols]
      rfl
  | case3 a b =>
    obtain ⟨w, x, y, z, hw, hx, hy, hz, symbols, value⟩ := group_value a b 0
    rw [UInt8.toNat_zero] at value
    refine ⟨[w, x, y], 2, 1, ⟨?_, rfl, by decide, ?_, ⟨1, rfl⟩, by decide⟩, ?_⟩
    · simp [hw, hx, hy]
    · simp only [numeral, List.map_cons, List.map_nil, List.foldl]
      omega
    · rw [encodeChars, symbols]
      rfl
  | case4 a b c rest ih =>
    obtain ⟨w, x, y, z, hw, hx, hy, hz, symbols, value⟩ := group_value a b c
    obtain ⟨ns, unused, pads, written, same⟩ := ih
    refine ⟨[w, x, y, z] ++ ns, unused, pads, written.group hw hx hy hz value, ?_⟩
    rw [encodeChars, symbols, same, List.map_append, List.append_assoc]

/-- A byte string is written by the rule in one way only. -/
lemma Written.unique (h : Written bs ns unused pads) (h' : Written bs ms unused' pads') :
    ns = ms ∧ pads = pads' := by
  have bits := h.bits
  have bits' := h'.bits
  have few := h.few
  have few' := h'.few
  have size : ns.length = ms.length := by omega
  obtain rfl : unused = unused' := by omega
  constructor
  · have value : numeral 64 ns = numeral 64 ms := h.value.trans h'.value.symm
    rw [numeral_eq_ofDigits, numeral_eq_ofDigits] at value
    apply List.reverse_injective
    refine Nat.ofDigits_inj_of_len_eq (by decide) ?_ ?_ ?_ value
    · rw [List.length_reverse, List.length_reverse, size]
    · exact fun n there => h.small n (List.mem_reverse.1 there)
    · exact fun n there => h'.small n (List.mem_reverse.1 there)
  · have filled := h.filled
    have filled' := h'.filled
    have short := h.short
    have short' := h'.short
    omega

/-- The base64 text of a byte string is the one that the rule gives it. -/
theorem written_iff {s : String} : s = encode bs ↔ ∃ ns unused pads, Written bs ns unused pads ∧
    s.toList = ns.map symbol ++ List.replicate pads '=' := by
  obtain ⟨ns, unused, pads, written, same⟩ := written_encodeChars bs
  constructor
  · rintro rfl
    refine ⟨ns, unused, pads, written, ?_⟩
    rw [encode, String.toList_ofList, same]
  · rintro ⟨ms, unused', pads', written', same'⟩
    obtain ⟨rfl, rfl⟩ := written.unique written'
    rw [encode, same, ← same', String.ofList_toList]

end Preferences.Base64
