/-!
# Integers of bounded range

`Ranged lo hi` is the integers from `lo` to `hi`. A `Width` names one of the ranges that
preferences use, and `Word w` is its integers.
-/

namespace Preferences

/-- An integer from `lo` to `hi`. -/
structure Ranged (lo hi : Int) where
  /-- The integer itself. -/
  val : Int
  lo_le : lo ≤ val := by decide
  le_hi : val ≤ hi := by decide
  deriving DecidableEq

namespace Ranged

variable {lo hi : Int}

/-- Numbers of a range are the same where their values are. -/
@[ext] theorem ext {a b : Ranged lo hi} (h : a.val = b.val) : a = b := by
  cases a; cases b; cases h; rfl

/-- The integer, if it is in range. -/
def ofInt? (z : Int) : Option (Ranged lo hi) :=
  if h : lo ≤ z ∧ z ≤ hi then some ⟨z, h.1, h.2⟩ else none

instance : Ord (Ranged lo hi) := ⟨fun a b => compare a.val b.val⟩

/-- Numbers of a range are compared by their values. -/
theorem compare_def (a b : Ranged lo hi) : compare a b = compare a.val b.val := rfl

instance : Std.TransOrd (Ranged lo hi) where
  eq_swap {a b} := by
    rw [compare_def, compare_def]; exact Std.OrientedOrd.eq_swap
  isLE_trans {a b c} := by
    rw [compare_def, compare_def, compare_def]; exact Std.TransOrd.isLE_trans

instance : Std.LawfulEqOrd (Ranged lo hi) where
  compare_self {a} := by rw [compare_def]; exact Std.ReflOrd.compare_self
  eq_of_compare {_ _} h := ext (Std.LawfulEqOrd.eq_of_compare h)

end Ranged

/-- The integer ranges of preferences and of their fields. -/
inductive Width where
  | int32
  | int64
  | int128
  | nat8
  | nat16
  | nat32
  | nat128
  deriving DecidableEq

namespace Width

/-- The least integer of the range. -/
def lo : Width → Int
  | int32 => -0x80000000
  | int64 => -0x8000000000000000
  | int128 => -0x80000000000000000000000000000000
  | nat8 | nat16 | nat32 | nat128 => 0

/-- The greatest integer of the range. -/
def hi : Width → Int
  | int32 => 0x7fffffff
  | int64 => 0x7fffffffffffffff
  | int128 => 0x7fffffffffffffffffffffffffffffff
  | nat8 => 0xff
  | nat16 => 0xffff
  | nat32 => 0xffffffff
  | nat128 => 0xffffffffffffffffffffffffffffffff

/-- The name messages give the range. -/
def label : Width → String
  | int32 => "i32"
  | int64 => "i64"
  | int128 => "i128"
  | nat8 => "u8"
  | nat16 => "u16"
  | nat32 => "u32"
  | nat128 => "u128"

end Width

/-- The integers of a named range. -/
abbrev Word (w : Width) := Ranged w.lo w.hi

/-- Decimal digits of a natural number. -/
def natDigits (n : Nat) : List Char := Nat.toDigits 10 n

/-- Decimal text of an integer, with `-` before a negative one. -/
def intDigits : Int → List Char
  | .ofNat n => natDigits n
  | .negSucc n => '-' :: natDigits (n + 1)

end Preferences
