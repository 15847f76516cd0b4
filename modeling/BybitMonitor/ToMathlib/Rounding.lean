import Mathlib

/-!
# Rounding to a grid

Rounding to a nearest multiple of a unit, with any rule for the ties, and the unit that leaves a
number with a given count of digits in some base.

* `RoundsNearest.le_onGrid`, `RoundsNearest.onGrid_le`: rounding does not cross a multiple.
* `RoundsNearest.abs_onGrid_sub_le`: rounding moves a number by half a unit at most.
* `RoundsNearest.onGrid_eq_of_close`: the multiple that a number is close to.
* `digitUnit_le`: the unit in terms of the number.
-/

variable {K : Type*} [Field K] [LinearOrder K] [IsStrictOrderedRing K]

/-- A rounding to a nearest integer. -/
structure RoundsNearest (rnd : K → ℤ) : Prop where
  mono : Monotone rnd
  abs_sub_le (x : K) : |(rnd x : K) - x| ≤ 1 / 2

/-- A multiple of a unit above another one is above it by a unit. -/
theorem add_unit_le_multiple {unit : K} (hunit : 0 < unit) {m n : ℤ}
    (hlt : (m * unit : K) < n * unit) : (m * unit : K) + unit ≤ n * unit := by
  have hmn : m + 1 ≤ n := by exact_mod_cast (mul_lt_mul_iff_left₀ hunit).mp hlt
  have hcast : ((m : K) + 1) ≤ n := by exact_mod_cast hmn
  calc (m * unit : K) + unit = (m + 1) * unit := by ring
    _ ≤ n * unit := mul_le_mul_of_nonneg_right hcast hunit.le

/-- Multiples of a unit that are closer than it are one. -/
theorem multiple_eq_of_close {unit : K} (hunit : 0 < unit) {m n : ℤ}
    (hclose : |(m * unit : K) - n * unit| < unit) : (m * unit : K) = n * unit := by
  obtain ⟨hlower, hupper⟩ := abs_lt.mp hclose
  rcases lt_trichotomy (m * unit : K) (n * unit) with hlt | heq | hgt
  · have := add_unit_le_multiple hunit hlt
    linarith
  · exact heq
  · have := add_unit_le_multiple hunit hgt
    linarith

/-- Round to a multiple of `unit`. -/
def onGrid (rnd : K → ℤ) (unit x : K) : K := rnd (x / unit) * unit

namespace RoundsNearest

variable {rnd : K → ℤ} {unit x : K}

/-- An integer stays what it is. -/
theorem intCast (h : RoundsNearest rnd) (n : ℤ) : rnd n = n := by
  have hdist : |((rnd n - n : ℤ) : K)| < 1 := by
    push_cast
    exact (h.abs_sub_le n).trans_lt (by norm_num)
  have hzero : |rnd n - n| < 1 := by exact_mod_cast hdist
  have := Int.abs_lt_one_iff.mp hzero
  omega

/-- A multiple of the unit stays what it is. -/
theorem onGrid_multiple (h : RoundsNearest rnd) (hunit : unit ≠ 0) (m : ℤ) :
    onGrid rnd unit (m * unit) = m * unit := by
  rw [onGrid, mul_div_cancel_right₀ _ hunit, h.intCast]

/-- Rounding is monotone. -/
theorem onGrid_mono (h : RoundsNearest rnd) (hunit : 0 < unit) : Monotone (onGrid rnd unit) := by
  intro x y hxy
  have hdiv : x / unit ≤ y / unit := by gcongr
  have hrnd : (rnd (x / unit) : K) ≤ rnd (y / unit) := by exact_mod_cast h.mono hdiv
  exact mul_le_mul_of_nonneg_right hrnd hunit.le

/-- Rounding does not fall below a multiple that the number reaches. -/
theorem le_onGrid (h : RoundsNearest rnd) (hunit : 0 < unit) {m : ℤ} (hle : m * unit ≤ x) :
    m * unit ≤ onGrid rnd unit x :=
  (h.onGrid_multiple hunit.ne' m).symm.trans_le (h.onGrid_mono hunit hle)

/-- Rounding does not exceed a multiple that bounds the number. -/
theorem onGrid_le (h : RoundsNearest rnd) (hunit : 0 < unit) {m : ℤ} (hle : x ≤ m * unit) :
    onGrid rnd unit x ≤ m * unit :=
  (h.onGrid_mono hunit hle).trans_eq (h.onGrid_multiple hunit.ne' m)

/-- Rounding moves a number by half a unit at most. -/
theorem abs_onGrid_sub_le (h : RoundsNearest rnd) (hunit : 0 < unit) :
    |onGrid rnd unit x - x| ≤ unit / 2 := by
  have hscaled : onGrid rnd unit x - x = (rnd (x / unit) - x / unit) * unit := by
    rw [onGrid]
    field_simp
  rw [hscaled, abs_mul, abs_of_pos hunit]
  calc |(rnd (x / unit) : K) - x / unit| * unit ≤ 1 / 2 * unit := by
        gcongr
        exact h.abs_sub_le _
    _ = unit / 2 := by ring

/-- A number is rounded to the multiple next to it. -/
theorem onGrid_eq_of_close (h : RoundsNearest rnd) (hunit : 0 < unit) {m : ℤ}
    (hclose : |x - m * unit| < unit / 2) : onGrid rnd unit x = m * unit := by
  have hround : |onGrid rnd unit x - x| ≤ unit / 2 := h.abs_onGrid_sub_le hunit
  refine multiple_eq_of_close hunit ?_
  calc |onGrid rnd unit x - m * unit|
      = |(onGrid rnd unit x - x) + (x - m * unit)| := by rw [sub_add_sub_cancel]
    _ ≤ |onGrid rnd unit x - x| + |x - m * unit| := abs_add_le _ _
    _ < unit := by linarith

end RoundsNearest

/-! ## Units by digits -/

variable [FloorRing K]

/-- The unit that leaves `x` with `digits` digits in base `base`. -/
def digitUnit (base digits : ℕ) (x : K) : K := (base : K) ^ (Int.log base |x| + 1 - digits)

variable {base digits : ℕ} {x : K}

theorem digitUnit_pos (hbase : 1 < base) : 0 < digitUnit base digits x :=
  zpow_pos (by exact_mod_cast Nat.zero_lt_of_lt hbase) _

/-- The unit in terms of the number. -/
theorem digitUnit_le (hbase : 1 < base) (hx : x ≠ 0) :
    digitUnit base digits x ≤ |x| * (base : K) ^ (1 - digits : ℤ) := by
  have hpos : (0 : K) < base := by exact_mod_cast Nat.zero_lt_of_lt hbase
  rw [digitUnit, show Int.log base |x| + 1 - (digits : ℤ) = Int.log base |x| + (1 - digits) by ring,
    zpow_add₀ hpos.ne']
  exact mul_le_mul_of_nonneg_right (Int.zpow_log_le_self hbase (abs_pos.mpr hx))
    (zpow_pos hpos _).le

/-- A power of the base is a multiple of a smaller one. -/
theorem zpow_eq_multiple (hbase : 1 < base) {m n : ℤ} (hle : m ≤ n) :
    (base : K) ^ n = ((base ^ (n - m).toNat : ℕ) : ℤ) * (base : K) ^ m := by
  have hpos : (0 : K) < base := by exact_mod_cast Nat.zero_lt_of_lt hbase
  push_cast
  rw [← zpow_natCast, Int.toNat_of_nonneg (by omega), ← zpow_add₀ hpos.ne']
  congr 1
  omega
