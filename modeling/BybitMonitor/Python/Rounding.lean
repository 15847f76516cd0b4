import Mathlib
import BybitMonitor.Python.Decimal
import BybitMonitor.ToMathlib.Rounding

/-!
# The rounding of Python numbers

`roundHalfEven` rounds to a nearest integer, so that the roundings of `Decimal` and of binary64 are
roundings to a grid.

* `PyDecimal.abs_round_sub_le`: the relative error of the default context.
* `PyFloat.roundBinary64_finite_iff`: the numbers that do not overflow.
* `PyFloat.roundBinary64_of_binary`: a binary64 number stays what it is.
* `PyFloat.roundBinary64_mono`: rounding keeps the order.
-/

namespace BybitMonitor

namespace PyFloat

theorem abs_roundHalfEven_sub_le (x : ℚ) : |(roundHalfEven x : ℚ) - x| ≤ 1 / 2 := by
  have hle := Int.floor_le x
  have hlt := Int.lt_floor_add_one x
  rw [roundHalfEven, abs_le]
  split_ifs with hbelow htie
  · constructor <;> linarith
  · constructor <;> linarith
  · push_cast
    constructor <;> linarith

theorem roundHalfEven_mono : Monotone roundHalfEven := by
  intro x y hxy
  have hfloor : ⌊x⌋ ≤ ⌊y⌋ := Int.floor_mono hxy
  simp only [roundHalfEven]
  rcases hfloor.lt_or_eq with hlt | heq
  · -- at least the next integer is reached
    split_ifs <;> omega
  · -- over the same floor, the larger distance is rounded up if the smaller one is
    rw [heq]
    split_ifs <;> grind

/-- `roundHalfEven` rounds to a nearest integer. -/
theorem roundsNearest : RoundsNearest roundHalfEven :=
  ⟨roundHalfEven_mono, abs_roundHalfEven_sub_le⟩

/-- Rounding does not favour a sign. -/
theorem roundHalfEven_neg (x : ℚ) : roundHalfEven (-x) = -roundHalfEven x := by
  by_cases hint : (⌊x⌋ : ℚ) = x
  · rw [← hint, ← Int.cast_neg, roundsNearest.intCast, roundsNearest.intCast]
  · have hlt : (⌊x⌋ : ℚ) < x := lt_of_le_of_ne (Int.floor_le x) hint
    have hfloor : ⌊-x⌋ = -⌊x⌋ - 1 := by
      have := Int.lt_floor_add_one x
      rw [Int.floor_eq_iff]
      push_cast
      constructor <;> linarith
    unfold roundHalfEven
    simp only [hfloor, Int.cast_sub, Int.cast_neg, Int.cast_one]
    generalize ⌊x⌋ = n at *
    rcases lt_trichotomy (x - n) (1 / 2) with h | h | h
    · rw [if_neg (by linarith), if_neg (by intro h'; linarith [h'.1]), if_pos h]
      ring
    · -- a tie goes to the even one of the two integers
      have h' : -x - (-n - 1) = (1 / 2 : ℚ) := by linarith
      rw [h, h']
      by_cases heven : n % 2 = 0
      · rw [if_neg (lt_irrefl _), if_neg (by omega), if_neg (lt_irrefl _), if_pos ⟨rfl, heven⟩]
        ring
      · rw [if_neg (lt_irrefl _), if_pos ⟨rfl, by omega⟩, if_neg (lt_irrefl _),
          if_neg fun h => heven h.2]
        ring
    · rw [if_pos (by linarith), if_neg (by linarith), if_neg (by intro h'; linarith [h'.1])]
      ring

end PyFloat

/-! ## Decimals -/

namespace PyDecimal

variable {x : ℚ}

theorem round_eq (hx : x ≠ 0) :
    round x = onGrid PyFloat.roundHalfEven (digitUnit 10 precision x) x := by
  rw [round, if_neg hx]
  rfl

/-- The relative error of the default context. -/
theorem abs_round_sub_le (x : ℚ) : |round x - x| ≤ |x| / (2 * 10 ^ 27) := by
  by_cases hx : x = 0
  · simp [hx, round]
  · have hunit : digitUnit 10 precision x ≤ |x| / 10 ^ 27 := by
      refine (digitUnit_le (by norm_num) hx).trans_eq ?_
      rw [div_eq_mul_inv, ← zpow_natCast, ← zpow_neg]
      rfl
    rw [round_eq hx]
    calc |onGrid PyFloat.roundHalfEven (digitUnit 10 precision x) x - x|
        ≤ digitUnit 10 precision x / 2 :=
          PyFloat.roundsNearest.abs_onGrid_sub_le (digitUnit_pos (by norm_num))
      _ ≤ |x| / 10 ^ 27 / 2 := by gcongr
      _ = |x| / (2 * 10 ^ 27) := by rw [div_div, mul_comm]

end PyDecimal

/-! ## Binary64 -/

namespace PyFloat

variable {x r : ℚ}

/-- The distance between the binary64 numbers around `x`. -/
def binaryUnit (x : ℚ) : ℚ := 2 ^ max (Int.log 2 |x| - 52) (-1074)

theorem binaryUnit_pos (x : ℚ) : 0 < binaryUnit x := by
  unfold binaryUnit
  positivity

/-- A number is rounded to a multiple of its unit, unless that overflows. -/
theorem roundBinary64_eq (hx : x ≠ 0) :
    roundBinary64 x =
      if 2 ^ 1024 ≤ |onGrid roundHalfEven (binaryUnit x) x| then inf (decide (x < 0))
      else finite (onGrid roundHalfEven (binaryUnit x) x) := by
  rw [roundBinary64, if_neg hx]
  rfl

/-- A finite result is a multiple of the unit. -/
theorem eq_onGrid_of_roundBinary64 (h : roundBinary64 x = finite r) :
    r = onGrid roundHalfEven (binaryUnit x) x ∧ |r| < 2 ^ 1024 := by
  by_cases hx : x = 0
  · rw [hx, roundBinary64, if_pos rfl] at h
    obtain rfl := finite.inj h
    simp [hx, onGrid, roundHalfEven]
  · rw [roundBinary64_eq hx] at h
    split at h
    · cases h
    · obtain rfl := finite.inj h
      exact ⟨rfl, not_le.mp ‹_›⟩

/-- The unit of a number is small against it, or the least one. -/
theorem binaryUnit_le (hx : x ≠ 0) : binaryUnit x ≤ max (|x| / 2 ^ 52) (2 ^ (-1074 : ℤ)) := by
  have hlog : (2 : ℚ) ^ Int.log 2 |x| ≤ |x| := by
    exact_mod_cast Int.zpow_log_le_self (R := ℚ) (b := 2) (by norm_num) (abs_pos.mpr hx)
  rcases le_total (Int.log 2 |x| - 52) (-1074) with hle | hle
  · rw [binaryUnit, max_eq_right hle]
    exact le_max_right _ _
  · rw [binaryUnit, max_eq_left hle, zpow_sub₀ two_ne_zero]
    refine le_max_of_le_left ?_
    have hpow : (2 : ℚ) ^ (52 : ℤ) = 2 ^ 52 := by norm_num
    rw [hpow]
    gcongr

/-- Numbers up to 2 ^ 1023 do not overflow. -/
theorem roundBinary64_finite (hle : |x| ≤ 2 ^ 1023) : ∃ r, roundBinary64 x = finite r := by
  by_cases hx : x = 0
  · exact ⟨0, by rw [hx, roundBinary64, if_pos rfl]⟩
  · have hunit : binaryUnit x ≤ 2 ^ 1023 := by
      refine (binaryUnit_le hx).trans (max_le ?_ ?_)
      · refine (div_le_self (abs_nonneg x) ?_).trans hle
        norm_num
      · exact_mod_cast zpow_le_zpow_right₀ (a := (2 : ℚ)) (m := -1074) (n := 1023)
          (by norm_num) (by norm_num)
    have hdist := roundsNearest.abs_onGrid_sub_le (binaryUnit_pos x) (x := x)
    have habs : |onGrid roundHalfEven (binaryUnit x) x| < 2 ^ 1024 := by
      have htriangle := abs_sub_abs_le_abs_sub (onGrid roundHalfEven (binaryUnit x) x) x
      have hpos : (0 : ℚ) < 2 ^ 1023 := by positivity
      rw [show (2 : ℚ) ^ 1024 = 2 * 2 ^ 1023 from pow_succ' 2 1023]
      generalize (2 : ℚ) ^ 1023 = bound at *
      linarith
    exact ⟨_, by rw [roundBinary64_eq hx, if_neg (not_le.mpr habs)]⟩

/-- Half a unit above the greatest binary64 number, where numbers begin to overflow. -/
def binary64Limit : ℚ := 2 ^ 1024 - 2 ^ 970

/-- The unit of the largest binary64 numbers. -/
theorem binaryUnit_top (hge : 2 ^ 1023 ≤ |x|) (hlt : |x| < 2 ^ 1024) : binaryUnit x = 2 ^ 971 := by
  have hpos : 0 < |x| := lt_of_lt_of_le (by positivity) hge
  have hlower : 1023 ≤ Int.log 2 |x| := by
    rw [← Int.zpow_le_iff_le_log (by norm_num) hpos]
    exact_mod_cast hge
  have hupper : Int.log 2 |x| < 1024 := by
    rw [← Int.lt_zpow_iff_log_lt (by norm_num) hpos]
    exact_mod_cast hlt
  rw [binaryUnit, show max (Int.log 2 |x| - 52) (-1074) = ((971 : ℕ) : ℤ) by omega, zpow_natCast]

/-- A number reaches the power of two below it after rounding. -/
theorem zpow_log_le_abs_onGrid (hx : x ≠ 0) (hlog : -1022 ≤ Int.log 2 |x|) :
    (2 : ℚ) ^ Int.log 2 |x| ≤ |onGrid roundHalfEven (binaryUnit x) x| := by
  have hunit : (2 : ℚ) ^ Int.log 2 |x| = ((2 ^ 52 : ℤ) : ℚ) * binaryUnit x := by
    rw [binaryUnit, max_eq_left (by omega), zpow_sub₀ two_ne_zero]
    norm_num
    ring
  have hle : (2 : ℚ) ^ Int.log 2 |x| ≤ |x| := by
    exact_mod_cast Int.zpow_log_le_self (R := ℚ) (b := 2) (by norm_num) (abs_pos.mpr hx)
  rw [hunit] at hle ⊢
  rcases le_total 0 x with hpos | hneg
  · rw [abs_of_nonneg hpos] at hle
    exact (roundsNearest.le_onGrid (binaryUnit_pos x) hle).trans (le_abs_self _)
  · rw [abs_of_nonpos hneg] at hle
    have hle' : x ≤ ((-2 ^ 52 : ℤ) : ℚ) * binaryUnit x := by
      push_cast at hle ⊢
      linarith
    have hgrid := roundsNearest.onGrid_le (binaryUnit_pos x) hle'
    refine le_trans ?_ (neg_le_abs _)
    push_cast at hgrid ⊢
    linarith

/-- The halfway points next to the end of the range are rounded away from it. -/
theorem roundHalfEven_end :
    roundHalfEven (2 ^ 53 - 1 / 2) = 2 ^ 53 ∧ roundHalfEven (-(2 ^ 53 - 1 / 2)) = -2 ^ 53 := by
  constructor <;> decide +kernel

/-- In the last binade, the numbers below the limit stay in the range. -/
theorem abs_onGrid_top_lt_iff (hunit : binaryUnit x = 2 ^ 971) :
    |onGrid roundHalfEven (binaryUnit x) x| < 2 ^ 1024 ↔ |x| < binary64Limit := by
  have htop : (2 : ℚ) ^ 1024 = 2 ^ 53 * 2 ^ 971 := by rw [← pow_add]
  have hhalf : (2 : ℚ) ^ 971 = 2 * 2 ^ 970 := by rw [← pow_succ']
  have hpos : (0 : ℚ) < 2 ^ 971 := by positivity
  have hlimit : (2 : ℚ) ^ 53 * 2 ^ 971 - 2 ^ 970 = (2 ^ 53 - 1 / 2) * 2 ^ 971 := by
    generalize (2 : ℚ) ^ 970 = half at *
    rw [hhalf]
    ring
  rw [onGrid, hunit, binary64Limit, htop, hlimit, abs_mul, abs_of_pos hpos,
    mul_lt_mul_iff_left₀ hpos]
  -- in units of the last binade
  obtain ⟨y, rfl⟩ : ∃ y, x = y * 2 ^ 971 := ⟨x / 2 ^ 971, by rw [div_mul_cancel₀ _ hpos.ne']⟩
  rw [mul_div_cancel_right₀ _ hpos.ne', abs_mul, abs_of_pos hpos, mul_lt_mul_iff_left₀ hpos]
  constructor
  · intro hlt
    by_contra hge
    rw [not_lt] at hge
    rcases le_total 0 y with hy | hy
    · rw [abs_of_nonneg hy] at hge
      have hround := roundHalfEven_mono hge
      rw [roundHalfEven_end.1] at hround
      have hle : (2 : ℚ) ^ 53 ≤ roundHalfEven y := by exact_mod_cast hround
      exact absurd hlt (not_lt.mpr (hle.trans (le_abs_self _)))
    · rw [abs_of_nonpos hy] at hge
      have hround := roundHalfEven_mono (le_neg_of_le_neg hge)
      rw [roundHalfEven_end.2] at hround
      have hle : (roundHalfEven y : ℚ) ≤ -2 ^ 53 := by exact_mod_cast hround
      exact absurd hlt (not_lt.mpr ((le_neg_of_le_neg hle).trans (neg_le_abs _)))
  · intro hlt
    have hdist := abs_roundHalfEven_sub_le y
    have htriangle := abs_sub_abs_le_abs_sub (roundHalfEven y : ℚ) y
    linarith

/-- The numbers that do not overflow. -/
theorem roundBinary64_finite_iff :
    (∃ r, roundBinary64 x = finite r) ↔ |x| < binary64Limit := by
  have hsmall : (2 : ℚ) ^ 1023 < binary64Limit := by
    have hdouble : (2 : ℚ) ^ 1024 = 2 * 2 ^ 1023 := pow_succ' 2 1023
    have hlt : (2 : ℚ) ^ 970 < 2 ^ 1023 := pow_lt_pow_right₀ (by norm_num) (by norm_num)
    rw [binary64Limit, hdouble, two_mul, add_sub_assoc]
    exact lt_add_of_pos_right _ (sub_pos.mpr hlt)
  have hlarge : binary64Limit < 2 ^ 1024 := sub_lt_self _ (by positivity)
  rcases le_or_gt |x| (2 ^ 1023) with hle | hgt
  · exact iff_of_true (roundBinary64_finite hle) (hle.trans_lt hsmall)
  have hx : x ≠ 0 := by
    rintro rfl
    rw [abs_zero] at hgt
    exact absurd hgt (not_lt.mpr (by positivity))
  have hfinite : (∃ r, roundBinary64 x = finite r) ↔
      |onGrid roundHalfEven (binaryUnit x) x| < 2 ^ 1024 := by
    rw [roundBinary64_eq hx]
    split
    · exact iff_of_false (by simp) (not_lt.mpr ‹_›)
    · exact iff_of_true ⟨_, rfl⟩ (not_le.mp ‹_›)
  rw [hfinite]
  rcases lt_or_ge |x| (2 ^ 1024) with hlt | hge
  · exact abs_onGrid_top_lt_iff (binaryUnit_top hgt.le hlt)
  · -- beyond the last binade
    have hlog : 1024 ≤ Int.log 2 |x| := by
      rw [← Int.zpow_le_iff_le_log (by norm_num) (abs_pos.mpr hx)]
      exact_mod_cast hge
    have hreach := zpow_log_le_abs_onGrid hx (by omega)
    have hpow : (2 : ℚ) ^ 1024 ≤ 2 ^ Int.log 2 |x| := by
      rw [← zpow_natCast]
      exact zpow_le_zpow_right₀ (by norm_num) (by exact_mod_cast hlog)
    exact iff_of_false (not_lt.mpr (hpow.trans hreach)) (not_lt.mpr (hlarge.le.trans hge))

/-- A multiple of a larger power of two is a multiple of the unit. -/
theorem multiple_binaryUnit {e : ℤ} (m : ℤ) (hle : max (Int.log 2 |x| - 52) (-1074) ≤ e) :
    ∃ n : ℤ, (m * 2 ^ e : ℚ) = n * binaryUnit x := by
  have hmultiple := zpow_eq_multiple (K := ℚ) (show 1 < 2 by norm_num) hle
  refine ⟨m * ((2 ^ (e - max (Int.log 2 |x| - 52) (-1074)).toNat : ℕ) : ℤ), ?_⟩
  rw [Nat.cast_ofNat] at hmultiple
  rw [binaryUnit, Int.cast_mul, mul_assoc, ← hmultiple]

/-- A multiple of a power of two that its unit divides is a multiple of its unit. -/
theorem eq_multiple_binaryUnit {n e : ℤ} (hr : r = n * 2 ^ e)
    (hle : max (Int.log 2 |r| - 52) (-1074) ≤ e) : ∃ m : ℤ, r = m * binaryUnit r := by
  obtain ⟨m, hm⟩ := multiple_binaryUnit n hle
  exact ⟨m, hr.trans hm⟩

/-- A multiple of its unit within the range stays what it is. -/
theorem roundBinary64_of_multiple {m : ℤ} (hr : r = m * binaryUnit r) (hlt : |r| < 2 ^ 1024) :
    roundBinary64 r = finite r := by
  by_cases hzero : r = 0
  · rw [hzero, roundBinary64, if_pos rfl]
  · have hgrid : onGrid roundHalfEven (binaryUnit r) r = r := by
      calc onGrid roundHalfEven (binaryUnit r) r
          = onGrid roundHalfEven (binaryUnit r) (m * binaryUnit r) := congrArg _ hr
        _ = m * binaryUnit r := roundsNearest.onGrid_multiple (binaryUnit_pos r).ne' m
        _ = r := hr.symm
    rw [roundBinary64_eq hzero, hgrid, if_neg (not_le.mpr hlt)]

/-- A binary64 number is a multiple of its unit. -/
theorem exists_eq_multiple (h : roundBinary64 x = finite r) : ∃ m : ℤ, r = m * binaryUnit r := by
  obtain ⟨heq, hlt⟩ := eq_onGrid_of_roundBinary64 h
  by_cases hr : r = 0
  · exact ⟨0, by rw [hr]; simp⟩
  · set e := max (Int.log 2 |x| - 52) (-1074) with he
    have hr' : r = roundHalfEven (x / binaryUnit x) * 2 ^ e := heq
    -- rounding does not leave the binade, except for its upper end
    have hbound : |r| ≤ 2 ^ (e + 53) := by
      have hx : |x| ≤ 2 ^ (e + 53) := by
        have hlog : |x| < 2 ^ (Int.log 2 |x| + 1) := by
          exact_mod_cast Int.lt_zpow_succ_log_self (R := ℚ) (b := 2) (by norm_num) |x|
        refine hlog.le.trans (zpow_le_zpow_right₀ (by norm_num) ?_)
        omega
      have hend : (2 : ℚ) ^ (e + 53) = ((2 ^ 53 : ℤ) : ℚ) * binaryUnit x := by
        rw [binaryUnit, ← he, zpow_add₀ two_ne_zero, mul_comm]
        norm_num
      rw [heq, hend]
      rw [hend] at hx
      obtain ⟨hlower, hupper⟩ := abs_le.mp hx
      refine abs_le.mpr ⟨?_, roundsNearest.onGrid_le (binaryUnit_pos x) hupper⟩
      have hneg : ((-2 ^ 53 : ℤ) : ℚ) * binaryUnit x ≤ x := by
        push_cast
        push_cast at hlower
        linarith
      have hle := roundsNearest.le_onGrid (binaryUnit_pos x) hneg
      push_cast at hle ⊢
      linarith
    rcases hbound.lt_or_eq with hbelow | hend
    · have hlog : Int.log 2 |r| < e + 53 := by
        rw [← Int.lt_zpow_iff_log_lt (by norm_num) (abs_pos.mpr hr)]
        exact_mod_cast hbelow
      exact eq_multiple_binaryUnit hr' (by omega)
    · have hlog : Int.log 2 |r| = e + 53 := by
        rw [hend]
        exact_mod_cast Int.log_zpow (R := ℚ) (b := 2) (by norm_num) (e + 53)
      -- a power of two
      obtain ⟨n, hn⟩ : ∃ n : ℤ, r = n * 2 ^ (e + 53) := by
        rcases abs_choice r with habs | habs
        · exact ⟨1, by rw [← hend, habs]; simp⟩
        · exact ⟨-1, by rw [← hend, habs]; simp⟩
      exact eq_multiple_binaryUnit hn (by omega)

/-- A binary64 number stays what it is. -/
theorem roundBinary64_of_binary (h : roundBinary64 x = finite r) : roundBinary64 r = finite r := by
  obtain ⟨m, hm⟩ := exists_eq_multiple h
  exact roundBinary64_of_multiple hm (eq_onGrid_of_roundBinary64 h).2

/-- Rounding does not exceed a multiple that bounds the number. -/
theorem roundBinary64_le {m e : ℤ} (h : roundBinary64 x = finite r)
    (hexp : max (Int.log 2 |x| - 52) (-1074) ≤ e) (hle : x ≤ m * 2 ^ e) : r ≤ m * 2 ^ e := by
  obtain ⟨n, hn⟩ := multiple_binaryUnit m hexp
  rw [(eq_onGrid_of_roundBinary64 h).1, hn]
  exact roundsNearest.onGrid_le (binaryUnit_pos x) (hn ▸ hle)

/-- Rounding does not fall below a multiple that the number reaches. -/
theorem le_roundBinary64 {m e : ℤ} (h : roundBinary64 x = finite r)
    (hexp : max (Int.log 2 |x| - 52) (-1074) ≤ e) (hle : m * 2 ^ e ≤ x) : m * 2 ^ e ≤ r := by
  obtain ⟨n, hn⟩ := multiple_binaryUnit m hexp
  rw [(eq_onGrid_of_roundBinary64 h).1, hn]
  exact roundsNearest.le_onGrid (binaryUnit_pos x) (hn ▸ hle)

/-! ### Order -/

variable {y : ℚ}

/-- Between the absolute values of numbers with different units lies a power of two that is a
multiple of both units. -/
theorem zpow_between (hx : x ≠ 0) (hle : |x| ≤ |y|) (hne : binaryUnit x ≠ binaryUnit y) :
    ∃ e, |x| ≤ 2 ^ e ∧ 2 ^ e ≤ |y| ∧ max (Int.log 2 |x| - 52) (-1074) ≤ e ∧
      max (Int.log 2 |y| - 52) (-1074) ≤ e := by
  have hpos : 0 < |x| := abs_pos.mpr hx
  have hlog : Int.log 2 |x| ≤ Int.log 2 |y| := Int.log_mono_right hpos hle
  have hexp : max (Int.log 2 |x| - 52) (-1074) ≠ max (Int.log 2 |y| - 52) (-1074) :=
    fun heq => hne (by rw [binaryUnit, binaryUnit, heq])
  -- the smaller number lies in an earlier binade
  refine ⟨Int.log 2 |y|, ?_, ?_, by omega, by omega⟩
  · have hlt : |x| < 2 ^ (Int.log 2 |x| + 1) := by
      exact_mod_cast Int.lt_zpow_succ_log_self (R := ℚ) (b := 2) (by norm_num) |x|
    exact hlt.le.trans (zpow_le_zpow_right₀ (by norm_num) (by omega))
  · exact_mod_cast Int.zpow_log_le_self (R := ℚ) (b := 2) (by norm_num) (hpos.trans_le hle)

/-- Between numbers with different units lies a multiple of both units. -/
theorem multiple_between (hxy : x ≤ y) (hne : binaryUnit x ≠ binaryUnit y) :
    ∃ m n : ℤ, x ≤ m * binaryUnit x ∧ (m * binaryUnit x : ℚ) = n * binaryUnit y ∧
      n * binaryUnit y ≤ y := by
  rcases lt_or_ge 0 x with hpos | hx
  · have hle : |x| ≤ |y| := by rwa [abs_of_pos hpos, abs_of_pos (hpos.trans_le hxy)]
    obtain ⟨e, hlower, hupper, hex, hey⟩ := zpow_between hpos.ne' hle hne
    obtain ⟨m, hm⟩ := multiple_binaryUnit 1 hex
    obtain ⟨n, hn⟩ := multiple_binaryUnit 1 hey
    rw [Int.cast_one, one_mul] at hm hn
    rw [abs_of_pos hpos, hm] at hlower
    rw [abs_of_pos (hpos.trans_le hxy), hn] at hupper
    exact ⟨m, n, hlower, hm.symm.trans hn, hupper⟩
  rcases lt_or_ge y 0 with hneg | hy
  · -- the mirror image
    have hle : |y| ≤ |x| := by
      rw [abs_of_neg hneg, abs_of_nonpos hx]
      exact neg_le_neg hxy
    obtain ⟨e, hlower, hupper, hey, hex⟩ := zpow_between hneg.ne hle hne.symm
    obtain ⟨m, hm⟩ := multiple_binaryUnit (-1) hex
    obtain ⟨n, hn⟩ := multiple_binaryUnit (-1) hey
    rw [Int.cast_neg, Int.cast_one, neg_one_mul] at hm hn
    rw [abs_of_neg hneg] at hlower
    rw [abs_of_nonpos hx] at hupper
    refine ⟨m, n, ?_, hm.symm.trans hn, ?_⟩
    · rw [← hm]
      exact le_neg_of_le_neg hupper
    · rw [← hn]
      exact neg_le.mp hlower
  · exact ⟨0, 0, by simpa using hx, by simp, by simpa using hy⟩

/-- Rounding to the unit of each number keeps the order. -/
theorem onGrid_binaryUnit_mono :
    Monotone fun x => onGrid roundHalfEven (binaryUnit x) x := by
  intro x y hxy
  dsimp only
  by_cases heq : binaryUnit x = binaryUnit y
  · rw [heq]
    exact roundsNearest.onGrid_mono (binaryUnit_pos y) hxy
  · -- neither rounding crosses a multiple of both units
    obtain ⟨m, n, hx, hmn, hy⟩ := multiple_between hxy heq
    calc onGrid roundHalfEven (binaryUnit x) x
        ≤ m * binaryUnit x := roundsNearest.onGrid_le (binaryUnit_pos x) hx
      _ = n * binaryUnit y := hmn
      _ ≤ onGrid roundHalfEven (binaryUnit y) y := roundsNearest.le_onGrid (binaryUnit_pos y) hy

/-- The sign of a rounded number. -/
theorem onGrid_binaryUnit_sign :
    (0 ≤ x → 0 ≤ onGrid roundHalfEven (binaryUnit x) x) ∧
      (x ≤ 0 → onGrid roundHalfEven (binaryUnit x) x ≤ 0) := by
  have hzero : ((0 : ℤ) : ℚ) * binaryUnit x = 0 := by simp
  constructor
  · intro hx
    rw [← hzero]
    exact roundsNearest.le_onGrid (binaryUnit_pos x) (by rwa [hzero])
  · intro hx
    rw [← hzero]
    exact roundsNearest.onGrid_le (binaryUnit_pos x) (by rwa [hzero])

/-- Every number is rounded to its grid, unless that overflows. -/
theorem roundBinary64_eq_onGrid (x : ℚ) :
    roundBinary64 x =
      if 2 ^ 1024 ≤ |onGrid roundHalfEven (binaryUnit x) x| then inf (decide (x < 0))
      else finite (onGrid roundHalfEven (binaryUnit x) x) := by
  by_cases hx : x = 0
  · have hgrid : onGrid roundHalfEven (binaryUnit x) x = 0 :=
      le_antisymm (onGrid_binaryUnit_sign.2 hx.le) (onGrid_binaryUnit_sign.1 hx.ge)
    have hpos : ¬ (2 : ℚ) ^ 1024 ≤ 0 := not_le.mpr (by positivity)
    rw [hgrid, abs_zero, if_neg hpos, hx, roundBinary64, if_pos rfl]
  · exact roundBinary64_eq hx

/-- Rounding keeps the order. -/
theorem roundBinary64_mono (hxy : x ≤ y) : (roundBinary64 x).le (roundBinary64 y) = true := by
  have hgrid : onGrid roundHalfEven (binaryUnit x) x ≤ onGrid roundHalfEven (binaryUnit y) y :=
    onGrid_binaryUnit_mono hxy
  rw [roundBinary64_eq_onGrid, roundBinary64_eq_onGrid]
  have hx := @onGrid_binaryUnit_sign x
  have hy := @onGrid_binaryUnit_sign y
  generalize onGrid roundHalfEven (binaryUnit x) x = a at *
  generalize onGrid roundHalfEven (binaryUnit y) y = b at *
  generalize (2 : ℚ) ^ 1024 = limit
  split_ifs with hover hover' hover'
  · -- numbers that both overflow have their own signs
    by_cases hneg : x < 0
    · cases hside : decide (y < 0) <;> simp [hneg, le, lt]
    · have hpos : ¬ y < 0 := not_lt.mpr ((not_lt.mp hneg).trans hxy)
      simp [hneg, hpos, le, lt]
  · -- only a negative number can overflow below one that does not
    have hneg : x < 0 := by
      by_contra hnonneg
      have ha := hx.1 (not_lt.mp hnonneg)
      rw [abs_of_nonneg ha] at hover
      rw [abs_of_nonneg (ha.trans hgrid)] at hover'
      exact hover' (hover.trans hgrid)
    simp [hneg, le, lt]
  · have hpos : ¬ y < 0 := by
      intro hneg
      have hb := hy.2 hneg.le
      rw [abs_of_nonpos hb] at hover'
      rw [abs_of_nonpos (hgrid.trans hb)] at hover
      exact hover (hover'.trans (neg_le_neg hgrid))
    simp [hpos, le, lt]
  · simpa [le, lt] using hgrid

/-- The order of floats is transitive. -/
theorem le_of_le_of_le {a b c : PyFloat} (hab : a.le b = true) (hbc : b.le c = true) :
    a.le c = true := by
  rcases a with _ | (_ | _) | x <;> rcases b with _ | (_ | _) | y <;>
    rcases c with _ | (_ | _) | z <;> simp_all [le, lt]
  exact hab.trans hbc

/-- The earlier the start, the more time has elapsed. -/
theorem elapsed_anti_since {now earlier since : ℚ} (hle : earlier ≤ since) :
    (elapsed now since).le (elapsed now earlier) = true :=
  roundBinary64_mono (sub_le_sub_left hle now)

/-! ## Decimals of a binary64 number -/

/-- `round(x, digits)`. -/
def roundTo (digits : ℕ) : PyFloat → PyFloat
  | finite x => roundBinary64 ((roundHalfEven (x * 10 ^ digits) : ℚ) / 10 ^ digits)
  | x => x

/-- `round` does not overflow. -/
theorem roundTo_isFinite (h : roundBinary64 x = finite r) (digits : ℕ) :
    ((finite r).roundTo digits).isFinite = true := by
  suffices hfinite : ∃ y, (finite r).roundTo digits = finite y by
    obtain ⟨y, hy⟩ := hfinite
    rw [hy]
    rfl
  have hscale : (0 : ℚ) < 10 ^ digits := by positivity
  rw [roundTo]
  rcases le_or_gt |r| (2 ^ 1022) with hsmall | hlarge
  · -- the decimal is next to the number
    refine roundBinary64_finite ?_
    have hround := abs_roundHalfEven_sub_le (r * 10 ^ digits)
    have hdist : |(roundHalfEven (r * 10 ^ digits) : ℚ) / 10 ^ digits - r| ≤ 1 := by
      rw [show (roundHalfEven (r * 10 ^ digits) : ℚ) / 10 ^ digits - r =
        ((roundHalfEven (r * 10 ^ digits) : ℚ) - r * 10 ^ digits) / 10 ^ digits by field_simp,
        abs_div, abs_of_pos hscale, div_le_one hscale]
      exact hround.trans ((by norm_num : (1 / 2 : ℚ) ≤ 1).trans (one_le_pow₀ (by norm_num)))
    have htriangle := abs_sub_abs_le_abs_sub
      ((roundHalfEven (r * 10 ^ digits) : ℚ) / 10 ^ digits) r
    have hone : (1 : ℚ) ≤ 2 ^ 1022 := one_le_pow₀ (by norm_num)
    rw [show (2 : ℚ) ^ 1023 = 2 * 2 ^ 1022 from pow_succ' 2 1022]
    generalize (2 : ℚ) ^ 1022 = bound at *
    linarith
  · -- the number is an integer
    have hlog : 1022 ≤ Int.log 2 |r| := by
      have hpos : 0 < |r| := lt_trans (by positivity) hlarge
      rw [← Int.zpow_le_iff_le_log (by norm_num) hpos]
      exact_mod_cast hlarge.le
    obtain ⟨m, hm⟩ := exists_eq_multiple h
    have hint : ∃ n : ℤ, r = n := by
      refine ⟨m * 2 ^ (Int.log 2 |r| - 52).toNat, ?_⟩
      rw [binaryUnit, max_eq_left (by omega)] at hm
      push_cast
      rw [← zpow_natCast, Int.toNat_of_nonneg (by omega)]
      exact hm
    obtain ⟨n, rfl⟩ := hint
    have hexact : (roundHalfEven ((n : ℚ) * 10 ^ digits) : ℚ) = n * 10 ^ digits := by
      exact_mod_cast roundsNearest.intCast (n * 10 ^ digits)
    rw [hexact, mul_div_cancel_right₀ _ hscale.ne']
    exact ⟨_, roundBinary64_of_binary h⟩

end PyFloat

end BybitMonitor
