import Mathlib
import BybitMonitor.Market.SpotHistory
import BybitMonitor.Python.Shortest

/-!
# The decision at the threshold

The change of a price is rounded four times: the quotient, the difference and the product to 28
digits, and the result to binary64. For prices with at most 15 digits none of this moves a change
across five per cent.

* `MomentumEngine.roundedChange`: the three decimal roundings.
* `strict_threshold_exact`: the decision on the integers.
-/

namespace BybitMonitor

namespace MomentumEngine

/-- The change before its conversion to `float`. -/
def roundedChange (ratio : ℚ) : ℚ :=
  PyDecimal.round (PyDecimal.round (PyDecimal.round ratio - 1) * 100)

/-- `_raw_change` of two decimal prices. -/
theorem rawChange_eq {last reference : PyFloat} {x y : ℚ} (hy : y ≠ 0)
    (hlast : PyDecimal.ofFloat last = .finite x)
    (hreference : PyDecimal.ofFloat reference = .finite y) :
    rawChange last reference = .ok (PyFloat.roundBinary64 (roundedChange (x / y))) := by
  rw [rawChange, hlast, hreference, PyDecimal.div, if_neg hy]
  rfl

variable {ratio : ℚ}

/-- The error of a decimal rounding of a positive number. -/
theorem round_bounds {x : ℚ} (hx : 0 ≤ x) :
    x - x / 10 ^ 27 ≤ PyDecimal.round x ∧ PyDecimal.round x ≤ x + x / 10 ^ 27 := by
  have hdist := PyDecimal.abs_round_sub_le x
  rw [abs_of_nonneg hx] at hdist
  have hle : x / (2 * 10 ^ 27) ≤ x / 10 ^ 27 := by
    gcongr
    norm_num
  obtain ⟨hlower, hupper⟩ := abs_le.mp (hdist.trans hle)
  constructor <;> linarith

/-- A ratio above 1.05 by the least distance stays above it. -/
theorem lt_roundedChange (hratio : 21 / 20 + 5 / 10 ^ 17 ≤ ratio) :
    5 + 1 / 2 ^ 50 ≤ roundedChange ratio := by
  have hquotient : 21 / 20 + 4 / 10 ^ 17 ≤ PyDecimal.round ratio := by
    have := (round_bounds (x := ratio) (by linarith)).1
    linarith
  have hdifference : 1 / 20 + 3 / 10 ^ 17 ≤ PyDecimal.round (PyDecimal.round ratio - 1) := by
    have := (round_bounds (x := PyDecimal.round ratio - 1) (by linarith)).1
    linarith
  have hproduct := (round_bounds (x := PyDecimal.round (PyDecimal.round ratio - 1) * 100)
    (by linarith)).1
  rw [roundedChange]
  linarith

/-- A ratio below 1.05 by the least distance stays below it. -/
theorem roundedChange_le (hpos : 0 < ratio) (hratio : ratio ≤ 21 / 20 - 5 / 10 ^ 17) :
    -101 ≤ roundedChange ratio ∧ roundedChange ratio ≤ 5 := by
  obtain ⟨hquotient, hquotient'⟩ := round_bounds hpos.le
  -- the difference and the product may be negative
  have hdifference := PyDecimal.abs_round_sub_le (PyDecimal.round ratio - 1)
  have hdifference' : |PyDecimal.round ratio - 1| ≤ 1 := by
    rw [abs_le]
    constructor <;> linarith
  have hbound : |PyDecimal.round ratio - 1| / (2 * 10 ^ 27) ≤ 1 / 10 ^ 27 := by
    rw [div_le_div_iff₀ (by positivity) (by positivity)]
    linarith
  obtain ⟨hlower, hupper⟩ := abs_le.mp (hdifference.trans hbound)
  obtain ⟨hlower', hupper'⟩ := abs_le.mp hdifference'
  have hproduct := PyDecimal.abs_round_sub_le (PyDecimal.round (PyDecimal.round ratio - 1) * 100)
  have hproduct' : |PyDecimal.round (PyDecimal.round ratio - 1) * 100| / (2 * 10 ^ 27) ≤
      1 / 10 ^ 25 := by
    rw [div_le_div_iff₀ (by positivity) (by positivity)]
    have : |PyDecimal.round (PyDecimal.round ratio - 1) * 100| ≤ 200 := by
      rw [abs_le]
      constructor <;> linarith
    linarith
  obtain ⟨hlower'', hupper''⟩ := abs_le.mp (hproduct.trans hproduct')
  rw [roundedChange]
  constructor <;> linarith

/-- A ratio of exactly 1.05 is a change of exactly five per cent. -/
theorem roundedChange_self : roundedChange (21 / 20) = 5 := by
  decide +kernel

end MomentumEngine

namespace PyFloat

variable {x : ℚ}

/-- Numbers up to five are rounded to numbers up to five. -/
theorem not_lt_roundBinary64 (hlower : -101 ≤ x) (hle : x ≤ 5) :
    lt 5 (roundBinary64 x) = false := by
  have habs : |x| ≤ 128 := abs_le.mpr ⟨by linarith, by linarith⟩
  have hpow : (128 : ℚ) ≤ 2 ^ 1023 := by
    calc (128 : ℚ) = 2 ^ 7 := by norm_num
      _ ≤ 2 ^ 1023 := pow_le_pow_right₀ one_le_two (by norm_num)
  obtain ⟨r, hr⟩ := roundBinary64_finite (habs.trans hpow)
  have hlog : Int.log 2 |x| ≤ 52 := by
    by_cases hx : x = 0
    · simp [hx]
    · refine Int.lt_add_one_iff.mp ((Int.lt_zpow_iff_log_lt (by norm_num) (abs_pos.mpr hx)).mp ?_)
      exact habs.trans_lt (by norm_num)
  have hrle : r ≤ (5 : ℤ) * 2 ^ (0 : ℤ) :=
    roundBinary64_le hr (max_le (by omega) (by norm_num)) (by simpa using hle)
  rw [hr]
  show decide (((5 : ℕ) : ℚ) < r) = false
  rw [decide_eq_false_iff_not, not_lt]
  simpa using hrle

/-- Numbers over five by a binary64 step are rounded to numbers over five. -/
theorem lt_roundBinary64 (hle : 5 + 1 / 2 ^ 50 ≤ x) : lt 5 (roundBinary64 x) = true := by
  have hpos : 0 < x := lt_of_lt_of_le (by norm_num) hle
  cases hround : roundBinary64 x with
  | nan => exact absurd hround (roundBinary64_ne_nan x)
  | inf negative =>
      rw [roundBinary64_eq hpos.ne'] at hround
      split at hround
      · obtain rfl := inf.inj hround
        show (!decide (x < 0)) = true
        simpa using hpos.le
      · cases hround
  | finite r =>
      have hlt : 5 < r := by
        rcases lt_or_ge x 8 with hsmall | hlarge
        · -- the next binary64 number after five
          have hlog : Int.log 2 |x| < 3 := by
            rw [← Int.lt_zpow_iff_log_lt (by norm_num) (abs_pos.mpr hpos.ne'), abs_of_pos hpos]
            exact hsmall.trans_le (by norm_num)
          have hstep : ((5 * 2 ^ 50 + 1 : ℤ) : ℚ) * 2 ^ (-50 : ℤ) = 5 + 1 / 2 ^ 50 := by norm_num
          have hge := le_roundBinary64 hround (max_le (by omega) (by norm_num))
            (hstep.trans_le hle)
          rw [hstep] at hge
          exact lt_of_lt_of_le (by norm_num) hge
        · have hlog : 3 ≤ Int.log 2 |x| := by
            rw [← Int.zpow_le_iff_le_log (by norm_num) (abs_pos.mpr hpos.ne'), abs_of_pos hpos]
            exact le_trans (by norm_num) hlarge
          have hpow : (2 : ℚ) ^ Int.log 2 |x| ≤ |x| := by
            exact_mod_cast Int.zpow_log_le_self (R := ℚ) (b := 2) (by norm_num)
              (abs_pos.mpr hpos.ne')
          have hge := le_roundBinary64 hround (m := 1) (e := Int.log 2 |x|)
            (max_le (by omega) (by omega)) (by
              rw [Int.cast_one, one_mul]
              exact hpow.trans_eq (abs_of_pos hpos))
          rw [Int.cast_one, one_mul] at hge
          calc (5 : ℚ) < 2 ^ (3 : ℤ) := by norm_num
            _ ≤ 2 ^ Int.log 2 |x| := zpow_le_zpow_right₀ one_le_two hlog
            _ ≤ r := hge
      show decide (((5 : ℕ) : ℚ) < r) = true
      exact decide_eq_true (by simpa using hlt)

end PyFloat

/-- The strict decision at five per cent is exact for prices below 10 ^ 15 ticks: it is the
comparison on the integers. The prices are recovered from their binary64 for every tick down to 10 ^
-300. -/
theorem strict_threshold_exact {a b : ℕ} (ha : 0 < a) (hb : 0 < b) (ha' : a < 10 ^ 15)
    (hb' : b < 10 ^ 15) (k : ℕ) :
    (k ≤ 300 →
      PyDecimal.ofFloat (PyFloat.roundBinary64 (a / 10 ^ k)) = .finite (a / 10 ^ k) ∧
        PyDecimal.ofFloat (PyFloat.roundBinary64 (b / 10 ^ k)) = .finite (b / 10 ^ k)) ∧
    ∀ last reference, PyDecimal.ofFloat last = .finite (a / 10 ^ k) →
      PyDecimal.ofFloat reference = .finite (b / 10 ^ k) →
        ∃ change, MomentumEngine.rawChange last reference = .ok change ∧
          (MomentumEngine.qualifies (some change) 5 = true ↔ 105 * b < 100 * a) := by
  refine ⟨fun hk => ⟨PyDecimal.ofFloat_roundBinary64 ha ha' hk,
    PyDecimal.ofFloat_roundBinary64 hb hb' hk⟩, fun last reference hlast hreference => ?_⟩
  have htick : (0 : ℚ) < 10 ^ k := by positivity
  have hbpos : (0 : ℚ) < b := by exact_mod_cast hb
  have hapos : (0 : ℚ) < a := by exact_mod_cast ha
  have hratio : (a / 10 ^ k : ℚ) / (b / 10 ^ k) = a / b := div_div_div_cancel_right₀ htick.ne' _ _
  refine ⟨_, MomentumEngine.rawChange_eq (div_pos hbpos htick).ne' hlast hreference, ?_⟩
  rw [hratio]
  -- the least distance of a ratio from 1.05
  have hleast : 5 / 10 ^ 17 * (20 * b : ℚ) ≤ 1 := by
    have : (b : ℚ) ≤ 10 ^ 15 := by exact_mod_cast hb'.le
    linarith
  rcases lt_trichotomy (21 * b) (20 * a) with hlt | heq | hgt
  · refine iff_of_true (PyFloat.lt_roundBinary64 (MomentumEngine.lt_roundedChange ?_)) (by omega)
    have hint : (21 * b + 1 : ℚ) ≤ 20 * a := by exact_mod_cast hlt
    rw [le_div_iff₀ hbpos]
    linarith
  · refine iff_of_false ?_ (by omega)
    have hexact : (a / b : ℚ) = 21 / 20 := by
      rw [div_eq_div_iff hbpos.ne' (by norm_num)]
      have : (21 * b : ℚ) = 20 * a := by exact_mod_cast heq
      linarith
    rw [hexact, MomentumEngine.roundedChange_self]
    decide +kernel
  · refine iff_of_false ?_ (by omega)
    have hint : (20 * a + 1 : ℚ) ≤ 21 * b := by exact_mod_cast hgt
    obtain ⟨hlower, hupper⟩ := MomentumEngine.roundedChange_le (div_pos hapos hbpos) (by
      rw [div_le_iff₀ hbpos]
      linarith)
    rw [MomentumEngine.qualifies, PyFloat.not_lt_roundBinary64 hlower hupper]
    simp

/-- The binary64 of a price in ticks. -/
def tickPrice (a k : ℕ) : PyFloat := PyFloat.roundBinary64 (a / 10 ^ k)

/-- A rise from 20 to 21 does not qualify, and one tick more does. -/
theorem strict_threshold_boundary :
    (∃ change, MomentumEngine.rawChange (tickPrice 2100000 5) (tickPrice 2000000 5) = .ok change ∧
      MomentumEngine.qualifies (some change) 5 = false) ∧
    ∃ change, MomentumEngine.rawChange (tickPrice 2100001 5) (tickPrice 2000000 5) = .ok change ∧
      MomentumEngine.qualifies (some change) 5 = true := by
  have hexact := strict_threshold_exact (a := 2100000) (b := 2000000) (by norm_num) (by norm_num)
    (by norm_num) (by norm_num) 5
  have hlarger := strict_threshold_exact (a := 2100001) (b := 2000000) (by norm_num) (by norm_num)
    (by norm_num) (by norm_num) 5
  constructor
  · obtain ⟨hlast, hreference⟩ := hexact.1 (by norm_num)
    obtain ⟨change, hchange, hiff⟩ := hexact.2 _ _ hlast hreference
    exact ⟨change, hchange, Bool.eq_false_iff.mpr (mt hiff.mp (by norm_num))⟩
  · obtain ⟨hlast, hreference⟩ := hlarger.1 (by norm_num)
    obtain ⟨change, hchange, hiff⟩ := hlarger.2 _ _ hlast hreference
    exact ⟨change, hchange, hiff.mpr (by norm_num)⟩

end BybitMonitor
