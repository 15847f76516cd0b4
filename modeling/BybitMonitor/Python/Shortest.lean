import Mathlib
import BybitMonitor.Python.Rounding

/-!
# Decimals that survive a binary64

A decimal number with at most 15 digits is the shortest one that is rounded to its binary64, so that
`Decimal(str(x))` is the number that was meant.

* `PyFloat.shortest_eq`: the shortest number is the first one that is found.
* `PyFloat.roundBinary64_of_close`: a number next to a binary64 number is rounded to it.
* `PyFloat.shortest_spec`: 17 digits are enough for every binary64 number.
* `PyDecimal.ofFloat_roundBinary64`: decimals with a tick of at least 10 ^ -300.
-/

namespace BybitMonitor

namespace PyFloat

variable {x v y : ℚ} {digits : ℕ}

/-- The distance between the decimal numbers of `neighbours`. -/
def decimalUnit (digits : ℕ) (x : ℚ) : ℚ := 10 ^ (Int.log 10 |x| + 1 - digits)

theorem decimalUnit_pos (digits : ℕ) (x : ℚ) : 0 < decimalUnit digits x := by
  unfold decimalUnit
  positivity

/-- The neighbours are the multiples of the unit around the number. -/
theorem mem_neighbours : y ∈ neighbours digits x ↔
    y = ⌊x / decimalUnit digits x⌋ * decimalUnit digits x ∨
      y = ⌊x / decimalUnit digits x⌋ * decimalUnit digits x + decimalUnit digits x := by
  change y ∈ (if _ then [_, _] else [_, _]) ↔ _
  split
  · exact List.mem_pair
  · exact List.mem_pair.trans or_comm

/-- A multiple of the unit within its distance is a neighbour. -/
theorem multiple_mem_neighbours {m : ℤ} (hv : v = m * decimalUnit digits x)
    (hdist : |v - x| < decimalUnit digits x) : v ∈ neighbours digits x := by
  have hunit := decimalUnit_pos digits x
  obtain ⟨hlower, hupper⟩ := abs_lt.mp hdist
  rw [mem_neighbours]
  generalize decimalUnit digits x = unit at *
  rcases le_or_gt v x with hle | hlt
  · have hfloor : ⌊x / unit⌋ = m := by
      rw [Int.floor_eq_iff, le_div_iff₀ hunit, div_lt_iff₀ hunit]
      constructor <;> linarith
    exact Or.inl (by rw [hfloor, hv])
  · have hfloor : ⌊x / unit⌋ = m - 1 := by
      rw [Int.floor_eq_iff, le_div_iff₀ hunit, div_lt_iff₀ hunit]
      push_cast
      constructor <;> linarith
    refine Or.inr ?_
    rw [hfloor, hv]
    push_cast
    ring

/-- The shortest number is the first one that is found. -/
theorem shortest_eq {n : ℕ} (hn : n < 17) (hfound : v ∈ neighbours (n + 1) x)
    (hround : roundBinary64 v = finite x) (hunique : ∀ i ≤ n, ∀ y ∈ neighbours (i + 1) x,
      roundBinary64 y = finite x → y = v) : shortest x = v := by
  rw [shortest]
  set search : ℕ → Option ℚ := fun digits =>
    (neighbours (digits + 1) x).find? fun y => roundBinary64 y = finite x with hsearch
  -- the search is over after `n + 1` digits
  have hsome : ((List.range (n + 1)).findSome? search).isSome = true := by
    refine List.findSome?_isSome_iff.mpr ⟨n, List.mem_range.mpr (Nat.lt_succ_self n), ?_⟩
    exact List.find?_isSome.mpr ⟨v, hfound, decide_eq_true hround⟩
  obtain ⟨y, hy⟩ := Option.isSome_iff_exists.mp hsome
  obtain ⟨i, hi, hfirst⟩ := List.exists_of_findSome?_eq_some hy
  have hle : i ≤ n := Nat.lt_succ_iff.mp (List.mem_range.mp hi)
  have heq : y = v := by
    refine hunique i hle y (List.mem_of_find?_eq_some hfirst) ?_
    simpa using List.find?_some hfirst
  have hsplit : List.range 17 =
      List.range (n + 1) ++ (List.range (17 - (n + 1))).map (n + 1 + ·) := by
    rw [← List.range_add]
    congr 1
    omega
  rw [hsplit, List.findSome?_append, hy, heq]
  rfl

/-! ## Numbers close to a binary64 number -/

/-- The unit of a positive number against the number. -/
theorem lt_binaryUnit (hx : 0 < x) : x < 2 ^ 53 * binaryUnit x := by
  have hlog : x < 2 ^ (Int.log 2 |x| + 1) := by
    have hlt := Int.lt_zpow_succ_log_self (R := ℚ) (b := 2) (by norm_num) |x|
    rw [abs_of_pos hx] at hlt ⊢
    exact_mod_cast hlt
  calc x < 2 ^ (Int.log 2 |x| + 1) := hlog
    _ ≤ 2 ^ (53 + max (Int.log 2 |x| - 52) (-1074)) :=
        zpow_le_zpow_right₀ (by norm_num) (by omega)
    _ = 2 ^ 53 * binaryUnit x := by
        rw [binaryUnit, zpow_add₀ two_ne_zero]
        norm_num

/-- The unit of a positive binary64 number does not exceed it. -/
theorem exponent_le_log (hx : 0 < x) (hround : roundBinary64 x = finite x) :
    max (Int.log 2 x - 52) (-1074) ≤ Int.log 2 x := by
  obtain ⟨m, hm⟩ := exists_eq_multiple hround
  have hunit := binaryUnit_pos x
  have hzero : ((0 : ℤ) * binaryUnit x : ℚ) < m * binaryUnit x := by
    rwa [Int.cast_zero, zero_mul, ← hm]
  have hle : binaryUnit x ≤ x := by
    have := add_unit_le_multiple hunit hzero
    rwa [Int.cast_zero, zero_mul, zero_add, ← hm] at this
  rw [binaryUnit, abs_of_pos hx] at hle
  refine (Int.zpow_le_iff_le_log (b := 2) (by norm_num) hx).mp ?_
  exact_mod_cast hle

/-- A power of two other than a binary64 number is not close to it. -/
theorem zpow_not_close (hx : 0 < x) (hround : roundBinary64 x = finite x) {e : ℤ}
    (hle : Int.log 2 x ≤ e) (hne : (2 : ℚ) ^ e ≠ x) : x / 2 ^ 53 < |2 ^ e - x| := by
  obtain ⟨m, hm⟩ := exists_eq_multiple hround
  obtain ⟨n, hn⟩ : ∃ n : ℤ, (2 ^ e : ℚ) = n * binaryUnit x := by
    have hexp := (exponent_le_log hx hround).trans hle
    rw [← abs_of_pos hx] at hexp
    simpa using multiple_binaryUnit 1 hexp
  have hgap : binaryUnit x ≤ |2 ^ e - x| := by
    by_contra hclose
    have heq : (n * binaryUnit x : ℚ) = m * binaryUnit x :=
      multiple_eq_of_close (binaryUnit_pos x) (by rwa [← hn, ← hm, ← not_le])
    exact hne (hn.trans (heq.trans hm.symm))
  refine lt_of_lt_of_le ?_ hgap
  rw [div_lt_iff₀ (by positivity), mul_comm]
  exact lt_binaryUnit hx

/-- The binade of a number close to a binary64 number. -/
theorem log_of_close (hx : 0 < x) (hround : roundBinary64 x = finite x)
    (hclose : |y - x| < x / 2 ^ 54) :
    0 < y ∧ Int.log 2 x - 1 ≤ Int.log 2 y ∧ Int.log 2 y ≤ Int.log 2 x := by
  obtain ⟨hlower, hupper⟩ := abs_lt.mp hclose
  have hhalf : x / 2 ^ 54 ≤ x / 2 := by gcongr; norm_num
  have hy : 0 < y := by linarith
  have hpow : (2 : ℚ) ^ Int.log 2 x ≤ x := by
    exact_mod_cast Int.zpow_log_le_self (R := ℚ) (b := 2) (by norm_num) hx
  have hsucc : x < (2 : ℚ) ^ (Int.log 2 x + 1) := by
    exact_mod_cast Int.lt_zpow_succ_log_self (R := ℚ) (b := 2) (by norm_num) x
  refine ⟨hy, (Int.zpow_le_iff_le_log (by norm_num) hy).mp ?_, not_lt.mp fun hlater => ?_⟩
  · have hprev : (2 : ℚ) ^ (Int.log 2 x - 1) = 2 ^ Int.log 2 x / 2 := by
      rw [zpow_sub₀ two_ne_zero, zpow_one]
    have hgoal : (2 : ℚ) ^ (Int.log 2 x - 1) ≤ y := by linarith
    exact_mod_cast hgoal
  · -- the power of two between the two numbers is not close to `x`
    have hreach : (2 : ℚ) ^ (Int.log 2 x + 1) ≤ y := by
      exact_mod_cast (Int.zpow_le_iff_le_log (by norm_num) hy).mpr (Int.add_one_le_of_lt hlater)
    have hgap := zpow_not_close hx hround (Int.le_add_one le_rfl) hsucc.ne'
    rw [abs_of_pos (sub_pos.mpr hsucc)] at hgap
    have : x / 2 ^ 54 ≤ x / 2 ^ 53 := by gcongr <;> norm_num
    linarith

/-- A binary64 number is small against the unit of a number close to it. -/
theorem le_unit_of_close (hx : 0 < x) (hround : roundBinary64 x = finite x)
    (hclose : |y - x| < x / 2 ^ 54) : x ≤ 2 ^ 53 * binaryUnit y := by
  obtain ⟨hy, hearlier, -⟩ := log_of_close hx hround hclose
  by_contra hlt
  rw [not_le] at hlt
  set e := 53 + max (Int.log 2 y - 52) (-1074) with he
  have hpow : 2 ^ 53 * binaryUnit y = 2 ^ e := by
    rw [binaryUnit, abs_of_pos hy, he, zpow_add₀ two_ne_zero]
    norm_num
  have hbelow := lt_binaryUnit hy
  rw [hpow] at hlt hbelow
  have hgap := zpow_not_close hx hround (by omega) hlt.ne
  rw [abs_of_neg (sub_neg.mpr hlt)] at hgap
  obtain ⟨hlower, -⟩ := abs_lt.mp hclose
  have : x / 2 ^ 54 ≤ x / 2 ^ 53 := by gcongr <;> norm_num
  linarith

/-- A number close to a binary64 number is rounded to it. -/
theorem roundBinary64_of_close (hx : 0 < x) (hround : roundBinary64 x = finite x)
    (hclose : |y - x| < x / 2 ^ 54) : roundBinary64 y = finite x := by
  obtain ⟨hy, -, hlater⟩ := log_of_close hx hround hclose
  obtain ⟨m, hm⟩ : ∃ m : ℤ, x = m * binaryUnit y := by
    obtain ⟨n, hn⟩ := exists_eq_multiple hround
    have hexp : max (Int.log 2 |y| - 52) (-1074) ≤ max (Int.log 2 |x| - 52) (-1074) := by
      rw [abs_of_pos hx, abs_of_pos hy]
      omega
    obtain ⟨m, hm⟩ := multiple_binaryUnit n hexp
    exact ⟨m, hn.trans hm⟩
  have hgrid : onGrid roundHalfEven (binaryUnit y) y = x := by
    have hunit := le_unit_of_close hx hround hclose
    rw [hm]
    refine roundsNearest.onGrid_eq_of_close (binaryUnit_pos y) ?_
    rw [← hm]
    linarith
  rw [roundBinary64_eq hy.ne', hgrid, if_neg (not_le.mpr (eq_onGrid_of_roundBinary64 hround).2)]

/-! ## Numbers with 15 digits -/

/-- The error of a rounding, for numbers that are not subnormal. -/
theorem abs_sub_le_of_round (h : roundBinary64 y = finite x) (hy : 0 < y)
    (hnormal : 2 ^ (-1022 : ℤ) ≤ y) : |x - y| ≤ y / 2 ^ 53 := by
  obtain ⟨heq, -⟩ := eq_onGrid_of_roundBinary64 h
  have hunit : binaryUnit y ≤ y / 2 ^ 52 := by
    refine (binaryUnit_le hy.ne').trans (max_le (by rw [abs_of_pos hy]) ?_)
    rw [le_div_iff₀ (by positivity)]
    refine le_trans (le_of_eq ?_) hnormal
    rw [← zpow_natCast, ← zpow_add₀ two_ne_zero]
    norm_num
  rw [heq]
  refine (roundsNearest.abs_onGrid_sub_le (binaryUnit_pos y)).trans ?_
  rw [show y / 2 ^ 53 = y / 2 ^ 52 / 2 by rw [div_div, ← pow_succ]]
  linarith

/-- A number is close to what is rounded to it. -/
theorem close_of_round (h : roundBinary64 y = finite x) (hy : 0 < y)
    (hnormal : 2 ^ (-1022 : ℤ) ≤ y) : y ≤ 2 * x ∧ |x - y| ≤ x / 2 ^ 52 := by
  have hdist := abs_sub_le_of_round h hy hnormal
  have hle : y ≤ 2 * x := by
    obtain ⟨hlower, -⟩ := abs_le.mp hdist
    have : y / 2 ^ 53 ≤ y / 2 := by gcongr; norm_num
    linarith
  refine ⟨hle, hdist.trans ?_⟩
  calc y / 2 ^ 53 ≤ 2 * x / 2 ^ 53 := by gcongr
    _ = x / 2 ^ 52 := by ring

/-- A neighbour of a number is of its size. -/
theorem neighbour_bounds (hx : 0 < x) (hdigits : 0 < digits) (hy : y ∈ neighbours digits x) :
    x / 2 ≤ y := by
  have hunit := decimalUnit_pos digits x
  have hle : decimalUnit digits x ≤ x := by
    have hlog := Int.zpow_log_le_self (R := ℚ) (b := 10) (by norm_num) (abs_pos.mpr hx.ne')
    calc decimalUnit digits x ≤ 10 ^ Int.log 10 |x| := zpow_le_zpow_right₀ (by norm_num) (by omega)
      _ ≤ |x| := mod_cast hlog
      _ = x := abs_of_pos hx
  have hone : 1 ≤ x / decimalUnit digits x := (one_le_div hunit).mpr hle
  have hfloor : x / decimalUnit digits x ≤ 2 * ⌊x / decimalUnit digits x⌋ := by
    have hlt := Int.lt_floor_add_one (x / decimalUnit digits x)
    have hge : (1 : ℚ) ≤ ⌊x / decimalUnit digits x⌋ := by exact_mod_cast Int.le_floor.mpr hone
    linarith
  have hbelow : x / 2 ≤ ⌊x / decimalUnit digits x⌋ * decimalUnit digits x := by
    rw [div_le_iff₀ hunit] at hfloor
    linarith
  rcases mem_neighbours.mp hy with rfl | rfl
  · exact hbelow
  · linarith

/-- A neighbour with fewer digits is a multiple of the unit of more digits. -/
theorem neighbour_multiple {places : ℕ} (hdigits : digits ≤ places)
    (hy : y ∈ neighbours digits x) : ∃ n : ℤ, y = n * decimalUnit places x := by
  obtain ⟨scale, hunit⟩ : ∃ scale : ℤ, decimalUnit digits x = scale * decimalUnit places x := by
    have hle : Int.log 10 |x| + 1 - places ≤ Int.log 10 |x| + 1 - digits := by omega
    have hmultiple := zpow_eq_multiple (K := ℚ) (show 1 < 10 by norm_num) hle
    rw [Nat.cast_ofNat] at hmultiple
    exact ⟨_, hmultiple⟩
  rcases mem_neighbours.mp hy with rfl | rfl
  · refine ⟨⌊x / decimalUnit digits x⌋ * scale, ?_⟩
    rw [Int.cast_mul, mul_assoc, ← hunit]
  · refine ⟨(⌊x / decimalUnit digits x⌋ + 1) * scale, ?_⟩
    rw [Int.cast_mul, mul_assoc, ← hunit]
    push_cast
    ring

/-- The unit of 15 digits is larger than the distance of two numbers that are rounded to one. -/
theorem lt_decimalUnit (hx : 0 < x) : x / 2 ^ 51 < decimalUnit 15 x := by
  have hlog := Int.lt_zpow_succ_log_self (R := ℚ) (b := 10) (by norm_num) |x|
  have hxlt : x < 10 ^ 15 * decimalUnit 15 x := by
    rw [abs_of_pos hx] at hlog
    refine (show x < _ from mod_cast hlog).trans_eq ?_
    rw [decimalUnit, abs_of_pos hx, ← zpow_natCast, ← zpow_add₀ (by norm_num)]
    congr 1
    push_cast
    ring
  rw [div_lt_iff₀ (by positivity)]
  have : (10 : ℚ) ^ 15 ≤ 2 ^ 51 := by norm_num
  nlinarith [decimalUnit_pos 15 x]

/-- Two multiples of the unit of 15 digits that are close to `x` are one. -/
theorem multiple_unique (hx : 0 < x) {m n : ℤ} (hv : v = m * decimalUnit 15 x)
    (hy : y = n * decimalUnit 15 x) (hvdist : |x - v| ≤ x / 2 ^ 52)
    (hydist : |x - y| ≤ x / 2 ^ 52) : y = v := by
  have hunit := decimalUnit_pos 15 x
  have hclose : |y - v| < decimalUnit 15 x := by
    calc |y - v| = |(x - v) - (x - y)| := by rw [show y - v = (x - v) - (x - y) by ring]
      _ ≤ |x - v| + |x - y| := abs_sub _ _
      _ ≤ x / 2 ^ 52 + x / 2 ^ 52 := add_le_add hvdist hydist
      _ = x / 2 ^ 51 := by ring
      _ < decimalUnit 15 x := lt_decimalUnit hx
  rw [hy, hv] at hclose ⊢
  exact multiple_eq_of_close hunit hclose

/-! ## The shortest number -/

/-- With 17 digits there is a number that is rounded to `x`. -/
theorem exists_neighbour (hx : 0 < x) (hround : roundBinary64 x = finite x) :
    ∃ y ∈ neighbours 17 x, roundBinary64 y = finite x := by
  have hunit := decimalUnit_pos 17 x
  set v := onGrid roundHalfEven (decimalUnit 17 x) x with hv
  have hdist : |v - x| ≤ decimalUnit 17 x / 2 := roundsNearest.abs_onGrid_sub_le hunit
  have hsmall : decimalUnit 17 x ≤ x / 10 ^ 16 := by
    calc decimalUnit 17 x = digitUnit 10 17 x := rfl
      _ ≤ |x| * 10 ^ (1 - (17 : ℕ) : ℤ) := digitUnit_le (by norm_num) hx.ne'
      _ = x / 10 ^ 16 := by rw [abs_of_pos hx, div_eq_mul_inv]; norm_num
  refine ⟨v, multiple_mem_neighbours hv (hdist.trans_lt (half_lt_self hunit)), ?_⟩
  -- ten to the sixteenth exceeds two to the fifty-third
  refine roundBinary64_of_close hx hround (hdist.trans_lt ?_)
  calc decimalUnit 17 x / 2 ≤ x / 10 ^ 16 / 2 := by gcongr
    _ = x / (2 * 10 ^ 16) := by rw [div_div, mul_comm]
    _ < x / 2 ^ 54 := by gcongr; norm_num

/-- The shortest number is rounded to `x`, and has at most 17 digits. -/
theorem shortest_spec (hx : 0 < x) (hround : roundBinary64 x = finite x) :
    roundBinary64 (shortest x) = finite x ∧
      ∃ m : ℤ, 0 < m ∧ shortest x = m * decimalUnit 17 x := by
  obtain ⟨v, hv, hvround⟩ := exists_neighbour hx hround
  rw [shortest]
  set search : ℕ → Option ℚ := fun digits =>
    (neighbours (digits + 1) x).find? fun y => roundBinary64 y = finite x with hsearch
  have hsome : ((List.range 17).findSome? search).isSome = true := by
    refine List.findSome?_isSome_iff.mpr ⟨16, List.mem_range.mpr (by norm_num), ?_⟩
    exact List.find?_isSome.mpr ⟨v, hv, decide_eq_true hvround⟩
  obtain ⟨y, hy⟩ := Option.isSome_iff_exists.mp hsome
  obtain ⟨i, hi, hfirst⟩ := List.exists_of_findSome?_eq_some hy
  have hmem : y ∈ neighbours (i + 1) x := List.mem_of_find?_eq_some hfirst
  obtain ⟨m, hm⟩ := neighbour_multiple (List.mem_range.mp hi) hmem
  have hpos : 0 < y := (half_pos hx).trans_le (neighbour_bounds hx (Nat.succ_pos i) hmem)
  rw [hy, Option.getD_some]
  refine ⟨by simpa using List.find?_some hfirst, m, ?_, hm⟩
  rw [hm] at hpos
  exact_mod_cast (mul_pos_iff_of_pos_right (decimalUnit_pos 17 x)).mp hpos

end PyFloat

namespace PyDecimal

/-- `Decimal(str(x))` is the decimal number with at most 15 digits that `x` was rounded from. -/
theorem ofFloat_roundBinary64 {a k : ℕ} (hpos : 0 < a) (hlt : a < 10 ^ 15) (hk : k ≤ 300) :
    ofFloat (PyFloat.roundBinary64 (a / 10 ^ k)) = finite (a / 10 ^ k) := by
  have htick : (0 : ℚ) < 10 ^ k := by positivity
  have ha : (1 : ℚ) ≤ a := by exact_mod_cast hpos
  have ha' : (a : ℚ) ≤ 10 ^ 15 - 1 := by
    have : (a : ℚ) + 1 ≤ 10 ^ 15 := by exact_mod_cast hlt
    linarith
  set v : ℚ := a / 10 ^ k with hv
  have hvpos : 0 < v := by positivity
  have hvlt : v ≤ 10 ^ 15 := by
    rw [hv, div_le_iff₀ htick]
    have : (1 : ℚ) ≤ 10 ^ k := one_le_pow₀ (by norm_num)
    nlinarith
  -- far above the subnormal numbers
  have hnormal : 2 ^ (-1022 : ℤ) ≤ v / 4 := by
    have hpow : (4 : ℚ) * 10 ^ 300 ≤ 2 ^ 1022 := by
      exact_mod_cast (show 4 * 10 ^ 300 ≤ 2 ^ 1022 by decide +kernel)
    have htick' : (10 : ℚ) ^ k ≤ 10 ^ 300 := pow_le_pow_right₀ (by norm_num) hk
    rw [hv, div_div, le_div_iff₀ (by positivity), zpow_neg, inv_mul_le_iff₀ (by positivity)]
    calc (10 : ℚ) ^ k * 4 ≤ 10 ^ 300 * 4 := by gcongr
      _ ≤ 2 ^ (1022 : ℤ) := by rw [mul_comm]; exact_mod_cast hpow
      _ ≤ 2 ^ (1022 : ℤ) * a := le_mul_of_one_le_right (by positivity) ha
  obtain ⟨x, hround⟩ : ∃ x, PyFloat.roundBinary64 v = .finite x := by
    refine PyFloat.roundBinary64_finite ?_
    rw [abs_of_pos hvpos]
    exact hvlt.trans ((show (10 : ℚ) ^ 15 ≤ 2 ^ 50 by norm_num).trans
      (pow_le_pow_right₀ one_le_two (by norm_num)))
  obtain ⟨hvle, hvdist⟩ := PyFloat.close_of_round hround hvpos (by linarith)
  have hx : 0 < x := by linarith
  -- the number is a multiple of the unit of 15 digits
  obtain ⟨m, hm⟩ : ∃ m : ℤ, v = m * PyFloat.decimalUnit 15 x := by
    have hxlt : |x| < 10 ^ (15 - k : ℤ) := by
      have hdist := PyFloat.abs_sub_le_of_round hround hvpos (by linarith)
      obtain ⟨-, hupper⟩ := abs_le.mp hdist
      have hscaled : v * 10 ^ k = a := div_mul_cancel₀ _ htick.ne'
      rw [abs_of_pos hx, zpow_sub₀ (by norm_num), zpow_natCast, lt_div_iff₀ htick]
      have hxle : x * 10 ^ k ≤ a + a / 2 ^ 53 := by
        calc x * 10 ^ k ≤ (v + v / 2 ^ 53) * 10 ^ k := by gcongr; linarith
          _ = v * 10 ^ k + v * 10 ^ k / 2 ^ 53 := by ring
          _ = a + a / 2 ^ 53 := by rw [hscaled]
      have hround' : (a : ℚ) + a / 2 ^ 53 < 10 ^ 15 := by
        have : (a : ℚ) / 2 ^ 53 ≤ (10 ^ 15 - 1) / 2 ^ 53 := by gcongr
        have : ((10 : ℚ) ^ 15 - 1) / 2 ^ 53 < 1 := by norm_num
        linarith
      exact_mod_cast hxle.trans_lt hround'
    have hlog : Int.log 10 |x| < 15 - k := by
      rw [← Int.lt_zpow_iff_log_lt (by norm_num) (abs_pos.mpr hx.ne')]
      exact_mod_cast hxlt
    have hmultiple := zpow_eq_multiple (K := ℚ) (show 1 < 10 by norm_num)
      (m := Int.log 10 |x| + 1 - (15 : ℕ)) (n := -k) (by push_cast; omega)
    rw [Nat.cast_ofNat] at hmultiple
    refine ⟨a * ((10 ^ (-(k : ℤ) - (Int.log 10 |x| + 1 - (15 : ℕ))).toNat : ℕ) : ℤ), ?_⟩
    rw [PyFloat.decimalUnit, Int.cast_mul, mul_assoc, ← hmultiple, zpow_neg, zpow_natCast, hv,
      div_eq_mul_inv]
    rfl
  rw [hround, ofFloat]
  refine congrArg finite (PyFloat.shortest_eq (n := 14) (by norm_num) ?_ hround ?_)
  · refine PyFloat.multiple_mem_neighbours hm ?_
    rw [abs_sub_comm]
    refine hvdist.trans_lt (lt_of_le_of_lt ?_ (PyFloat.lt_decimalUnit hx))
    gcongr <;> norm_num
  · -- a number with fewer digits would be a multiple of the same unit
    intro i hi y hy hyround
    have hhalf := PyFloat.neighbour_bounds hx (Nat.succ_pos i) hy
    obtain ⟨n, hn⟩ := PyFloat.neighbour_multiple (show i + 1 ≤ 15 by omega) hy
    have hypos : 0 < y := by linarith
    have hydist := (PyFloat.close_of_round hyround hypos (by linarith)).2
    exact PyFloat.multiple_unique hx hm hn hvdist hydist

end PyDecimal

end BybitMonitor
