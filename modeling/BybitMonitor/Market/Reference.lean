import Mathlib
import BybitMonitor.Market.SpotHistory
import BybitMonitor.Persistence.AlertState
import BybitMonitor.Python.Rounding

/-!
# The reference of a spot market

`find_reference` truncates the ends of its window to integers before it asks the database, so that a
sample at an end of the window may be farther from the target than the tolerance.

* `PyFloat.truncated_le`, `PyFloat.le_truncated`: truncation does not pass an integer.
* `PriceSampleRepository.window_ends`: below 2 ^ 53, the window has the samples within the
  tolerance, and samples at its ends.
* `reference_found_iff`: when `find_reference` returns the nearest sample within the tolerance.
-/

namespace BybitMonitor

namespace PyFloat

/-- Truncation does not pass an integer from above. -/
theorem truncated_le {r : ℚ} {n : ℤ} (h : r ≤ n) : (finite r).truncated ≤ n := by
  rw [truncated]
  split
  · exact Int.ceil_le.mpr h
  · exact Int.cast_le.mp ((Int.floor_le r).trans h)

/-- Truncation does not pass an integer from below. -/
theorem le_truncated {r : ℚ} {n : ℤ} (h : (n : ℚ) ≤ r) : n ≤ (finite r).truncated := by
  rw [truncated]
  split
  · exact Int.cast_le.mp (h.trans (Int.le_ceil r))
  · exact Int.le_floor.mpr h

/-- Below 2 ^ 53, a number is rounded without passing an integer. -/
theorem roundBinary64_around {x : ℚ} (hx : |x| < 2 ^ 53) :
    ∃ r, roundBinary64 x = finite r ∧ (∀ n : ℤ, x ≤ n → r ≤ n) ∧ ∀ n : ℤ, (n : ℚ) ≤ x → n ≤ r := by
  obtain ⟨r, hr⟩ :=
    roundBinary64_finite (hx.le.trans (pow_le_pow_right₀ (by norm_num) (by norm_num)))
  refine ⟨r, hr, ?_⟩
  by_cases hzero : x = 0
  · rw [hzero, roundBinary64, if_pos rfl] at hr
    cases hr
    exact ⟨fun n hn => hzero ▸ hn, fun n hn => hzero ▸ hn⟩
  · have hlog : Int.log 2 |x| < 53 := by
      rw [← Int.lt_zpow_iff_log_lt (by norm_num) (abs_pos.mpr hzero)]
      exact_mod_cast hx
    have hexponent : max (Int.log 2 |x| - 52) (-1074) ≤ 0 := max_le (by omega) (by norm_num)
    constructor
    · intro n hn
      have hle := roundBinary64_le (m := n) hr hexponent (by simpa using hn)
      simpa using hle
    · intro n hn
      have hle := le_roundBinary64 (m := n) hr hexponent (by simpa using hn)
      simpa using hle

end PyFloat

namespace PriceSampleRepository

/-- The ends of the window of `find_reference`. -/
def window (target : ℤ) (tolerance : PyNumber) : Except PyExc (ℤ × ℤ) := do
  let lo ← tolerance.neg.addInt target >>= PyNumber.toInt
  let hi ← tolerance.addInt target >>= PyNumber.toInt
  return (lo, hi)

/-- `find_reference` with the binding of its parameters, which are integers of 64 bits. -/
def fetchReference (samples : List PriceSample) (category symbol : String) (target : ℤ)
    (tolerance : PyNumber) : Except PyExc (Option PyFloat) := do
  let (lo, hi) ← window target tolerance
  if sqliteBinds lo && sqliteBinds hi && sqliteBinds target then
    findReference samples category symbol target tolerance
  else .error (.overflowError "Python int too large to convert to SQLite INTEGER")

/-- The samples of a market between two times. -/
def between (samples : List PriceSample) (market : String × String) (lo hi : ℤ) :
    List PriceSample :=
  samples.filter fun row => row.market = market && lo ≤ row.timestamp && row.timestamp ≤ hi

/-- The samples of a market within the tolerance. -/
def within (samples : List PriceSample) (market : String × String) (target : ℤ) (tolerance : ℚ) :
    List PriceSample :=
  samples.filter fun row => row.market = market && |(row.timestamp : ℚ) - target| ≤ tolerance

/-- `(category, symbol, timestamp)` is the primary key of the table. -/
def SamplesKeyed (samples : List PriceSample) : Prop :=
  (samples.map fun row => (row.market, row.timestamp)).Nodup

/-- The price of the nearest sample within the tolerance, the later one on a tie, or `none` if there
is no sample within the tolerance. -/
def IsReference (samples : List PriceSample) (market : String × String) (target : ℤ)
    (tolerance : ℚ) : Option PyFloat → Prop
  | none => within samples market target tolerance = []
  | some price => ∃ row ∈ within samples market target tolerance, row.price = price ∧
      ∀ other ∈ samples, other.market = market →
        |row.timestamp - target| ≤ |other.timestamp - target| ∧
          (|row.timestamp - target| = |other.timestamp - target| → other.timestamp ≤ row.timestamp)

variable {samples : List PriceSample} {market : String × String} {target : ℤ} {tolerance : ℚ}

theorem mem_between {lo hi : ℤ} {row : PriceSample} :
    row ∈ between samples market lo hi ↔
      row ∈ samples ∧ row.market = market ∧ lo ≤ row.timestamp ∧ row.timestamp ≤ hi := by
  simp [between, and_assoc]

theorem mem_within {row : PriceSample} :
    row ∈ within samples market target tolerance ↔
      row ∈ samples ∧ row.market = market ∧ |(row.timestamp : ℚ) - target| ≤ tolerance := by
  simp [within]

/-- The first row comes before all rows. -/
theorem nearest_precedes {rows : List PriceSample} {row : PriceSample}
    (h : nearest target rows = some row) :
    ∀ other ∈ rows, |row.timestamp - target| ≤ |other.timestamp - target| ∧
      (|row.timestamp - target| = |other.timestamp - target| →
        other.timestamp ≤ row.timestamp) := by
  induction rows generalizing row with
  | nil => cases h
  | cons head rows ih =>
      rw [nearest] at h
      split at h
      · rename_i hnone
        cases h
        simp [nearest_eq_none_iff.mp hnone]
      · rename_i other hother
        have hleast := ih hother
        have hlist := (nearest_spec hother).1
        split at h <;> rename_i hprecedes <;> cases h <;>
          simp only [precedes, Bool.or_eq_true, Bool.and_eq_true, decide_eq_true_eq, not_or,
            not_and, not_lt, not_le] at hprecedes
        · refine List.forall_mem_cons.mpr ⟨⟨le_rfl, fun _ => le_rfl⟩, fun x hx => ?_⟩
          obtain ⟨hle, hlater⟩ := hleast x hx
          exact ⟨by omega, fun heq => by omega⟩
        · refine List.forall_mem_cons.mpr ⟨⟨by omega, fun heq => ?_⟩, hleast⟩
          have := hprecedes.2 heq.symm
          omega

theorem dist_cast (row : PriceSample) (target : ℤ) :
    |(row.timestamp : ℚ) - target| = (|row.timestamp - target| : ℤ) := by
  push_cast
  rfl

/-- The first row within the tolerance is the nearest one of its market. -/
theorem isReference_of_nearest {row : PriceSample}
    (h : nearest target (within samples market target tolerance) = some row) :
    IsReference samples market target tolerance (some row.price) := by
  have hmem := (nearest_spec h).1
  refine ⟨row, hmem, rfl, fun other hother hmarket => ?_⟩
  by_cases hclose : |(other.timestamp : ℚ) - target| ≤ tolerance
  · exact nearest_precedes h other (mem_within.mpr ⟨hother, hmarket, hclose⟩)
  · -- a sample outside the tolerance is farther away
    have hlt := (mem_within.mp hmem).2.2.trans_lt (not_le.mp hclose)
    rw [dist_cast, dist_cast, Int.cast_lt] at hlt
    exact ⟨hlt.le, fun heq => absurd heq hlt.ne⟩

/-- By the key of the table, the reference is the price of one sample. -/
theorem isReference_iff (hkeyed : SamplesKeyed samples) {reference : Option PyFloat} :
    IsReference samples market target tolerance reference ↔
      (nearest target (within samples market target tolerance)).map PriceSample.price =
        reference := by
  cases hnearest : nearest target (within samples market target tolerance) with
  | none =>
      have hempty := nearest_eq_none_iff.mp hnearest
      cases reference with
      | none => exact iff_of_true hempty rfl
      | some price =>
          refine iff_of_false (fun h => ?_) nofun
          obtain ⟨row, hrow, -⟩ := h
          rw [hempty] at hrow
          cases hrow
  | some row =>
      have hmem := (nearest_spec hnearest).1
      cases reference with
      | none =>
          refine iff_of_false (fun h => ?_) nofun
          have h : within samples market target tolerance = [] := h
          rw [h] at hmem
          cases hmem
      | some price =>
          rw [Option.map_some, Option.some.injEq]
          refine ⟨fun h => ?_, fun heq => heq ▸ isReference_of_nearest hnearest⟩
          obtain ⟨other, hother, rfl, hbest⟩ := h
          obtain ⟨hsample, hmarket, -⟩ := mem_within.mp hmem
          obtain ⟨hotherSample, hotherMarket, -⟩ := mem_within.mp hother
          -- two nearest samples are at the same time
          obtain ⟨hle, hlater⟩ := nearest_precedes hnearest other hother
          obtain ⟨hge, hearlier⟩ := hbest row hsample hmarket
          have hdist := le_antisymm hle hge
          have htime := le_antisymm (hearlier hdist.symm) (hlater hdist)
          have hsame := List.inj_on_of_nodup_map hkeyed hsample hotherSample
            (Prod.ext (hmarket.trans hotherMarket.symm) htime)
          rw [hsame]

variable {category symbol : String} {tolerance' : PyNumber} {lo hi : ℤ}

/-- `find_reference` takes the first row of its window, if its parameters can be bound. -/
theorem fetchReference_eq (h : window target tolerance' = .ok (lo, hi)) :
    fetchReference samples category symbol target tolerance' =
      if sqliteBinds lo && sqliteBinds hi && sqliteBinds target then
        .ok ((nearest target (between samples (category, symbol) lo hi)).map PriceSample.price)
      else .error (.overflowError "Python int too large to convert to SQLite INTEGER") := by
  rw [fetchReference, h]
  have hreference : findReference samples category symbol target tolerance' =
      .ok ((nearest target (between samples (category, symbol) lo hi)).map PriceSample.price) := by
    obtain ⟨lo', hlo, hrest⟩ := PyExc.bind_eq_ok.mp h
    obtain ⟨hi', hhi, hends⟩ := PyExc.bind_eq_ok.mp hrest
    cases hends
    rw [findReference, hlo, hhi]
    rfl
  rw [← hreference]
  rfl

/-- `find_reference` finds the reference. -/
def Finds (samples : List PriceSample) (category symbol : String) (target : ℤ) (tolerance : ℚ) :
    Prop :=
  ∃ reference, fetchReference samples category symbol target (.float (.finite tolerance)) =
    .ok reference ∧ IsReference samples (category, symbol) target tolerance reference

/-- It does, if the window fits into 64 bits and the nearest sample of the window has the price of
the nearest one within the tolerance. -/
theorem finds_iff (hkeyed : SamplesKeyed samples) :
    Finds samples category symbol target tolerance ↔
      ∃ lo hi, window target (.float (.finite tolerance)) = .ok (lo, hi) ∧
        (sqliteBinds lo && sqliteBinds hi && sqliteBinds target) = true ∧
        (nearest target (within samples (category, symbol) target tolerance)).map
            PriceSample.price =
          (nearest target (between samples (category, symbol) lo hi)).map PriceSample.price := by
  constructor
  · rintro ⟨reference, hfetch, hreference⟩
    cases hwindow : window target (.float (.finite tolerance)) with
    | error exc =>
        rw [fetchReference, hwindow] at hfetch
        cases hfetch
    | ok ends =>
        rw [fetchReference_eq hwindow] at hfetch
        split at hfetch
        · cases hfetch
          exact ⟨ends.1, ends.2, rfl, ‹_›, (isReference_iff hkeyed).mp hreference⟩
        · cases hfetch
  · rintro ⟨lo, hi, hwindow, hbinds, hsame⟩
    refine ⟨_, ?_, (isReference_iff hkeyed).mpr hsame⟩
    rw [fetchReference_eq hwindow, if_pos hbinds]

/-! ## Below 2 ^ 53 -/

/-- The ends of the window for a target and a tolerance below 2 ^ 53. -/
def windowEnds (target : ℤ) (tolerance : ℚ) : ℤ × ℤ :=
  ((PyFloat.roundBinary64 (target - tolerance)).truncated,
    (PyFloat.roundBinary64 (target + tolerance)).truncated)

section Small

variable (htarget : 0 ≤ target) (htolerance : 0 ≤ tolerance) (hsmall : target + tolerance < 2 ^ 53)
include htarget htolerance hsmall

/-- The window has the samples within the tolerance, and samples at its ends. -/
theorem window_ends :
    window target (.float (.finite tolerance)) = .ok (windowEnds target tolerance) ∧
      (∀ n : ℤ, |(n : ℚ) - target| ≤ tolerance →
        (windowEnds target tolerance).1 ≤ n ∧ n ≤ (windowEnds target tolerance).2) ∧
      (∀ n : ℤ, (windowEnds target tolerance).1 ≤ n → n ≤ (windowEnds target tolerance).2 →
        |(n : ℚ) - target| ≤ tolerance ∨ n = (windowEnds target tolerance).1 ∨
          n = (windowEnds target tolerance).2) ∧
      (sqliteBinds (windowEnds target tolerance).1 && sqliteBinds (windowEnds target tolerance).2 &&
        sqliteBinds target) = true := by
  have hnonneg : (0 : ℚ) ≤ target := by exact_mod_cast htarget
  obtain ⟨r, hr, hrge, hrle⟩ := @PyFloat.roundBinary64_around (target - tolerance) (by
    rw [abs_lt]
    constructor <;> linarith)
  obtain ⟨q, hq, hqge, hqle⟩ := @PyFloat.roundBinary64_around (target + tolerance) (by
    rw [abs_lt]
    constructor <;> linarith)
  have hends : windowEnds target tolerance =
      ((PyFloat.finite r).truncated, (PyFloat.finite q).truncated) := by
    rw [windowEnds, hr, hq]
  have hexact : PyFloat.ofInt target = .ok (.finite target) := by
    rw [PyFloat.ofInt, PyFloat.roundBinary64_intCast]
    rw [abs_of_nonneg htarget]
    exact_mod_cast (le_add_of_nonneg_right htolerance).trans_lt hsmall
  have hbind (n : ℤ) (hge : -2 ^ 53 ≤ n) (hle : n ≤ 2 ^ 53) : sqliteBinds n = true := by
    simp only [sqliteBinds, Bool.and_eq_true, decide_eq_true_eq]
    omega
  refine ⟨?_, fun n hn => ?_, fun n hlo hhi => ?_, ?_⟩
  · -- the two sums are rounded once
    have hlo : (PyNumber.neg (.float (.finite tolerance))).addInt target =
        .ok (.float (.finite r)) := by
      rw [PyNumber.neg, PyFloat.neg, PyNumber.addInt, hexact, ← hr, sub_eq_add_neg]
      rfl
    have hhi : (PyNumber.float (.finite tolerance)).addInt target = .ok (.float (.finite q)) := by
      rw [PyNumber.addInt, hexact, ← hq]
      rfl
    rw [window, hlo, hhi, hends]
    rfl
  · rw [hends]
    obtain ⟨hlower, hupper⟩ := abs_le.mp hn
    exact ⟨PyFloat.truncated_le (hrge n (by linarith)), PyFloat.le_truncated (hqle n (by linarith))⟩
  · rw [hends] at hlo hhi ⊢
    by_cases hclose : |(n : ℚ) - target| ≤ tolerance
    · exact Or.inl hclose
    · -- a number between an end and the tolerance is the end
      rcases lt_abs.mp (not_le.mp hclose) with habove | hbelow
      · refine Or.inr (Or.inr (le_antisymm hhi ?_))
        exact PyFloat.truncated_le (hqge n (by linarith))
      · refine Or.inr (Or.inl (le_antisymm ?_ hlo))
        exact PyFloat.le_truncated (hrle n (by linarith))
  · have hlarge : (-2 ^ 53 : ℤ) ≤ r := hrle (-2 ^ 53) (by push_cast; linarith)
    have hlarge' : r ≤ (2 ^ 53 : ℤ) := hrge (2 ^ 53) (by push_cast; linarith)
    have hlarge'' : (-2 ^ 53 : ℤ) ≤ q := hqle (-2 ^ 53) (by push_cast; linarith)
    have hlarge''' : q ≤ (2 ^ 53 : ℤ) := hqge (2 ^ 53) (by push_cast; linarith)
    have htargetLe : target ≤ 2 ^ 53 := by
      have : (target : ℚ) ≤ 2 ^ 53 := by linarith
      exact_mod_cast this
    rw [hends, hbind _ (PyFloat.le_truncated hlarge) (PyFloat.truncated_le hlarge'),
      hbind _ (PyFloat.le_truncated hlarge'') (PyFloat.truncated_le hlarge'''),
      hbind _ (by omega) htargetLe]
    rfl

/-- Below 2 ^ 53, the reference is found if a sample is within the tolerance, or none is at an end
of the window. -/
theorem finds_small_iff (samples : List PriceSample) (category symbol : String) :
    Finds samples category symbol target tolerance ↔
      (∃ row ∈ samples, row.market = (category, symbol) ∧
        |(row.timestamp : ℚ) - target| ≤ tolerance) ∨
      ∀ row ∈ samples, row.market = (category, symbol) →
        row.timestamp ≠ (windowEnds target tolerance).1 ∧
          row.timestamp ≠ (windowEnds target tolerance).2 := by
  obtain ⟨hwindow, hinside, hends, hbinds⟩ := window_ends htarget htolerance hsmall
  set lo := (windowEnds target tolerance).1
  set hi := (windowEnds target tolerance).2
  have hfetch := @fetchReference_eq samples target category symbol _ lo hi hwindow
  rw [if_pos hbinds] at hfetch
  have hnoneIff : within samples (category, symbol) target tolerance = [] ↔
      ¬ ∃ row ∈ samples, row.market = (category, symbol) ∧
        |(row.timestamp : ℚ) - target| ≤ tolerance := by
    simp [within, List.filter_eq_nil_iff]
  by_cases hsome : ∃ row ∈ samples, row.market = (category, symbol) ∧
      |(row.timestamp : ℚ) - target| ≤ tolerance
  · refine iff_of_true ⟨_, hfetch, ?_⟩ (Or.inl hsome)
    obtain ⟨close, hclose, hmarket, hdist⟩ := hsome
    have hcloseRow : close ∈ between samples (category, symbol) lo hi :=
      mem_between.mpr ⟨hclose, hmarket, hinside _ hdist⟩
    cases hnearest : nearest target (between samples (category, symbol) lo hi) with
    | none =>
        rw [nearest_eq_none_iff.mp hnearest] at hcloseRow
        cases hcloseRow
    | some row =>
        -- the first row of the window is as near as the sample within the tolerance
        obtain ⟨hrow, hrowMarket, -, -⟩ := mem_between.mp (nearest_spec hnearest).1
        have hrowDist : |(row.timestamp : ℚ) - target| ≤ tolerance := by
          have hle := (nearest_precedes hnearest close hcloseRow).1
          rw [dist_cast] at hdist ⊢
          exact (Int.cast_le.mpr hle).trans hdist
        refine ⟨row, mem_within.mpr ⟨hrow, hrowMarket, hrowDist⟩, rfl,
          fun other hother hotherMarket => ?_⟩
        by_cases hotherDist : |(other.timestamp : ℚ) - target| ≤ tolerance
        · exact nearest_precedes hnearest other
            (mem_between.mpr ⟨hother, hotherMarket, hinside _ hotherDist⟩)
        · have hlt := hrowDist.trans_lt (not_le.mp hotherDist)
          rw [dist_cast, dist_cast, Int.cast_lt] at hlt
          exact ⟨hlt.le, fun heq => absurd heq hlt.ne⟩
  · -- without a sample within the tolerance, the window has to be empty
    obtain ⟨hloTarget, hhiTarget⟩ := hinside target (by simpa using htolerance)
    constructor
    · rintro ⟨reference, hok, hreference⟩
      rw [hfetch] at hok
      refine Or.inr fun row hrow hmarket => ?_
      cases hnearest : nearest target (between samples (category, symbol) lo hi) with
      | none =>
          have hempty := nearest_eq_none_iff.mp hnearest
          have hout : row ∉ between samples (category, symbol) lo hi := by
            rw [hempty]
            exact List.not_mem_nil
          constructor
          · intro heq
            exact hout (mem_between.mpr ⟨hrow, hmarket, by omega, by omega⟩)
          · intro heq
            exact hout (mem_between.mpr ⟨hrow, hmarket, by omega, by omega⟩)
      | some found =>
          rw [hnearest, Option.map_some] at hok
          cases hok
          obtain ⟨other, hother, -⟩ := hreference
          rw [hnoneIff.mpr hsome] at hother
          cases hother
    · rintro (hclose | hends')
      · exact absurd hclose hsome
      · have hempty : between samples (category, symbol) lo hi = [] := by
          refine List.eq_nil_iff_forall_not_mem.mpr fun row hrow => ?_
          obtain ⟨hsample, hmarket, hge, hle⟩ := mem_between.mp hrow
          rcases hends _ hge hle with hdist | hlower | hupper
          · exact hsome ⟨row, hsample, hmarket, hdist⟩
          · exact (hends' row hsample hmarket).1 hlower
          · exact (hends' row hsample hmarket).2 hupper
        refine ⟨none, ?_, hnoneIff.mpr hsome⟩
        rw [hfetch, hempty]
        rfl

end Small

end PriceSampleRepository

open PriceSampleRepository

/-- `find_reference` returns the price of the nearest sample within the tolerance, or `None` if
there is none, if and only if its parameters fit into 64 bits and the nearest sample of its
truncated window has the price of the nearest one within the tolerance. Below 2 ^ 53 that means: a
sample is within the tolerance, or none is at an end of the window. -/
theorem reference_found_iff {samples : List PriceSample} {category symbol : String} {target : ℤ}
    {tolerance : ℚ} (hkeyed : SamplesKeyed samples) (htarget : 0 ≤ target)
    (htolerance : 0 ≤ tolerance) :
    (Finds samples category symbol target tolerance ↔
      ∃ lo hi, window target (.float (.finite tolerance)) = .ok (lo, hi) ∧
        (sqliteBinds lo && sqliteBinds hi && sqliteBinds target) = true ∧
        (nearest target (within samples (category, symbol) target tolerance)).map
            PriceSample.price =
          (nearest target (between samples (category, symbol) lo hi)).map PriceSample.price) ∧
    (target + tolerance < 2 ^ 53 →
      (Finds samples category symbol target tolerance ↔
        (∃ row ∈ samples, row.market = (category, symbol) ∧
          |(row.timestamp : ℚ) - target| ≤ tolerance) ∨
        ∀ row ∈ samples, row.market = (category, symbol) →
          row.timestamp ≠ (windowEnds target tolerance).1 ∧
            row.timestamp ≠ (windowEnds target tolerance).2)) :=
  ⟨finds_iff hkeyed, fun hsmall => finds_small_iff htarget htolerance hsmall samples category symbol⟩

/-- A sample 91 seconds before the target. -/
def lateSample : List PriceSample := [⟨"spot", "BTCUSDT", 909, 65000⟩]

/-- It is found with a tolerance of 91 seconds. -/
theorem reference_found_exact : Finds lateSample "spot" "BTCUSDT" 1000 91 := by
  have hiff := (@reference_found_iff lateSample "spot" "BTCUSDT" 1000 91
    (by unfold SamplesKeyed; decide) (by decide) (by norm_num)).2 (by norm_num)
  refine hiff.mpr (Or.inl ⟨_, List.mem_singleton_self _, rfl, ?_⟩)
  norm_num

/-- With a tolerance of 90.5 seconds it is found as well. -/
theorem reference_found_outside :
    ¬ ∀ (samples : List PriceSample) (category symbol : String) (target : ℤ) (tolerance : ℚ),
      SamplesKeyed samples → 0 ≤ target → 0 ≤ tolerance →
        Finds samples category symbol target tolerance := by
  intro h
  obtain ⟨reference, hfetch, hreference⟩ :=
    h lateSample "spot" "BTCUSDT" 1000 (181 / 2) (by unfold SamplesKeyed; decide) (by decide)
      (by norm_num)
  have hfound : fetchReference lateSample "spot" "BTCUSDT" 1000 (.float (.finite (181 / 2))) =
      .ok (some 65000) := by
    have hwindow : window 1000 (.float (.finite (181 / 2))) = .ok (909, 1090) := by
      rw [(window_ends (by decide : (0 : ℤ) ≤ 1000) (by norm_num : (0 : ℚ) ≤ 181 / 2)
        (by norm_num)).1]
      decide +kernel
    rw [fetchReference_eq hwindow, if_pos (by decide)]
    decide +kernel
  rw [hfound] at hfetch
  cases hfetch
  obtain ⟨row, hrow, -⟩ := hreference
  obtain ⟨hsample, -, hdist⟩ := mem_within.mp hrow
  rw [List.mem_singleton.mp hsample] at hdist
  norm_num [abs_le] at hdist

end BybitMonitor
