import Mathlib
import BybitMonitor.Market.Momentum
import BybitMonitor.Market.PriceEngine
import BybitMonitor.Python.Decimal
import BybitMonitor.Python.Number
import BybitMonitor.ToMathlib.Trace

/-!
# The spot history and the momentum engine

The table `price_samples` with its repository, `SpotHistory`, and `MomentumEngine.evaluate`, whose
runs interleave evaluations with prunes and restarts.

* `PriceSampleRepository.nearest_spec`: the row that `find_reference` takes.
* `SpotHistory.record_spec`: what a record leaves in the table and in the map of the process.
* `MomentumEngine.change_returns`: the change between two positive numbers is a number.
-/

namespace BybitMonitor

/-- `_as_float`, on what `float(value)` returns if it does. -/
def asFloat (converted : Option PyFloat) : Option PyFloat := converted.filter PyFloat.isFinite

/-- A ticker whose last price `parse_ticker` has read. -/
structure NormalizedTicker extends Ticker where
  converted : Option PyFloat
  normalized : toTicker.lastPrice = asFloat converted

/-- The last price of a normalized ticker is a number. -/
theorem NormalizedTicker.finite_lastPrice (ticker : NormalizedTicker) {price : PyFloat}
    (h : ticker.lastPrice = some price) : ∃ x, price = .finite x := by
  rw [ticker.normalized, asFloat, Option.filter_eq_some_iff] at h
  cases price with
  | finite x => exact ⟨x, rfl⟩
  | _ => cases h.2

/-! ## The table -/

/-- A row of the table `price_samples`. -/
structure PriceSample where
  category : String
  symbol : String
  timestamp : ℤ
  price : PyFloat
  deriving DecidableEq, Repr

/-- The market that a sample is of. -/
def PriceSample.market (self : PriceSample) : String × String := (self.category, self.symbol)

namespace PriceSampleRepository

/-- `insert_sample`: `OR IGNORE` skips a row whose key is taken, and a price that is not a number,
which SQLite stores as `NULL`. -/
def insertSample (samples : List PriceSample) (category symbol : String) (timestamp : ℤ)
    (price : PyFloat) : Bool × List PriceSample :=
  if price = .nan ||
      samples.any fun row => row.market = (category, symbol) && row.timestamp = timestamp then
    (false, samples)
  else (true, samples ++ [⟨category, symbol, timestamp, price⟩])

/-- The order of `find_reference`: by distance from the target, the later sample first. -/
def precedes (target : ℤ) (row other : PriceSample) : Bool :=
  |row.timestamp - target| < |other.timestamp - target| ||
    (|row.timestamp - target| = |other.timestamp - target| && other.timestamp ≤ row.timestamp)

/-- The first row in this order. -/
def nearest (target : ℤ) : List PriceSample → Option PriceSample
  | [] => none
  | row :: rows =>
      match nearest target rows with
      | none => some row
      | some other => if precedes target row other then some row else some other

theorem nearest_eq_none_iff {target : ℤ} {rows : List PriceSample} :
    nearest target rows = none ↔ rows = [] := by
  cases rows with
  | nil => simp [nearest]
  | cons row rows =>
      rw [nearest]
      split
      · simp
      · split <;> simp

/-- The first row is one of the rows, and none of them is nearer to the target. -/
theorem nearest_spec {target : ℤ} {rows : List PriceSample} {row : PriceSample}
    (h : nearest target rows = some row) :
    row ∈ rows ∧ ∀ other ∈ rows, |row.timestamp - target| ≤ |other.timestamp - target| := by
  induction rows generalizing row with
  | nil => cases h
  | cons head rows ih =>
      rw [nearest] at h
      split at h
      · rename_i hnone
        cases h
        simp [nearest_eq_none_iff.mp hnone]
      · rename_i other hother
        obtain ⟨hmem, hleast⟩ := ih hother
        split at h
        · rename_i hprecedes
          cases h
          -- the head is before the nearest of the rest, so it is no farther away
          have hle : |head.timestamp - target| ≤ |other.timestamp - target| := by
            simp only [precedes, Bool.or_eq_true, Bool.and_eq_true, decide_eq_true_eq] at hprecedes
            omega
          refine ⟨List.mem_cons_self, List.forall_mem_cons.mpr ⟨le_rfl, fun x hx => ?_⟩⟩
          exact hle.trans (hleast x hx)
        · rename_i hprecedes
          cases h
          refine ⟨List.mem_cons_of_mem _ hmem, List.forall_mem_cons.mpr ⟨?_, hleast⟩⟩
          simp only [precedes, Bool.or_eq_true, Bool.and_eq_true, decide_eq_true_eq] at hprecedes
          omega

/-- `find_reference`. -/
def findReference (samples : List PriceSample) (category symbol : String) (target : ℤ)
    (tolerance : PyNumber) : Except PyExc (Option PyFloat) := do
  let lo ← tolerance.neg.addInt target >>= PyNumber.toInt
  let hi ← tolerance.addInt target >>= PyNumber.toInt
  let rows := samples.filter fun row =>
    row.market = (category, symbol) && lo ≤ row.timestamp && row.timestamp ≤ hi
  return (nearest target rows).map PriceSample.price

/-- If there is a sample within the tolerance, `find_reference` returns the price of one. -/
theorem findReference_spec {samples : List PriceSample} {category symbol : String}
    {target tolerance : ℤ} {x : PyNumber}
    (hlo : (x.neg.addInt target >>= PyNumber.toInt) = .ok (target - tolerance))
    (hhi : (x.addInt target >>= PyNumber.toInt) = .ok (target + tolerance))
    (hnear : ∃ row ∈ samples, row.market = (category, symbol) ∧
      |row.timestamp - target| ≤ tolerance) :
    ∃ row ∈ samples, row.market = (category, symbol) ∧ |row.timestamp - target| ≤ tolerance ∧
      findReference samples category symbol target x = .ok (some row.price) := by
  -- the rows of the query are those within the tolerance
  let rows := samples.filter fun row =>
    row.market = (category, symbol) && target - tolerance ≤ row.timestamp &&
      row.timestamp ≤ target + tolerance
  have hrows (row : PriceSample) : row ∈ rows ↔ row ∈ samples ∧ row.market = (category, symbol) ∧
      |row.timestamp - target| ≤ tolerance := by
    simp only [rows, List.mem_filter, Bool.and_eq_true, decide_eq_true_eq, abs_le, and_assoc]
    constructor
    · rintro ⟨hrow, hmarket, hge, hle⟩
      exact ⟨hrow, hmarket, by omega, by omega⟩
    · rintro ⟨hrow, hmarket, hge, hle⟩
      exact ⟨hrow, hmarket, by omega, by omega⟩
  cases hnearest : nearest target rows with
  | none =>
      obtain ⟨row, hrow⟩ := hnear
      have hmem := (hrows row).mpr hrow
      rw [nearest_eq_none_iff.mp hnearest] at hmem
      cases hmem
  | some row =>
      obtain ⟨hmem, hmarket, hclose⟩ := (hrows row).mp (nearest_spec hnearest).1
      refine ⟨row, hmem, hmarket, hclose, ?_⟩
      rw [findReference, hlo, hhi]
      change (Except.ok ((nearest target rows).map PriceSample.price) : Except PyExc _) = _
      rw [hnearest]
      rfl

/-- After an insert of a number, the table has a row with its key; other rows are not touched. -/
theorem insertSample_spec {samples samples' : List PriceSample} {category symbol : String}
    {timestamp : ℤ} {price : PyFloat} {inserted : Bool} (hprice : price ≠ .nan)
    (h : insertSample samples category symbol timestamp price = (inserted, samples')) :
    (∃ row ∈ samples', row.market = (category, symbol) ∧ row.timestamp = timestamp) ∧
      samples' ⊆ ⟨category, symbol, timestamp, price⟩ :: samples ∧ samples ⊆ samples' := by
  rw [insertSample] at h
  split at h
  · rename_i htaken
    cases h
    -- a row that is skipped for its key has one in the table already
    obtain ⟨row, hrow, hmarket⟩ : ∃ row ∈ samples, row.market = (category, symbol) ∧
        row.timestamp = timestamp := by simpa [hprice] using htaken
    exact ⟨⟨row, hrow, hmarket⟩, List.subset_cons_self _ _, List.Subset.refl _⟩
  · cases h
    refine ⟨⟨⟨category, symbol, timestamp, price⟩, by simp, rfl, rfl⟩, ?_, by simp⟩
    intro row hrow
    simpa [or_comm] using hrow

/-- `cleanup_older_than`, with the number of deleted rows. -/
def cleanupOlderThan (samples : List PriceSample) (cutoff : ℤ) : ℕ × List PriceSample :=
  ((samples.filter fun row => row.timestamp < cutoff).length,
    samples.filter fun row => !(row.timestamp < cutoff))

end PriceSampleRepository

/-! ## The history -/

/-- `SpotHistory`. -/
structure SpotHistory where
  sampleSeconds : PyNumber := .float 60
  toleranceSeconds : PyNumber := .float 90
  lastSampleAt : List ((String × String) × ℤ) := []
  deriving DecidableEq, Repr

namespace SpotHistory

/-- `SECONDS_PER_HOUR`. -/
def secondsPerHour : ℤ := 3600

/-- `self._last_sample_at[market] = timestamp`. -/
def setLast (self : SpotHistory) (market : String × String) (timestamp : ℤ) : SpotHistory :=
  { self with
    lastSampleAt := (market, timestamp) :: self.lastSampleAt.filter fun entry => entry.1 ≠ market }

/-- Whether a sample of the market was written less than `sample_seconds` ago. -/
def recentlySampled (self : SpotHistory) (market : String × String) (timestamp : ℤ) : Bool :=
  (self.lastSampleAt.lookup market).any fun last => self.sampleSeconds.gtInt (timestamp - last)

/-- `record`. -/
def record (self : SpotHistory) (samples : List PriceSample) (category symbol : String)
    (timestamp : ℤ) (price : Option PyFloat) : Bool × SpotHistory × List PriceSample :=
  match price with
  | none => (false, self, samples)
  | some price =>
      if price.le 0 then (false, self, samples)
      else if self.recentlySampled (category, symbol) timestamp then (false, self, samples)
      else
        match PriceSampleRepository.insertSample samples category symbol timestamp price with
        | (true, samples) => (true, self.setLast (category, symbol) timestamp, samples)
        | (false, samples) => (false, self, samples)

@[simp]
theorem lookup_setLast_self {self : SpotHistory} {market : String × String} {timestamp : ℤ} :
    (self.setLast market timestamp).lastSampleAt.lookup market = some timestamp := by
  simp [setLast]

theorem lookup_setLast_of_ne {self : SpotHistory} {market other : String × String} {timestamp : ℤ}
    (h : other ≠ market) :
    (self.setLast market timestamp).lastSampleAt.lookup other =
      self.lastSampleAt.lookup other := by
  rw [setLast, List.lookup_cons]
  have hne : (other == market) = false := by simpa using h
  rw [hne]
  dsimp only
  induction self.lastSampleAt with
  | nil => rfl
  | cons entry entries ih =>
      by_cases hentry : entry.1 = market
      · -- the entry that is replaced is the one of the market
        have hother : (other == entry.1) = false := by simpa [hentry] using h
        rw [List.filter_cons_of_neg (by simpa using hentry), List.lookup_cons, hother]
        exact ih
      · rw [List.filter_cons_of_pos (by simpa using hentry), List.lookup_cons, List.lookup_cons, ih]

/-- A record of a positive number. -/
theorem record_spec {self history : SpotHistory} {samples samples' : List PriceSample}
    {category symbol : String} {timestamp : ℤ} {x : ℚ} {recorded : Bool} (hx : 0 < x)
    (h : self.record samples category symbol timestamp (some (.finite x)) =
      (recorded, history, samples')) :
    samples' ⊆ ⟨category, symbol, timestamp, .finite x⟩ :: samples ∧ samples ⊆ samples' ∧
      (self.recentlySampled (category, symbol) timestamp = true ∨
        ∃ row ∈ samples', row.market = (category, symbol) ∧ row.timestamp = timestamp) ∧
      (history = self ∨ history = self.setLast (category, symbol) timestamp ∧
        ∃ row ∈ samples', row.market = (category, symbol) ∧ row.timestamp = timestamp) := by
  rw [record, if_neg (by simpa using PyFloat.le_zero_eq_false_iff.mpr hx)] at h
  split at h
  · -- too soon after the last one: nothing is written
    rename_i hrecent
    cases h
    exact ⟨List.subset_cons_self _ _, List.Subset.refl _, Or.inl hrecent, Or.inl rfl⟩
  · split at h
    · rename_i hinsert
      obtain ⟨hrow, hsub, hsup⟩ := PriceSampleRepository.insertSample_spec (by simp) hinsert
      cases h
      exact ⟨hsub, hsup, Or.inr hrow, Or.inr ⟨rfl, hrow⟩⟩
    · rename_i hinsert
      obtain ⟨hrow, hsub, hsup⟩ := PriceSampleRepository.insertSample_spec (by simp) hinsert
      cases h
      -- the key was taken, so the map is left as it was
      exact ⟨hsub, hsup, Or.inr hrow, Or.inl rfl⟩

/-- `find_anchor`. -/
def findAnchor (self : SpotHistory) (samples : List PriceSample) (category symbol : String)
    (now : ℤ) : Except PyExc (Option PyFloat) :=
  PriceSampleRepository.findReference samples category symbol (now - secondsPerHour)
    self.toleranceSeconds

/-- `prune`. -/
def prune (samples : List PriceSample) (now : ℤ) (retentionSeconds : PyNumber) :
    Except PyExc (ℕ × List PriceSample) := do
  let retention ← retentionSeconds.toInt
  return PriceSampleRepository.cleanupOlderThan samples (now - retention)

end SpotHistory

/-! ## The engine -/

namespace MomentumEngine

/-- `_raw_change`. -/
def rawChange (last reference : PyFloat) : Except PyExc PyFloat := do
  let quotient ← (PyDecimal.ofFloat last).div (PyDecimal.ofFloat reference)
  return ((quotient.sub 1).mul 100).toFloat

/-- `linear_change` and `spot_change`, which differ in the name of the second price only. -/
def change (lastPrice reference : Option PyFloat) : Except PyExc (Option PyFloat) :=
  match lastPrice, reference with
  | some last, some reference =>
      if last.le 0 || reference.le 0 then .ok none else some <$> rawChange last reference
  | _, _ => .ok none

/-- `linear_change`. -/
def linearChange (lastPrice prevPrice1h : Option PyFloat) : Except PyExc (Option PyFloat) :=
  change lastPrice prevPrice1h

/-- `spot_change`. -/
def spotChange (lastPrice anchor : Option PyFloat) : Except PyExc (Option PyFloat) :=
  change lastPrice anchor

/-- The change between two positive numbers is a number. -/
theorem change_returns {x y : ℚ} (hx : 0 < x) (hy : 0 < y) :
    ∃ result, change (some (.finite x)) (some (.finite y)) = .ok (some result) := by
  -- the divisor is not zero, since the shortest decimal of a positive number is not
  simp only [change, PyFloat.le_zero_eq_false_iff.mpr hx, PyFloat.le_zero_eq_false_iff.mpr hy,
    rawChange, PyDecimal.ofFloat, PyDecimal.div, PyFloat.shortest_ne_zero hy.ne', if_false]
  exact ⟨_, rfl⟩

/-- What `evaluate` returns for a market without data. -/
def baseValue (instrument : Instrument) (ticker : Ticker) : MomentumValue where
  category := instrument.category
  symbol := instrument.symbol
  baseCoin := instrument.baseCoin
  change1h := none
  status := .noData
  lastPrice := ticker.lastPrice
  markPrice := ticker.markPrice
  change24h := ticker.change24h
  turnover24h := ticker.turnover24h
  fundingRate := ticker.fundingRate
  contractType := instrument.contractType
  settleCoin := instrument.settleCoin
  quoteCoin := instrument.quoteCoin

/-- The result of `evaluate` for a linear market. -/
def evaluateLinear (base : MomentumValue) (ticker : Ticker) : Except PyExc MomentumValue := do
  let change1h ← linearChange ticker.lastPrice ticker.prevPrice1h
  return { base with change1h, status := if change1h.isSome then .ok else .noData }

/-- The result of `evaluate` for a spot market whose anchor was looked up. -/
def evaluateAnchor (base : MomentumValue) (ticker : Ticker) :
    Option PyFloat → Except PyExc MomentumValue
  | none => .ok { base with status := .warmingUp }
  | some anchor =>
      if anchor.le 0 then .ok { base with status := .warmingUp }
      else do
        let change1h ← spotChange ticker.lastPrice (some anchor)
        return { base with change1h, status := if change1h.isSome then .ok else .warmingUp }

/-- An anchor with a change gives the status OK. -/
theorem evaluateAnchor_ok {base : MomentumValue} {ticker : Ticker} {anchor change1h : PyFloat}
    {y : ℚ} (hy : 0 < y) (hanchor : anchor = .finite y)
    (hchange : spotChange ticker.lastPrice (some anchor) = .ok (some change1h)) :
    evaluateAnchor base ticker (some anchor) =
      .ok { base with change1h := some change1h, status := .ok } := by
  have hpositive : ¬ anchor.le 0 = true := by
    rw [hanchor, PyFloat.le_zero_eq_false_iff.mpr hy]
    simp
  rw [evaluateAnchor, if_neg hpositive, hchange]
  rfl

end MomentumEngine

/-- The state that evaluations share: the table and the history object of the process. -/
structure SpotState where
  history : SpotHistory := {}
  samples : List PriceSample := []
  deriving DecidableEq, Repr

/-- The process starts on a table. -/
def SpotState.start (sampleSeconds toleranceSeconds : PyNumber) (samples : List PriceSample) :
    SpotState where
  history := ⟨sampleSeconds, toleranceSeconds, []⟩
  samples := samples

/-- `MomentumEngine.evaluate`. -/
def MomentumEngine.evaluate (self : SpotState) (instrument : Instrument) (ticker : Ticker)
    (now : ℤ) : Except PyExc MomentumValue × SpotState :=
  let base := baseValue instrument ticker
  if ticker.lastPrice.all fun price => price.le 0 then (.ok base, self)
  else if instrument.category = "linear" then (evaluateLinear base ticker, self)
  else
    let (_, history, samples) :=
      self.history.record self.samples instrument.category instrument.symbol now ticker.lastPrice
    (history.findAnchor samples instrument.category instrument.symbol now >>=
        evaluateAnchor base ticker,
      ⟨history, samples⟩)

/-! ## Runs -/

/-- An event: an evaluation with its outcome, a prune, or a restart. -/
inductive SpotEvent
  | evaluated (instrument : Instrument) (ticker : NormalizedTicker) (now : ℤ)
      (outcome : Except PyExc MomentumValue)
  | pruned (now : ℤ)
  | restarted

/-- One event of a run with these settings. -/
inductive SpotStep (sampleSeconds toleranceSeconds retentionSeconds : PyNumber) :
    SpotState → SpotEvent → SpotState → Prop
  | evaluated {s : SpotState} (instrument : Instrument) (ticker : NormalizedTicker) (now : ℤ) :
      SpotStep sampleSeconds toleranceSeconds retentionSeconds s
        (.evaluated instrument ticker now
          (MomentumEngine.evaluate s instrument ticker.toTicker now).1)
        (MomentumEngine.evaluate s instrument ticker.toTicker now).2
  | pruned {s : SpotState} {now : ℤ} {deleted : ℕ} {samples : List PriceSample}
      (h : SpotHistory.prune s.samples now retentionSeconds = .ok (deleted, samples)) :
      SpotStep sampleSeconds toleranceSeconds retentionSeconds s (.pruned now)
        { s with samples := samples }
  | restarted {s : SpotState} :
      SpotStep sampleSeconds toleranceSeconds retentionSeconds s .restarted
        (SpotState.start sampleSeconds toleranceSeconds s.samples)

end BybitMonitor
