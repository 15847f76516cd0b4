import Mathlib
import BybitMonitor.Python.Text
import BybitMonitor.Market.Momentum

/-!
# Unique-coin aggregation

Qualifying markets are grouped by base coin and each coin is represented by its best market.
The alert policy consumes the resulting `QualifyingSet` only.

* `aggregateQualifying`: the aggregation of `app/market/deduplication.py`.
* `QualifyingSet.fingerprint`: the sorted coins that identify a composition.
-/

namespace BybitMonitor

/-- `STABLECOIN_QUOTES`. -/
def stablecoinQuotes : List String :=
  ["USDT", "USDC", "DAI", "FDUSD", "TUSD", "BUSD", "PYUSD", "EUR", "USD"]

/-- `_tie_break_rank`: the lower rank wins between markets with the same increase. -/
def tieBreakRank (value : MomentumValue) : ℕ :=
  if value.category = "linear" then
    if value.settleCoin = some "USDT" then 0
    else if value.settleCoin = some "USDC" then 1
    else 2
  else if value.category = "spot" then
    if PyText.upper (PyText.orElse value.quoteCoin "") ∈ stablecoinQuotes then 3 else 4
  else 5

/-- One base coin with its representative market and the rest. -/
structure RepresentativeMarket where
  baseCoin : String
  representative : MomentumValue
  others : List MomentumValue := []
  deriving DecidableEq, Repr

/-- Unique qualifying base coins; the only input to the alert policy. -/
structure QualifyingSet where
  representatives : List RepresentativeMarket := []
  deriving DecidableEq, Repr

namespace QualifyingSet

/-- The number of qualifying coins. -/
def count (self : QualifyingSet) : ℕ := self.representatives.length

/-- The coins in the order of their representatives. -/
def baseCoins (self : QualifyingSet) : List String :=
  self.representatives.map RepresentativeMarket.baseCoin

/-- The sorted coins, used to detect a change of composition. -/
def fingerprint (self : QualifyingSet) : List String :=
  self.baseCoins.insertionSort (· ≤ ·)

/-- The set in which each of the coins has one rising spot market. -/
def ofCoins (coins : List String) : QualifyingSet where
  representatives := coins.map fun coin =>
    { baseCoin := coin
      representative :=
        { category := "spot", symbol := coin ++ "USDT", baseCoin := coin, change1h := some 6,
          status := .ok } }

end QualifyingSet

/-- The increase that a market is ranked by, `float(m.change_1h or 0.0)`. -/
def rankedChange (value : MomentumValue) : PyFloat := value.change1h.getD 0

/-- The sort key `(-change, rank, symbol)` of `value` is at most the one of `other`. -/
def rankedBefore (value other : MomentumValue) : Bool :=
  (rankedChange other).lt (rankedChange value) ||
    (!(rankedChange value).lt (rankedChange other) &&
      (tieBreakRank value < tieBreakRank other ||
        (tieBreakRank value = tieBreakRank other && value.symbol ≤ other.symbol)))

/-- `by_coin.setdefault(value.base_coin, []).append(value)`. -/
def appendToCoin (groups : List (String × List MomentumValue)) (value : MomentumValue) :
    List (String × List MomentumValue) :=
  if groups.any (fun group => group.1 = value.baseCoin) then
    groups.map fun group =>
      if group.1 = value.baseCoin then (group.1, group.2 ++ [value]) else group
  else groups ++ [(value.baseCoin, [value])]

/-- The best market of a coin represents it. -/
def representCoin (group : String × List MomentumValue) : Option RepresentativeMarket :=
  match group.2.insertionSort (fun value other => rankedBefore value other = true) with
  | [] => none
  | representative :: others => some { baseCoin := group.1, representative, others }

/-- Group qualifying momentum values by base coin and pick representatives. -/
def aggregateQualifying (values : List MomentumValue) (threshold : PyFloat) : QualifyingSet :=
  let qualifying := values.filter fun value =>
    MomentumEngine.qualifies value.change1h threshold
  let byCoin := qualifying.foldl appendToCoin []
  let representatives := byCoin.filterMap representCoin
  { representatives := representatives.insertionSort fun r other => r.baseCoin ≤ other.baseCoin }

end BybitMonitor
