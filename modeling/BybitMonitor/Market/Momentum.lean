import Mathlib
import BybitMonitor.Python.Float

/-!
# Momentum values

The result of the momentum engine for one market, and the strict comparison with the threshold.
-/

namespace BybitMonitor

/-- Whether a market has a momentum. -/
inductive MomentumStatus
  | ok
  | warmingUp
  | noData
  deriving DecidableEq, Repr

/-- Momentum result for one market. -/
structure MomentumValue where
  category : String
  symbol : String
  baseCoin : String
  change1h : Option PyFloat
  status : MomentumStatus
  lastPrice : Option PyFloat := none
  markPrice : Option PyFloat := none
  change24h : Option PyFloat := none
  turnover24h : Option PyFloat := none
  fundingRate : Option PyFloat := none
  contractType : Option String := none
  settleCoin : Option String := none
  quoteCoin : Option String := none
  deriving DecidableEq, Repr

/-- `MomentumEngine.qualifies`: strictly greater, on the unrounded value. -/
def MomentumEngine.qualifies (change1h : Option PyFloat) (threshold : PyFloat) : Bool :=
  match change1h with
  | none => false
  | some change => threshold.lt change

end BybitMonitor
