import Mathlib
import BybitMonitor.Config

/-!
# The price engine and its REST polling

`PriceEngine.updateTickers` and `TickerPollService.poll_once`, with the replies of the REST client
and of the instrument table as arguments.

* `TickerPollService.pollOnce_error_iff`: a poll raises what the first of its failing replies is.
-/

namespace BybitMonitor

/-- A normalized instrument. -/
structure Instrument where
  category : String
  symbol : String
  baseCoin : String
  quoteCoin : Option String := none
  settleCoin : Option String := none
  contractType : Option String := none
  status : String := "Trading"
  launchTime : Option ℤ := none
  deliveryTime : Option ℤ := none
  isPreListing : Bool := false
  deriving DecidableEq, Repr

/-- A normalized ticker. -/
structure Ticker where
  category : String
  symbol : String
  lastPrice : Option PyFloat := none
  markPrice : Option PyFloat := none
  indexPrice : Option PyFloat := none
  prevPrice1h : Option PyFloat := none
  change24h : Option PyFloat := none
  turnover24h : Option PyFloat := none
  volume24h : Option PyFloat := none
  openInterest : Option PyFloat := none
  fundingRate : Option PyFloat := none
  timestamp : ℤ := 0
  deriving DecidableEq, Repr

def Ticker.identity (self : Ticker) : String × String := (self.category, self.symbol)

/-- A dictionary from identities to tickers, in the order of insertion. -/
abbrev TickerStore := List ((String × String) × Ticker)

/-- `store[ticker.identity] = ticker`: a key that is there keeps its place. -/
def TickerStore.put (store : TickerStore) (ticker : Ticker) : TickerStore :=
  if store.any fun entry => entry.1 = ticker.identity then
    store.map fun entry => if entry.1 = ticker.identity then (ticker.identity, ticker) else entry
  else store ++ [(ticker.identity, ticker)]

/-- The latest normalized prices, with the counters of the ingestion. -/
structure PriceEngine where
  latest : TickerStore := []
  received : ℕ := 0
  accepted : ℕ := 0
  rejected : ℕ := 0
  deriving DecidableEq, Repr

namespace PriceEngine

/-- `_accept`. -/
def accept (ticker : Ticker) : Bool :=
  if ticker.symbol = "" then false
  else if ticker.lastPrice.any fun price => price.lt 0 then false
  else true

/-- `update_tickers`, which returns the accepted tickers. -/
def updateTickers (self : PriceEngine) (tickers : List Ticker) : TickerStore × PriceEngine :=
  tickers.foldl
    (fun (updated, engine) ticker =>
      if accept ticker then
        (TickerStore.put updated ticker,
          { engine with
            received := engine.received + 1
            latest := TickerStore.put engine.latest ticker
            accepted := engine.accepted + 1 })
      else
        (updated,
          { engine with received := engine.received + 1, rejected := engine.rejected + 1 }))
    ([], self)

end PriceEngine

/-- Aggregated result of one ticker polling cycle. -/
structure PollSummary where
  received : ℕ := 0
  accepted : ℕ := 0
  rejected : ℕ := 0
  updatedCount : ℕ := 0
  spotInstruments : ℕ := 0
  linearUsdt : ℕ := 0
  linearUsdc : ℕ := 0
  durationSeconds : ℚ := 0
  deriving DecidableEq, Repr

/-- What one poll is answered: the outcomes of its REST calls and of `load_all`, and its readings of
the monotonic clock. -/
structure PollReplies where
  spot : Except PyExc (List Ticker) := .ok []
  linear : Except PyExc (List Ticker) := .ok []
  instruments : Except PyExc (List Instrument) := .ok []
  start : ℚ := 0
  finish : ℚ := 0

/-- The exception that an await raises. -/
def failure {α : Type} : Except PyExc α → Option PyExc
  | .ok _ => none
  | .error exc => some exc

namespace TickerPollService

variable (config : Settings)

/-- `_fill_instrument_counts`. -/
def fillInstrumentCounts (summary : PollSummary) (instruments : List Instrument) : PollSummary :=
  let trading := instruments.filter fun inst => inst.status = "Trading"
  let linear := trading.filter fun inst => inst.category = "linear"
  { summary with
    spotInstruments := (trading.filter fun inst => inst.category = "spot").length
    linearUsdt := (linear.filter fun inst => inst.settleCoin = some "USDT").length
    linearUsdc := (linear.filter fun inst => inst.settleCoin = some "USDC").length }

/-- The REST calls of `poll_once`. -/
def fetch (replies : PollReplies) : Except PyExc (List Ticker) := do
  let spot ← if config.enableSpot then replies.spot else .ok []
  let linear ← if config.enableLinearUsdt || config.enableLinearUsdc then replies.linear else .ok []
  return spot ++ linear

/-- `poll_once` on the engine that it finds when the REST calls have returned. -/
def pollOnce (engine : PriceEngine) (replies : PollReplies) :
    Except PyExc PollSummary × PriceEngine :=
  match fetch config replies with
  | .error exc => (.error exc, engine)
  | .ok fetched =>
      let (updated, engine) := engine.updateTickers fetched
      let summary : PollSummary :=
        { received := engine.received
          accepted := engine.accepted
          rejected := engine.rejected
          updatedCount := updated.length
          durationSeconds :=
            PyFloat.roundHalfEven ((replies.finish - replies.start) * 1000) / 1000 }
      match replies.instruments with
      | .error exc => (.error exc, engine)
      | .ok instruments => (.ok (fillInstrumentCounts summary instruments), engine)

/-- The first failure among the replies that a poll awaits. -/
def firstFailure (replies : PollReplies) : Option PyExc :=
  ((if config.enableSpot then failure replies.spot else none).or
    (if config.enableLinearUsdt || config.enableLinearUsdc then failure replies.linear
      else none)).or (failure replies.instruments)

variable {config}

/-- The REST calls raise what the first of them raises. -/
theorem failure_fetch (replies : PollReplies) :
    failure (fetch config replies) =
      (if config.enableSpot then failure replies.spot else none).or
        (if config.enableLinearUsdt || config.enableLinearUsdc then failure replies.linear
          else none) := by
  rw [fetch]
  cases config.enableSpot <;> cases config.enableLinearUsdt || config.enableLinearUsdc <;>
    cases replies.spot <;> cases replies.linear <;> rfl

/-- A poll raises what the first of its failing replies is. -/
theorem pollOnce_error_iff {engine : PriceEngine} {replies : PollReplies} {exc : PyExc} :
    (pollOnce config engine replies).1 = .error exc ↔ firstFailure config replies = some exc := by
  rw [pollOnce, firstFailure, ← failure_fetch]
  cases fetch config replies with
  | error exc' => simp [failure]
  | ok fetched =>
      -- the table of instruments is read after the tickers are stored
      dsimp only
      cases replies.instruments with
      | error exc' => simp [failure]
      | ok instruments => simp [failure]

end TickerPollService

end BybitMonitor
