import Mathlib
import BybitMonitor.Market.PriceEngine
import BybitMonitor.Python.Rounding
import BybitMonitor.Telegram.Client

/-!
# The normalization of raw tickers

`parse_ticker` on a value that `json.loads` returns. What `str()` makes of a symbol that is no
string is a parameter.

* `Normalizer.parseTicker_spec`: the fields of a parsed ticker are converted one by one.
* `Normalizer.parseTicker_finite_lastPrice`: a parsed ticker has a finite last price, or none.
-/

namespace BybitMonitor

open TelegramClient (floatOf noDict)

/-- `value.get(key)`. -/
def Json.getKey (value : Json) (key : String) : Except PyExc Json :=
  match value with
  | object fields => .ok (get fields key)
  | other => noDict other

/-- `str(value or "")`. -/
def Json.textOr (str : Json → String) (value : Json) : String :=
  match value with
  | string text => text
  | other => if other.truthy then str other else ""

namespace Normalizer

/-- The result of a conversion, or `none` for the failures that `_as_float` and `_as_int_seconds`
catch. An `OverflowError` is not among them. -/
def caught {α : Type} : Except PyExc α → Except PyExc (Option α)
  | .ok value => .ok (some value)
  | .error exc => if exc.isTypeOrValueError then .ok none else .error exc

/-- `_as_float`. -/
def asFloat (value : Json) : Except PyExc (Option PyFloat) :=
  match value with
  | .null => .ok none
  | value => (fun result => result.filter PyFloat.isFinite) <$> caught (floatOf value)

/-- `_as_int_seconds`. -/
def asIntSeconds (value : Json) : Except PyExc (Option ℤ) :=
  match value with
  | .null => .ok none
  | value => caught ((fun ms => ms / 1000) <$> (floatOf value >>= PyFloat.toInt))

/-- `_percent_from_fraction`. -/
def percentFromFraction (value : Json) : Except PyExc (Option PyFloat) :=
  (fun raw => raw.map fun x => (x.mulPos 100).roundTo 6) <$> asFloat value

/-- The timestamp that `parse_ticker` reads, if it can. -/
def readTimestamp (raw tsMs : Json) : Except PyExc (Option ℤ) :=
  match tsMs with
  | .null => raw.getKey "timestamp" >>= asIntSeconds
  | ts => asIntSeconds ts

/-- `parse_ticker`. -/
def parseTicker (str : Json → String) (category : String) (raw tsMs : Json) :
    Except PyExc Ticker := do
  let timestamp ← readTimestamp raw tsMs
  return {
    category
    symbol := (← raw.getKey "symbol").textOr str
    lastPrice := ← raw.getKey "lastPrice" >>= asFloat
    markPrice := ← raw.getKey "markPrice" >>= asFloat
    indexPrice := ← raw.getKey "indexPrice" >>= asFloat
    prevPrice1h := ← raw.getKey "prevPrice1h" >>= asFloat
    change24h := ← raw.getKey "price24hPcnt" >>= percentFromFraction
    turnover24h := ← raw.getKey "turnover24h" >>= asFloat
    volume24h := ← raw.getKey "volume24h" >>= asFloat
    openInterest := ← raw.getKey "openInterest" >>= asFloat
    fundingRate := ← raw.getKey "fundingRate" >>= asFloat
    timestamp := timestamp.getD 0 }

end Normalizer

/-- The numeric fields of a ticker. -/
inductive TickerField
  | lastPrice
  | markPrice
  | indexPrice
  | prevPrice1h
  | change24h
  | turnover24h
  | volume24h
  | openInterest
  | fundingRate
  deriving DecidableEq, Repr

/-- The ticker with the given numbers. -/
def Ticker.ofFields (category symbol : String) (values : TickerField → Option PyFloat)
    (timestamp : ℤ) : Ticker where
  category
  symbol
  lastPrice := values .lastPrice
  markPrice := values .markPrice
  indexPrice := values .indexPrice
  prevPrice1h := values .prevPrice1h
  change24h := values .change24h
  turnover24h := values .turnover24h
  volume24h := values .volume24h
  openInterest := values .openInterest
  fundingRate := values .fundingRate
  timestamp

namespace TickerField

/-- The key of the field on the wire. -/
def key : TickerField → String
  | lastPrice => "lastPrice"
  | markPrice => "markPrice"
  | indexPrice => "indexPrice"
  | prevPrice1h => "prevPrice1h"
  | change24h => "price24hPcnt"
  | turnover24h => "turnover24h"
  | volume24h => "volume24h"
  | openInterest => "openInterest"
  | fundingRate => "fundingRate"

/-- The value of the field. -/
def get (ticker : Ticker) : TickerField → Option PyFloat
  | lastPrice => ticker.lastPrice
  | markPrice => ticker.markPrice
  | indexPrice => ticker.indexPrice
  | prevPrice1h => ticker.prevPrice1h
  | change24h => ticker.change24h
  | turnover24h => ticker.turnover24h
  | volume24h => ticker.volume24h
  | openInterest => ticker.openInterest
  | fundingRate => ticker.fundingRate

theorem get_ofFields {category symbol : String} {values : TickerField → Option PyFloat}
    {timestamp : ℤ} (field : TickerField) :
    field.get (.ofFields category symbol values timestamp) = values field := by
  cases field <;> rfl

/-- How `parse_ticker` converts the field. -/
def parse : TickerField → Json → Except PyExc (Option PyFloat)
  | change24h => Normalizer.percentFromFraction
  | _ => Normalizer.asFloat

end TickerField

namespace Normalizer

/-- What a conversion yields, if it yields something. -/
def result {α : Type} : Except PyExc (Option α) → Option α
  | .ok value => value
  | .error _ => none

/-- A value that is no number is caught, unless it overflows. -/
theorem floatOf_error {value : Json} {exc : PyExc} (h : floatOf value = .error exc) :
    exc.isTypeOrValueError = true ∨ ∃ message, exc = .overflowError message := by
  cases value with
  | int n =>
      rw [floatOf, PyFloat.ofInt] at h
      split at h
      · cases h
      · exact Or.inr ⟨_, (Except.error.inj h).symm⟩
  | string text =>
      rw [floatOf] at h
      split at h <;> cases h
      exact Or.inl rfl
  | bool value => cases h
  | float value => cases h
  | _ =>
      cases h
      exact Or.inl rfl

/-- `None` is no case of its own: it has no conversion. -/
theorem asFloat_eq (value : Json) :
    asFloat value = (fun result => result.filter PyFloat.isFinite) <$> caught (floatOf value) := by
  cases value <;> rfl

theorem asIntSeconds_eq (value : Json) : asIntSeconds value =
    caught ((fun ms => ms / 1000) <$> (floatOf value >>= PyFloat.toInt)) := by
  cases value <;> rfl

variable {str : Json → String} {category : String} {fields : List (String × Json)} {tsMs : Json}
  {ticker : Ticker}

/-- The fields of a parsed ticker are converted one by one. -/
theorem parseTicker_spec (h : parseTicker str category (.object fields) tsMs = .ok ticker) :
    ticker.category = category ∧ ticker.symbol = (Json.get fields "symbol").textOr str ∧
      (∀ field : TickerField,
        field.parse (Json.get fields field.key) = .ok (field.get ticker)) ∧
      ∃ timestamp, readTimestamp (.object fields) tsMs = .ok timestamp ∧
        ticker.timestamp = timestamp.getD 0 := by
  simp only [parseTicker, Json.getKey, PyExc.bind_eq_ok, Except.ok.injEq, exists_eq_left'] at h
  obtain ⟨timestamp, htimestamp, lastPrice, hlastPrice, markPrice, hmarkPrice, indexPrice,
    hindexPrice, prevPrice1h, hprevPrice1h, change24h, hchange24h, turnover24h, hturnover24h,
    volume24h, hvolume24h, openInterest, hopenInterest, fundingRate, hfundingRate, hticker⟩ := h
  cases hticker
  refine ⟨rfl, rfl, fun field => ?_, timestamp, htimestamp, rfl⟩
  cases field <;> assumption

/-- Only an object is parsed. -/
theorem parseTicker_object {raw : Json} (h : parseTicker str category raw tsMs = .ok ticker) :
    ∃ fields, raw = .object fields := by
  cases raw with
  | object fields => exact ⟨fields, rfl⟩
  | _ =>
      obtain ⟨timestamp, -, h⟩ := PyExc.bind_eq_ok.mp h
      cases h

/-- A parsed price is finite. -/
theorem asFloat_finite {value : Json} {price : PyFloat} (h : asFloat value = .ok (some price)) :
    ∃ x, price = .finite x := by
  rw [asFloat_eq] at h
  cases hcaught : caught (floatOf value) with
  | error exc =>
      rw [hcaught] at h
      cases h
  | ok converted =>
      rw [hcaught] at h
      have hfinite := (Option.filter_eq_some_iff.mp (Except.ok.inj h)).2
      cases price with
      | finite x => exact ⟨x, rfl⟩
      | _ => cases hfinite

/-- A parsed ticker has a finite last price, or none. -/
theorem parseTicker_finite_lastPrice {raw : Json} {price : PyFloat}
    (h : parseTicker str category raw tsMs = .ok ticker) (hprice : ticker.lastPrice = some price) :
    ∃ x, price = .finite x := by
  obtain ⟨fields, rfl⟩ := parseTicker_object h
  obtain ⟨-, -, hfields, -⟩ := parseTicker_spec h
  refine @asFloat_finite (Json.get fields "lastPrice") price ?_
  rw [← hprice]
  exact hfields .lastPrice

end Normalizer

end BybitMonitor
