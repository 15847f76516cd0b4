import Mathlib
import BybitMonitor.Config
import BybitMonitor.Market.Deduplication
import BybitMonitor.Python.Time

/-!
# Alert messages

`formatAlert` writes the message of an alert and refuses a set with more coins than the configured
maximum.

* `formatAlert_isOk`: a message is written for every set within the maximum at every time that
  `strftime` formats.
-/

namespace BybitMonitor

/-- The kinds of alert messages, stored as `message_tag`. -/
inductive AlertKind
  | transition
  | composition
  | hourly
  deriving DecidableEq, Repr

/-- `_HEADERS`. -/
def AlertKind.header : AlertKind → String
  | transition => "🚨 BYBIT 1H MOMENTUM ALERT"
  | hourly => "⏰ BYBIT 1H MOMENTUM ACTIVE-STATE"
  | composition => "🔄 BYBIT 1H MOMENTUM COMPOSITION CHANGE"

/-- The tag of the outbox row of an alert. -/
def AlertKind.tag : AlertKind → String
  | transition => "transition"
  | composition => "composition"
  | hourly => "hourly"

/-- `_fmt_percent`. -/
def fmtPercent (value : Option PyFloat) (decimals : ℕ) : String :=
  match value with
  | none => "n/a"
  | some x => x.formatFixed true decimals ++ "%"

/-- `_fmt_price`. -/
def fmtPrice : Option PyFloat → String
  | none => "n/a"
  | some x => "$" ++ x.formatGeneral true 5

/-- `_fmt_turnover`. -/
def fmtTurnover : Option PyFloat → String
  | none => "n/a"
  | some x =>
      if (PyFloat.finite (10 ^ 9)).le x.abs then
        "$" ++ (x.divPos (10 ^ 9)).formatFixed false 2 ++ "B"
      else if (PyFloat.finite (10 ^ 6)).le x.abs then
        "$" ++ (x.divPos (10 ^ 6)).formatFixed false 2 ++ "M"
      else if (PyFloat.finite (10 ^ 3)).le x.abs then
        "$" ++ (x.divPos (10 ^ 3)).formatFixed false 2 ++ "K"
      else "$" ++ x.formatFixed false 2

/-- `_market_label`. -/
def marketLabel (value : MomentumValue) : String :=
  if value.category = "spot" then "Spot"
  else if value.contractType = some "LinearPerpetual" then
    PyText.orElse value.settleCoin "USDT" ++ " Perpetual"
  else
    let contractType := PyText.orElse value.contractType ""
    if contractType ≠ "" then
      PyText.strip (PyText.orElse value.settleCoin "" ++ " " ++ contractType)
    else PyText.strip (PyText.orElse value.settleCoin "" ++ " Linear")

/-- The line of an optional value, if it is there. -/
def optionalLine (value : Option PyFloat) (line : Option PyFloat → String) : List String :=
  if value.isSome then [line value] else []

/-- `_coin_block`. -/
def coinBlock (value : MomentumValue) : String :=
  let lines :=
    ["🔥 " ++ value.baseCoin, marketLabel value, "1H: " ++ fmtPercent value.change1h 2,
      "Price: " ++ fmtPrice value.lastPrice] ++
    optionalLine value.change24h (fun x => "24H: " ++ fmtPercent x 2) ++
    (if value.category ≠ "spot" then
      optionalLine value.markPrice (fun x => "Mark: " ++ fmtPrice x) ++
      -- funding arrives as a fraction
      optionalLine value.fundingRate
        (fun x => "Funding: " ++ fmtPercent (x.map (PyFloat.mulPos 100)) 3)
    else []) ++
    optionalLine value.turnover24h (fun x => "24H Turnover: " ++ fmtTurnover x)
  "\n".intercalate lines

/-- The lines of one representative with its other markets. -/
def representativeLines (r : RepresentativeMarket) : List String :=
  ["", coinBlock r.representative] ++
    if r.others.isEmpty then []
    else ["  also: " ++ ", ".intercalate
      (r.others.map fun o => o.symbol ++ " " ++ fmtPercent o.change1h 2)]

/-- `_timestamp_line`. -/
def timestampLine (now : ℤ) : Except PyExc String := gmtime now >>= strftimeMinute

/-- `format_alert`. -/
def formatAlert (qualifying : QualifyingSet) (config : Settings) (now : ℤ) (kind : AlertKind) :
    Except PyExc String :=
  if (qualifying.count : ℤ) > config.maxQualifyingCoins then
    .error (.valueError ("refusing to format " ++ toString qualifying.count ++
      " qualifying coins (max " ++ toString config.maxQualifyingCoins ++ ")"))
  else do
    let updated ← timestampLine now
    let parts :=
      [kind.header, "", toString qualifying.count ++ " / " ++
        toString config.maxQualifyingCoins ++ " qualifying coins"] ++
      qualifying.representatives.flatMap representativeLines ++
      ["", "Rule:", toString config.minQualifyingCoins ++ "-" ++
        toString config.maxQualifyingCoins ++ " unique coins > +" ++
        config.alertThresholdPercent.formatGeneral false 6 ++ "% / 1H",
        "", "Updated: " ++ updated]
    return "\n".intercalate parts

theorem timestampLine_isOk {now : ℤ} (h : strftimeAccepts now = true) :
    ∃ line, timestampLine now = .ok line := by
  obtain ⟨t, ht, hyear⟩ := strftimeYear_gmtime h
  rw [timestampLine, ht]
  change ∃ line, strftimeMinute t = .ok line
  rw [strftimeMinute, hyear]
  exact ⟨_, rfl⟩

/-- A message is written for every set within the maximum at every accepted time. -/
theorem formatAlert_isOk {qualifying : QualifyingSet} {config : Settings} {now : ℤ}
    (kind : AlertKind) (hcount : (qualifying.count : ℤ) ≤ config.maxQualifyingCoins)
    (hnow : strftimeAccepts now = true) :
    ∃ message, formatAlert qualifying config now kind = .ok message := by
  obtain ⟨line, hline⟩ := timestampLine_isOk hnow
  rw [formatAlert, if_neg (not_lt.mpr hcount), hline]
  exact ⟨_, rfl⟩

/-- The year of a message is refused before its text is put together. -/
theorem formatAlert_late {qualifying : QualifyingSet} {config : Settings} {now : ℤ}
    (kind : AlertKind) (hcount : (qualifying.count : ℤ) ≤ config.maxQualifyingCoins)
    (hgmtime : gmtimeAccepts now = true) (hlate : strftimeAccepts now = false) :
    formatAlert qualifying config now kind = .error yearOverflow := by
  obtain ⟨t, ht, hyear⟩ := strftimeYear_gmtime_late hgmtime hlate
  have hline : timestampLine now = .error yearOverflow := by
    rw [timestampLine, ht]
    change strftimeMinute t = .error yearOverflow
    rw [strftimeMinute, hyear]
    rfl
  rw [formatAlert, if_neg (not_lt.mpr hcount), hline]
  rfl

end BybitMonitor
