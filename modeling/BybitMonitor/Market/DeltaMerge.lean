import Mathlib
import BybitMonitor.Bybit.Normalizer
import BybitMonitor.ToMathlib.Dict

/-!
# The merge of WebSocket deltas

`PriceEngine.apply_snapshot` and `PriceEngine.update_from_delta`, with its own conversions.

* `PriceEngine.mergeDelta_eq_ok_iff`: a merge succeeds if each conversion does, and the ticker that
  it makes is merged field by field.
* `delta_merges_iff`: when a merge agrees with the normalization of a snapshot.
-/

namespace BybitMonitor

open TelegramClient (floatOf)
open Normalizer (caught)

namespace PriceEngine

/-- `get`. -/
def get (self : PriceEngine) (category symbol : String) : Option Ticker :=
  Dict.get self.latest (category, symbol)

/-- `apply_snapshot`. -/
def applySnapshot (self : PriceEngine) (ticker : Ticker) : PriceEngine :=
  -- a ticker without a symbol is stored, whatever its price
  if ticker.symbol ≠ "" && ticker.lastPrice.any fun price => price.lt 0 then
    { self with rejected := self.rejected + 1 }
  else
    { self with
      latest := TickerStore.put self.latest ticker
      accepted := self.accepted + 1 }

/-- The `_percent_from_fraction` of the price engine. -/
def percentFromFraction (value : Json) : Except PyExc (Option PyFloat) :=
  match value with
  | .null => .ok none
  | value =>
      (fun result => (result.filter PyFloat.isFinite).map (PyFloat.roundTo 6)) <$>
        caught ((PyFloat.mulPos 100) <$> floatOf value)

/-- The rest of `merged`, once the value is looked up. -/
def mergedValue (existing : Option PyFloat) (converter : Json → Except PyExc (Option PyFloat)) :
    Json → Except PyExc (Option PyFloat)
  | .null => .ok existing
  | value => (fun converted => converted.or existing) <$> converter value

/-- `merged`, for a converter that returns a number or `None`. -/
def merged (data : Json) (key : String) (existing : Option PyFloat)
    (converter : Json → Except PyExc (Option PyFloat)) : Except PyExc (Option PyFloat) :=
  data.getKey key >>= mergedValue existing converter

/-- The converter `float`, which raises what it cannot convert. -/
def float (value : Json) : Except PyExc (Option PyFloat) := some <$> floatOf value

/-- The timestamp that a delta carries. -/
def deltaTimestamp (data tsMs : Json) : Except PyExc Json :=
  match tsMs with
  | .null => data.getKey "ts"
  | ts => .ok ts

/-- The timestamp of the merged ticker. -/
def mergedTimestamp (data tsMs : Json) (existing : ℤ) : Except PyExc ℤ := do
  match ← deltaTimestamp data tsMs with
  | .null => return existing
  | tsRaw =>
      let converted ← caught ((fun ms => ms / 1000) <$> (floatOf tsRaw >>= PyFloat.toInt))
      return converted.getD existing

/-- The ticker that `update_from_delta` stores. -/
def mergeDelta (existing : Ticker) (data tsMs : Json) : Except PyExc Ticker := do
  let change24h ← merged data "price24hPcnt" existing.change24h percentFromFraction
  let timestamp ← mergedTimestamp data tsMs existing.timestamp
  return {
    category := existing.category
    symbol := existing.symbol
    lastPrice := ← merged data "lastPrice" existing.lastPrice float
    markPrice := ← merged data "markPrice" existing.markPrice float
    indexPrice := ← merged data "indexPrice" existing.indexPrice float
    prevPrice1h := ← merged data "prevPrice1h" existing.prevPrice1h float
    change24h
    turnover24h := ← merged data "turnover24h" existing.turnover24h float
    volume24h := ← merged data "volume24h" existing.volume24h float
    openInterest := ← merged data "openInterest" existing.openInterest float
    fundingRate := ← merged data "fundingRate" existing.fundingRate float
    timestamp }

/-- `update_from_delta`. -/
def updateFromDelta (self : PriceEngine) (category symbol : String) (data tsMs : Json) :
    Except PyExc Unit × PriceEngine :=
  match self.get category symbol with
  | none => (.ok (), self)
  | some existing =>
      match mergeDelta existing data tsMs with
      | .error exc => (.error exc, self)
      | .ok latest =>
          (.ok (), { self with latest := Dict.set self.latest (category, symbol) latest })

end PriceEngine

/-! ## Field by field -/

/-- `float(value)` overflows, which no conversion catches. -/
def Json.Overflows (value : Json) : Prop :=
  ∃ message, floatOf value = .error (.overflowError message)

namespace TickerField

/-- How `update_from_delta` converts the field. -/
def convert : TickerField → Json → Except PyExc (Option PyFloat)
  | change24h => PriceEngine.percentFromFraction
  | _ => PriceEngine.float

/-- The field of the merged ticker. -/
def merge (stored : Ticker) (data : Json) (field : TickerField) : Except PyExc (Option PyFloat) :=
  PriceEngine.merged data field.key (field.get stored) field.convert

/-- The finite number that `parse_ticker` makes of the field, if it makes one. -/
def yields (field : TickerField) (value : Json) : Option PyFloat :=
  (Normalizer.result (field.parse value)).filter PyFloat.isFinite

/-- The merge takes the value as `parse_ticker` does: a number that is finite, or stored already.
The change of 24 hours only has to be in the range of a `float`. -/
def Converts (field : TickerField) (stored : Ticker) (value : Json) : Prop :=
  match field with
  | change24h => ¬ value.Overflows
  | field => value = .null ∨
      ∃ x, floatOf value = .ok x ∧ (x.isFinite = true ∨ field.get stored = some x)

end TickerField

namespace TickerField

variable {stored : Ticker} {existing : Option PyFloat} {fields : List (String × Json)}

/-- A price is merged if `float` takes it. -/
theorem merge_price_iff {merged : Option PyFloat} {value : Json} :
    PriceEngine.mergedValue existing PriceEngine.float value = .ok merged ↔
      (value = .null ∧ merged = existing) ∨ ∃ x, floatOf value = .ok x ∧ merged = some x := by
  -- a key that is missing keeps the stored number
  by_cases hnull : value = .null
  · subst hnull
    constructor
    · exact fun h => Or.inl ⟨rfl, (Except.ok.inj h).symm⟩
    · rintro (⟨-, rfl⟩ | ⟨x, hx, -⟩)
      · rfl
      · cases hx
  have hmerged : PriceEngine.mergedValue existing PriceEngine.float value =
      (fun converted => converted.or existing) <$> PriceEngine.float value := by
    cases value <;> first | rfl | exact absurd rfl hnull
  rw [hmerged, PriceEngine.float]
  cases floatOf value with
  | error exc => exact iff_of_false (fun h => by cases h) (by simp [hnull])
  | ok x =>
      simp only [hnull, false_and, false_or, Except.ok.injEq, exists_eq_left']
      exact ⟨fun h => (Except.ok.inj h).symm, fun h => congrArg Except.ok h.symm⟩

/-- A price is merged as it is parsed, if it is finite or stored already. -/
theorem merge_float_iff {value : Json} :
    PriceEngine.mergedValue existing PriceEngine.float value =
        .ok (((Normalizer.result (Normalizer.asFloat value)).filter PyFloat.isFinite).or existing) ↔
      value = .null ∨ ∃ x, floatOf value = .ok x ∧ (x.isFinite = true ∨ existing = some x) := by
  -- `float` of a delta raises where `_as_float` returns `None`
  rw [merge_price_iff, Normalizer.asFloat_eq]
  refine or_congr (and_iff_left_of_imp ?_) (exists_congr fun x => and_congr_right fun hx => ?_)
  · rintro rfl
    rfl
  · rw [hx]
    show (((some x).filter PyFloat.isFinite).filter PyFloat.isFinite).or existing = some x ↔ _
    cases hfinite : x.isFinite with
    | true =>
        rw [Option.filter_some_pos hfinite, Option.filter_some_pos hfinite]
        exact iff_of_true rfl (Or.inl rfl)
    | false =>
        -- a number that is not finite may be stored already
        rw [Option.filter_some_neg hfinite, Option.filter_none, Option.none_or]
        simp

/-- It does not matter whether a percentage is checked before or after it is rounded. -/
theorem filter_percent (x : PyFloat) :
    ((some (x.mulPos 100)).filter PyFloat.isFinite).map (PyFloat.roundTo 6) =
      (((some x).filter PyFloat.isFinite).map fun raw => (raw.mulPos 100).roundTo 6).filter
        PyFloat.isFinite := by
  cases x with
  | finite q =>
      rw [Option.filter_some_pos (show (PyFloat.finite q).isFinite = true from rfl),
        Option.map_some]
      show ((some (PyFloat.roundBinary64 (q * 100))).filter _).map _ = (some _).filter _
      -- the product is a number, or overflows to an infinity that both sides drop
      cases hround : PyFloat.roundBinary64 (q * 100) with
      | finite r =>
          have hfinite := PyFloat.roundTo_isFinite hround 6
          rw [Option.filter_some_pos rfl, Option.map_some, PyFloat.mulPos, hround,
            Option.filter_some_pos hfinite]
      | _ =>
          rw [PyFloat.mulPos, hround]
          rfl
  | _ => rfl

theorem mergedValue_percent (existing : Option PyFloat) (value : Json) :
    PriceEngine.mergedValue existing PriceEngine.percentFromFraction value =
      (fun converted => converted.or existing) <$>
        (fun result => (result.filter PyFloat.isFinite).map (PyFloat.roundTo 6)) <$>
          caught ((PyFloat.mulPos 100) <$> floatOf value) := by
  cases value <;> rfl

/-- The change of 24 hours is merged as it is parsed, unless it overflows. -/
theorem merge_percent_iff {value : Json} :
    PriceEngine.mergedValue existing PriceEngine.percentFromFraction value =
        .ok (((Normalizer.result (Normalizer.percentFromFraction value)).filter
          PyFloat.isFinite).or existing) ↔
      ¬ value.Overflows := by
  rw [mergedValue_percent, Normalizer.percentFromFraction, Normalizer.asFloat_eq]
  cases hfloat : floatOf value with
  | error exc =>
      rcases Normalizer.floatOf_error hfloat with hcaught | ⟨message, rfl⟩
      · -- the value is no number
        have hno : ¬ value.Overflows := by
          rintro ⟨message, h⟩
          rw [hfloat] at h
          cases h
          cases hcaught
        have hnone : (caught (.error exc) : Except PyExc (Option PyFloat)) = .ok none :=
          if_pos hcaught
        refine iff_of_true ?_ hno
        rw [show PyFloat.mulPos 100 <$> (.error exc : Except PyExc PyFloat) = .error exc from rfl,
          hnone]
        rfl
      · -- an overflow is not caught
        refine iff_of_false ?_ (not_not.mpr ⟨message, hfloat⟩)
        intro h
        cases h
  | ok x =>
      have hno : ¬ value.Overflows := by
        rintro ⟨message, h⟩
        rw [hfloat] at h
        cases h
      refine iff_of_true ?_ hno
      exact congrArg (fun percent => Except.ok (percent.or existing)) (filter_percent x)

/-- A field is merged as it is parsed, under its condition. -/
theorem merge_iff {stored : Ticker} {field : TickerField} :
    field.merge stored (.object fields) =
        .ok ((field.yields (Json.get fields field.key)).or (field.get stored)) ↔
      field.Converts stored (Json.get fields field.key) := by
  cases field with
  | change24h => exact merge_percent_iff
  | _ => exact merge_float_iff

end TickerField

namespace PriceEngine

variable {stored latest : Ticker} {data tsMs value : Json} {fields : List (String × Json)}

/-- A merge succeeds if each conversion does, and the ticker that it makes is merged field by
field. -/
theorem mergeDelta_eq_ok_iff :
    mergeDelta stored data tsMs = .ok latest ↔
      (latest.category = stored.category ∧ latest.symbol = stored.symbol) ∧
        (∀ field : TickerField, field.merge stored data = .ok (field.get latest)) ∧
        mergedTimestamp data tsMs stored.timestamp = .ok latest.timestamp := by
  simp only [mergeDelta, PyExc.bind_eq_ok]
  constructor
  · rintro ⟨change24h, hchange24h, timestamp, htimestamp, lastPrice, hlastPrice, markPrice,
      hmarkPrice, indexPrice, hindexPrice, prevPrice1h, hprevPrice1h, turnover24h, hturnover24h,
      volume24h, hvolume24h, openInterest, hopenInterest, fundingRate, hfundingRate, hlatest⟩
    cases hlatest
    refine ⟨⟨rfl, rfl⟩, fun field => ?_, htimestamp⟩
    -- the conversions of the merge, one for each field
    cases field <;> assumption
  · rintro ⟨⟨hcategory, hsymbol⟩, hfields, htimestamp⟩
    refine ⟨_, hfields .change24h, _, htimestamp, _, hfields .lastPrice, _, hfields .markPrice, _,
      hfields .indexPrice, _, hfields .prevPrice1h, _, hfields .turnover24h, _, hfields .volume24h,
      _, hfields .openInterest, _, hfields .fundingRate, ?_⟩
    rw [← hcategory, ← hsymbol]
    rfl

/-- The timestamp that a delta carries. -/
def carriedTimestamp (fields : List (String × Json)) (tsMs : Json) : Json :=
  match tsMs with
  | .null => Json.get fields "ts"
  | ts => ts

/-- The timestamp is merged as `parse_ticker` converts it. -/
theorem mergedTimestamp_object (existing : ℤ) :
    mergedTimestamp (.object fields) tsMs existing =
      (fun seconds => seconds.getD existing) <$>
        Normalizer.asIntSeconds (carriedTimestamp fields tsMs) := by
  have hcarried : deltaTimestamp (.object fields) tsMs = .ok (carriedTimestamp fields tsMs) := by
    cases tsMs <;> rfl
  rw [mergedTimestamp, hcarried]
  cases carriedTimestamp fields tsMs with
  | null => rfl
  | _ =>
      rw [Normalizer.asIntSeconds_eq]
      rfl

end PriceEngine

/-! ## Deltas that are stored -/

/-- The conversion of the field returns. -/
def TickerField.Returns (field : TickerField) (value : Json) : Prop :=
  match field with
  | .change24h => ¬ value.Overflows
  | _ => value = .null ∨ ∃ x, floatOf value = .ok x

/-- Every conversion of a delta returns. -/
def DeltaReturns (fields : List (String × Json)) (tsMs : Json) : Prop :=
  (∀ field : TickerField, field.Returns (Json.get fields field.key)) ∧
    ∃ seconds, Normalizer.asIntSeconds (PriceEngine.carriedTimestamp fields tsMs) = .ok seconds

section

variable {stored latest : Ticker} {fields : List (String × Json)} {tsMs : Json}

/-- A field is merged if its conversion returns. -/
theorem TickerField.exists_merge_iff {field : TickerField} :
    (∃ merged, field.merge stored (.object fields) = .ok merged) ↔
      field.Returns (Json.get fields field.key) := by
  have hprice (existing : Option PyFloat) (value : Json) :
      (∃ merged, PriceEngine.mergedValue existing PriceEngine.float value = .ok merged) ↔
        value = .null ∨ ∃ x, floatOf value = .ok x := by
    simp only [TickerField.merge_price_iff, exists_or, exists_and_left, exists_eq, and_true]
    refine or_congr_right ⟨fun ⟨_, x, hx, _⟩ => ⟨x, hx⟩, fun ⟨x, hx⟩ => ⟨some x, x, hx, rfl⟩⟩
  cases field with
  | change24h =>
      refine ⟨?_, fun h => ⟨_, TickerField.merge_percent_iff.mpr h⟩⟩
      rintro ⟨merged, h⟩ ⟨message, hoverflow⟩
      change PriceEngine.mergedValue _ PriceEngine.percentFromFraction _ = _ at h
      rw [TickerField.mergedValue_percent, hoverflow] at h
      cases h
  | _ => exact hprice _ _

/-- A delta is merged if every conversion returns. -/
theorem mergeDelta_returns_iff :
    (∃ latest, PriceEngine.mergeDelta stored (.object fields) tsMs = .ok latest) ↔
      DeltaReturns fields tsMs := by
  constructor
  · rintro ⟨latest, h⟩
    obtain ⟨-, hfields, htimestamp⟩ := PriceEngine.mergeDelta_eq_ok_iff.mp h
    refine ⟨fun field => TickerField.exists_merge_iff.mp ⟨_, hfields field⟩, ?_⟩
    rw [PriceEngine.mergedTimestamp_object] at htimestamp
    cases hseconds : Normalizer.asIntSeconds (PriceEngine.carriedTimestamp fields tsMs) with
    | error exc =>
        rw [hseconds] at htimestamp
        cases htimestamp
    | ok seconds => exact ⟨seconds, rfl⟩
  · rintro ⟨hfields, seconds, hseconds⟩
    -- the values that the conversions return make the merged ticker
    choose values hvalues using fun field =>
      (@TickerField.exists_merge_iff stored fields field).mpr (hfields field)
    refine ⟨.ofFields stored.category stored.symbol values (seconds.getD stored.timestamp),
      PriceEngine.mergeDelta_eq_ok_iff.mpr ⟨⟨rfl, rfl⟩, fun field => ?_, ?_⟩⟩
    · rw [TickerField.get_ofFields]
      exact hvalues field
    · rw [PriceEngine.mergedTimestamp_object, hseconds]
      rfl

/-- Only an object is merged. -/
theorem mergeDelta_object {data : Json}
    (h : PriceEngine.mergeDelta stored data tsMs = .ok latest) :
    ∃ fields, data = .object fields := by
  cases data with
  | object fields => exact ⟨fields, rfl⟩
  | _ => cases h

/-- The last price of a merged ticker is the one of the delta, or the one that was stored. -/
theorem lastPrice_of_mergeDelta
    (h : PriceEngine.mergeDelta stored (.object fields) tsMs = .ok latest) :
    (Json.get fields "lastPrice" = .null ∧ latest.lastPrice = stored.lastPrice) ∨
      ∃ x, floatOf (Json.get fields "lastPrice") = .ok x ∧ latest.lastPrice = some x := by
  obtain ⟨-, hfields, -⟩ := PriceEngine.mergeDelta_eq_ok_iff.mp h
  exact TickerField.merge_price_iff.mp (hfields .lastPrice)

end

/-! ## Agreement with the normalization of a snapshot -/

/-- Every number of a ticker is finite. -/
def Ticker.IsFinite (ticker : Ticker) : Prop :=
  ∀ field : TickerField, (field.get ticker).all PyFloat.isFinite = true

/-- A delta for the stored ticker is merged field by field with the normalization of a snapshot,
where `timestamp` is what the delta yields as its timestamp. -/
structure MergesFieldByField (engine : PriceEngine) (category symbol : String) (stored : Ticker)
    (fields : List (String × Json)) (tsMs : Json) (timestamp : Option ℤ) : Prop where
  returns : (engine.updateFromDelta category symbol (.object fields) tsMs).1 = .ok ()
  merged : ∃ latest,
    (engine.updateFromDelta category symbol (.object fields) tsMs).2.get category symbol =
        some latest ∧
      (∀ field : TickerField, field.get latest =
        (field.yields (Json.get fields field.key)).or (field.get stored)) ∧
      latest.timestamp = timestamp.getD stored.timestamp ∧
      (stored.IsFinite → latest.IsFinite)
  others : ∀ category' symbol', (category', symbol') ≠ (category, symbol) →
    (engine.updateFromDelta category symbol (.object fields) tsMs).2.get category' symbol' =
      engine.get category' symbol'

/-- The merge takes every field as `parse_ticker` does, and the timestamp does not overflow. -/
def DeltaConverts (stored : Ticker) (fields : List (String × Json)) (tsMs : Json) : Prop :=
  (∀ field : TickerField, field.Converts stored (Json.get fields field.key)) ∧
    ∃ seconds, Normalizer.asIntSeconds (PriceEngine.carriedTimestamp fields tsMs) = .ok seconds

section

variable {engine : PriceEngine} {category symbol : String} {stored latest : Ticker}
  {fields : List (String × Json)} {tsMs : Json}

/-- What `parse_ticker` yields is finite. -/
theorem TickerField.yields_finite (field : TickerField) (value : Json) :
    (field.yields value).all PyFloat.isFinite = true := by
  rw [Option.all_eq_true]
  exact fun x hx => (Option.filter_eq_some_iff.mp hx).2

/-- What is merged field by field has no number that is not finite, if it had none. -/
theorem Ticker.IsFinite.merged (h : stored.IsFinite) (hfields : ∀ field : TickerField,
    field.get latest = (field.yields (Json.get fields field.key)).or (field.get stored)) :
    latest.IsFinite := by
  intro field
  rw [hfields field]
  cases hyields : field.yields (Json.get fields field.key) with
  | none => exact h field
  | some x =>
      have hfinite := field.yields_finite (Json.get fields field.key)
      rwa [hyields] at hfinite

/-- What `update_from_delta` does for a stored ticker. -/
theorem updateFromDelta_eq (hstored : engine.get category symbol = some stored) (data : Json) :
    engine.updateFromDelta category symbol data tsMs =
      match PriceEngine.mergeDelta stored data tsMs with
      | .error exc => (.error exc, engine)
      | .ok latest =>
          (.ok (), { engine with latest := Dict.set engine.latest (category, symbol) latest }) := by
  rw [PriceEngine.updateFromDelta, hstored]

/-- A delta merges field by field if and only if it converts and yields its timestamp. -/
theorem mergesFieldByField_iff (hstored : engine.get category symbol = some stored)
    (timestamp : Option ℤ) :
    MergesFieldByField engine category symbol stored fields tsMs timestamp ↔
      DeltaConverts stored fields tsMs ∧
        (Normalizer.result (Normalizer.asIntSeconds (PriceEngine.carriedTimestamp fields tsMs))).getD
          stored.timestamp = timestamp.getD stored.timestamp := by
  constructor
  · rintro ⟨hreturns, hmerged, -⟩
    rw [updateFromDelta_eq hstored] at hreturns hmerged
    -- the update has returned, so the merge has
    cases hmerge : PriceEngine.mergeDelta stored (.object fields) tsMs with
    | error exc =>
        rw [hmerge] at hreturns
        cases hreturns
    | ok latest =>
        rw [hmerge] at hmerged
        obtain ⟨latest', hlatest, hfields, htimestamp, -⟩ := hmerged
        change Dict.get (Dict.set _ _ latest) _ = _ at hlatest
        rw [Dict.get_set] at hlatest
        obtain rfl := Option.some.inj hlatest
        obtain ⟨-, hconverted, hseconds⟩ := PriceEngine.mergeDelta_eq_ok_iff.mp hmerge
        rw [PriceEngine.mergedTimestamp_object] at hseconds
        cases hcarried : Normalizer.asIntSeconds (PriceEngine.carriedTimestamp fields tsMs) with
        | error exc =>
            rw [hcarried] at hseconds
            cases hseconds
        | ok seconds =>
            rw [hcarried] at hseconds
            refine ⟨⟨fun field => TickerField.merge_iff.mp ?_, seconds, hcarried⟩, ?_⟩
            · rw [hconverted field, hfields field]
            · exact (Except.ok.inj hseconds).trans htimestamp
  · rintro ⟨⟨hfields, seconds, hseconds⟩, htimestamp⟩
    -- the ticker that the normalization of a snapshot gives
    let latest := Ticker.ofFields stored.category stored.symbol
      (fun field => (field.yields (Json.get fields field.key)).or (field.get stored))
      (timestamp.getD stored.timestamp)
    have hget (field : TickerField) : field.get latest =
        (field.yields (Json.get fields field.key)).or (field.get stored) :=
      TickerField.get_ofFields field
    have hmerge : PriceEngine.mergeDelta stored (.object fields) tsMs = .ok latest := by
      refine PriceEngine.mergeDelta_eq_ok_iff.mpr ⟨⟨rfl, rfl⟩, fun field => ?_, ?_⟩
      · rw [hget field]
        exact TickerField.merge_iff.mpr (hfields field)
      · rw [PriceEngine.mergedTimestamp_object, hseconds]
        rw [hseconds] at htimestamp
        exact congrArg Except.ok htimestamp
    have hupdate := @updateFromDelta_eq engine category symbol stored tsMs hstored (.object fields)
    rw [hmerge] at hupdate
    refine ⟨?_, ⟨latest, ?_, hget, rfl, fun h => h.merged hget⟩, fun category' symbol' hne => ?_⟩
    · rw [hupdate]
    · rw [hupdate]
      exact Dict.get_set
    · rw [hupdate]
      exact Dict.get_set_of_ne hne

/-- A delta merges with the normalization of a snapshot if and only if each of its values converts:
to a finite number or the one that is stored, and without an overflow. `parse_ticker` has another
key for the timestamp of a message that carries none, which must yield the same. -/
theorem delta_merges_iff (hstored : engine.get category symbol = some stored)
    (fields : List (String × Json)) (tsMs : Json) :
    (MergesFieldByField engine category symbol stored fields tsMs
        (Normalizer.result (Normalizer.asIntSeconds (PriceEngine.carriedTimestamp fields tsMs))) ↔
      DeltaConverts stored fields tsMs) ∧
    (MergesFieldByField engine category symbol stored fields tsMs
        (Normalizer.result (Normalizer.readTimestamp (.object fields) tsMs)) ↔
      DeltaConverts stored fields tsMs ∧
        (Normalizer.result (Normalizer.asIntSeconds (PriceEngine.carriedTimestamp fields tsMs))).getD
          stored.timestamp =
        (Normalizer.result (Normalizer.readTimestamp (.object fields) tsMs)).getD
          stored.timestamp) := by
  refine ⟨?_, mergesFieldByField_iff hstored _⟩
  rw [mergesFieldByField_iff hstored]
  exact and_iff_left rfl

end

/-- A market that a poll has stored. -/
def storedTicker : Ticker :=
  { category := "linear", symbol := "BTCUSDT", lastPrice := some 65000, timestamp := 1700000000 }

/-- The engine after the poll. -/
def storedEngine : PriceEngine := ({} : PriceEngine).updateTickers [storedTicker] |>.2

/-- A delta with a new price and the message timestamp merges as a snapshot would. -/
theorem delta_merges_example :
    storedEngine.get "linear" "BTCUSDT" = some storedTicker ∧
      MergesFieldByField storedEngine "linear" "BTCUSDT" storedTicker
        [("lastPrice", .string "65100.5")] (.int 1700000001000)
        (Normalizer.result (Normalizer.asIntSeconds (.int 1700000001000))) := by
  have hstored : storedEngine.get "linear" "BTCUSDT" = some storedTicker := by decide +kernel
  refine ⟨hstored, (delta_merges_iff hstored _ _).1.mpr ⟨fun field => ?_, ?_⟩⟩
  · cases field with
    | lastPrice => exact Or.inr ⟨.finite (130201 / 2), by decide +kernel, Or.inl rfl⟩
    | change24h =>
        rintro ⟨message, h⟩
        cases h
    | _ => exact Or.inl rfl
  · exact ⟨some 1700000001, by decide +kernel⟩

/-- A price that is the empty string is raised, and the mark price next to it is lost. -/
theorem delta_merges_malformed :
    ¬ ∀ (engine : PriceEngine) (category symbol : String) (stored : Ticker)
      (fields : List (String × Json)) (tsMs : Json), engine.get category symbol = some stored →
        MergesFieldByField engine category symbol stored fields tsMs
          (Normalizer.result
            (Normalizer.asIntSeconds (PriceEngine.carriedTimestamp fields tsMs))) := by
  intro h
  have hmerges := h storedEngine "linear" "BTCUSDT" storedTicker
    [("lastPrice", .string ""), ("markPrice", .string "65100")] (.int 1700000001000)
    (by decide +kernel)
  have hraised : (storedEngine.updateFromDelta "linear" "BTCUSDT"
      (.object [("lastPrice", .string ""), ("markPrice", .string "65100")])
      (.int 1700000001000)).1 = .error (.valueError "could not convert string to float: ''") := by
    decide +kernel
  cases hraised.symm.trans hmerges.returns

end BybitMonitor
