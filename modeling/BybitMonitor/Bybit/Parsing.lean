import Mathlib
import BybitMonitor.Bybit.Normalizer

/-!
# The parsers of a page

`parse_instrument` and `parse_announcement` next to `parse_ticker`, on whatever `json.loads`
returns. An `OverflowError` of `float()` or `int()` passes all of them, and a page with it.

* `Normalizer.asFloat_returns_iff`, `Normalizer.asIntSeconds_returns_iff`: which values a conversion
  raises on.
* `Normalizer.parsers_return_iff`: which objects and pages are parsed.
-/

namespace BybitMonitor

open TelegramClient (floatOf)
open PyFloat (binary64Limit)

namespace Json

/-- `str(value)`. -/
def text (str : Json → String) : Json → String
  | string text => text
  | value => str value

/-- `str(value or default)`. -/
def textOrElse (str : Json → String) (default : String) : Json → String
  | string text => PyText.orElse (some text) default
  | value => if value.truthy then str value else default

/-- `value is None`. -/
def isNone : Json → Bool
  | null => true
  | _ => false

/-- The text of a string. -/
def string? : Json → Option String
  | string text => some text
  | _ => none

end Json

/-- An instrument as `parse_instrument` returns it; three of its values are not converted. -/
structure ParsedInstrument where
  category : String
  symbol : String
  baseCoin : String
  quoteCoin : Json
  settleCoin : Json
  contractType : Json
  status : String
  launchTime : Option ℤ
  deliveryTime : Option ℤ
  isPreListing : Bool
  deriving Repr

/-- An announcement as `parse_announcement` returns it. -/
structure Announcement where
  id : String
  title : String
  description : String
  typeKey : Json
  typeTitle : Json
  tags : List String
  timestamp : ℤ
  announcementType : Json
  metadata : List (String × Json)
  deriving Repr

namespace Normalizer

variable (str : Json → String)

/-- `_as_bool`. No other letters than these have a lower case in the words. -/
def asBool : Json → Bool
  | .bool value => value
  | .null => false
  | value => ["true", "1", "yes", "on"].contains (PyText.strip (value.text str)).toLower

/-- `parse_instrument`. -/
def parseInstrument (category : String) (raw : Json) : Except PyExc ParsedInstrument := do
  let status := (← raw.getKey "status").textOrElse str "Unknown"
  let isPreListing := status = "PreLaunch" || asBool str (← raw.getKey "isPreListing")
  return {
    category
    symbol := (← raw.getKey "symbol").textOr str
    baseCoin := (← raw.getKey "baseCoin").textOr str
    quoteCoin := ← raw.getKey "quoteCoin"
    settleCoin := ← raw.getKey "settleCoin"
    contractType := ← raw.getKey "contractType"
    status
    launchTime := ← raw.getKey "launchTime" >>= asIntSeconds
    deliveryTime := ← raw.getKey "deliveryTime" >>= asIntSeconds
    isPreListing }

/-- The key and the title of an announcement's type; a type that is no object is its own key. -/
def typeKeyTitle : Json → Json × Json
  | .object fields => (Json.get fields "key", Json.get fields "title")
  | value => (value, .null)

/-- The tags of an announcement. -/
def tagsOf : Json → List String
  | .array items => items.filterMap Json.string?
  | .string text => if PyText.strip text = "" then [] else [text]
  | _ => []

/-- `_announcement_type`. -/
def announcementType (raw : Json) : Except PyExc (Json × Json × List String) := do
  let (typeKey, typeTitle) := typeKeyTitle (← raw.getKey "type")
  return (typeKey, typeTitle, tagsOf (← raw.getKey "tags"))

/-- The values of an announcement that the classifier reads. -/
def metadataOf (raw : Json) : Except PyExc (List (String × Json)) := do
  let entries ← ["type", "summary", "author", "tag"].mapM fun key => (key, ·) <$> raw.getKey key
  return entries.filter fun entry => !entry.2.isNone

/-- `parse_announcement`. -/
def parseAnnouncement (raw : Json) : Except PyExc Announcement := do
  let metadata ← metadataOf raw
  let (typeKey, typeTitle, tags) ← announcementType raw
  return {
    id := (← raw.getKey "id").textOr str
    title := (← raw.getKey "title").textOr str
    description := (← raw.getKey "description").textOr str
    typeKey
    typeTitle
    tags
    timestamp := (← raw.getKey "dateTimestamp" >>= asIntSeconds).getD 0
    announcementType := typeKey
    metadata }

end Normalizer

/-! ## The conversions -/

namespace Json

/-- The value is an `int` that no `float` holds. -/
def TooLarge : Json → Prop
  | int n => binary64Limit ≤ |(n : ℚ)|
  | _ => False

/-- `float()` makes an infinity of the value. -/
def Infinite (value : Json) : Prop := ∃ negative, floatOf value = .ok (.inf negative)

/-- A timestamp in milliseconds that `_as_int_seconds` returns on. -/
def SafeTime (value : Json) : Prop := ¬ value.TooLarge ∧ ¬ value.Infinite

/-- A fraction whose percentage does not overflow. -/
def SafeFraction (value : Json) : Prop :=
  ∀ x, floatOf value = .ok (.finite x) → |x * 100| < binary64Limit

end Json

namespace Normalizer

variable {str : Json → String} {value : Json}

/-- `float()` overflows on an `int` only. -/
theorem floatOf_overflows_iff :
    (∃ message, floatOf value = .error (.overflowError message)) ↔ value.TooLarge := by
  cases value with
  | int n =>
      -- an `int` is rounded, and overflows if it rounds to an infinity
      have hiff := PyFloat.roundBinary64_finite_iff (x := (n : ℚ))
      rw [floatOf, PyFloat.ofInt, Json.TooLarge]
      split
      · rename_i r hround
        exact iff_of_false (by simp) (not_le.mpr (hiff.mp ⟨r, hround⟩))
      · rename_i hround
        refine iff_of_true ⟨_, rfl⟩ (not_lt.mp fun hlt => ?_)
        obtain ⟨r, hr⟩ := hiff.mpr hlt
        exact hround r hr
  -- `float("1e999")` is an infinity, and raises nothing
  | string text =>
      refine iff_of_false ?_ id
      rw [floatOf]
      split <;> simp
  | _ => exact iff_of_false (by simp [floatOf]) id

/-- `float()` returns, or raises what is caught. -/
theorem caught_floatOf (h : ¬ value.TooLarge) :
    caught (floatOf value) = .ok (floatOf value).toOption := by
  cases hvalue : floatOf value with
  | ok x => rfl
  | error exc =>
      rcases floatOf_error hvalue with hcaught | ⟨message, rfl⟩
      · rw [caught, if_pos hcaught]
        rfl
      · exact absurd (floatOf_overflows_iff.mp ⟨message, hvalue⟩) h

theorem asFloat_returns_iff : (∃ x, asFloat value = .ok x) ↔ ¬ value.TooLarge := by
  constructor
  · rintro ⟨x, hx⟩ hlarge
    obtain ⟨message, hmessage⟩ := floatOf_overflows_iff.mpr hlarge
    rw [asFloat_eq, hmessage] at hx
    cases hx
  · intro hsmall
    rw [asFloat_eq, caught_floatOf hsmall]
    exact ⟨_, rfl⟩

theorem asIntSeconds_returns_iff : (∃ n, asIntSeconds value = .ok n) ↔ value.SafeTime := by
  rw [asIntSeconds_eq, Json.SafeTime, Json.Infinite]
  by_cases hlarge : value.TooLarge
  · obtain ⟨message, hmessage⟩ := floatOf_overflows_iff.mpr hlarge
    rw [hmessage]
    exact iff_of_false (fun ⟨n, hn⟩ => nomatch hn) fun h => h.1 hlarge
  · cases hvalue : floatOf value with
    | error exc =>
        rcases floatOf_error hvalue with hcaught | ⟨message, rfl⟩
        · refine iff_of_true ⟨none, ?_⟩ ⟨hlarge, by simp⟩
          change (if exc.isTypeOrValueError then _ else _) = _
          rw [if_pos hcaught]
        · exact absurd (floatOf_overflows_iff.mp ⟨message, hvalue⟩) hlarge
    | ok x =>
        cases x with
        | nan => exact iff_of_true ⟨none, rfl⟩ ⟨hlarge, by simp⟩
        -- `int()` of an infinity raises what is not caught
        | inf negative => exact iff_of_false (fun ⟨n, hn⟩ => nomatch hn) fun h => h.2 ⟨_, rfl⟩
        | finite x => exact iff_of_true ⟨_, rfl⟩ ⟨hlarge, by simp⟩

/-- A percentage is finite or `None`, if nothing overflows. -/
theorem percentFromFraction_finite_iff :
    (∃ percent, percentFromFraction value = .ok percent ∧ percent.all PyFloat.isFinite = true) ↔
      ¬ value.TooLarge ∧ value.SafeFraction := by
  by_cases hlarge : value.TooLarge
  · obtain ⟨message, hmessage⟩ := floatOf_overflows_iff.mpr hlarge
    refine iff_of_false ?_ fun h => h.1 hlarge
    rintro ⟨percent, hpercent, -⟩
    rw [percentFromFraction, asFloat_eq, hmessage] at hpercent
    cases hpercent
  rw [percentFromFraction, asFloat_eq, caught_floatOf hlarge, Json.SafeFraction]
  cases hvalue : floatOf value with
  | error exc => exact iff_of_true ⟨none, rfl, rfl⟩ ⟨hlarge, by simp⟩
  | ok x =>
      cases x with
      | nan => exact iff_of_true ⟨none, rfl, rfl⟩ ⟨hlarge, by simp⟩
      | inf negative => exact iff_of_true ⟨none, rfl, rfl⟩ ⟨hlarge, by simp⟩
      | finite x =>
          -- the product is the only operation that may overflow
          have hiff := PyFloat.roundBinary64_finite_iff (x := x * 100)
          have hresult : (∃ percent : Option PyFloat,
              (Except.ok (some ((PyFloat.roundBinary64 (x * 100)).roundTo 6)) :
                Except PyExc (Option PyFloat)) = .ok percent ∧
                percent.all PyFloat.isFinite = true) ↔ |x * 100| < binary64Limit := by
            rw [← hiff]
            constructor
            · rintro ⟨percent, hpercent, hfinite⟩
              cases hpercent
              -- `round` passes on what is not finite
              cases hround : PyFloat.roundBinary64 (x * 100) with
              | finite r => exact ⟨r, rfl⟩
              | _ =>
                  rw [hround] at hfinite
                  cases hfinite
            · rintro ⟨r, hr⟩
              refine ⟨_, rfl, ?_⟩
              rw [hr]
              exact PyFloat.roundTo_isFinite hr 6
          refine hresult.trans ⟨fun hlt => ⟨hlarge, ?_⟩, fun h => h.2 x rfl⟩
          intro y hy
          cases hy
          exact hlt

/-- The values of a ticker that are converted to a number or `None`. -/
def SafeNumber (field : TickerField) (value : Json) : Prop :=
  ¬ value.TooLarge ∧ (field = .change24h → value.SafeFraction)

/-- A field of a ticker is finite or `None`, if nothing overflows. -/
theorem parse_finite_iff (field : TickerField) :
    (∃ x, field.parse value = .ok x ∧ x.all PyFloat.isFinite = true) ↔ SafeNumber field value := by
  by_cases hfield : field = .change24h
  · subst hfield
    rw [SafeNumber, TickerField.parse, percentFromFraction_finite_iff]
    simp only [true_implies]
  · -- the other fields are converted without a product
    have hparse : field.parse = asFloat := by
      cases field with
      | change24h => exact absurd rfl hfield
      | _ => rfl
    rw [hparse, SafeNumber]
    simp only [hfield, false_implies, and_true, ← asFloat_returns_iff]
    refine exists_congr fun x => and_iff_left_of_imp fun hx => ?_
    cases x with
    | none => rfl
    | some x =>
        obtain ⟨y, rfl⟩ := asFloat_finite hx
        rfl

/-! ## The objects -/

/-- An object that `parse_instrument` returns on. -/
def SafeInstrument (fields : List (String × Json)) : Prop :=
  (Json.get fields "launchTime").SafeTime ∧ (Json.get fields "deliveryTime").SafeTime

/-- The value that `parse_ticker` reads the time from. -/
def timeOf (fields : List (String × Json)) : Json → Json
  | .null => Json.get fields "timestamp"
  | tsMs => tsMs

/-- An object, with the time of its message, whose ticker is finite. -/
def SafeTicker (fields : List (String × Json)) (tsMs : Json) : Prop :=
  (timeOf fields tsMs).SafeTime ∧ ∀ field : TickerField, SafeNumber field (Json.get fields field.key)

/-- An object that `parse_announcement` returns on. -/
def SafeAnnouncement (fields : List (String × Json)) : Prop :=
  (Json.get fields "dateTimestamp").SafeTime

/-- Every number of the ticker is finite. -/
def FiniteTicker (ticker : Ticker) : Prop :=
  ∀ field : TickerField, (field.get ticker).all PyFloat.isFinite = true

variable {category : String} {fields : List (String × Json)} {tsMs : Json}

theorem parseInstrument_returns_iff :
    (∃ instrument, parseInstrument str category (.object fields) = .ok instrument) ↔
      SafeInstrument fields := by
  rw [SafeInstrument, ← asIntSeconds_returns_iff, ← asIntSeconds_returns_iff]
  simp only [parseInstrument, Json.getKey, PyExc.bind_eq_ok, Except.ok.injEq, exists_eq_left']
  constructor
  · rintro ⟨instrument, launchTime, hlaunch, deliveryTime, hdelivery, -⟩
    exact ⟨⟨launchTime, hlaunch⟩, deliveryTime, hdelivery⟩
  · rintro ⟨⟨launchTime, hlaunch⟩, deliveryTime, hdelivery⟩
    exact ⟨_, launchTime, hlaunch, deliveryTime, hdelivery, rfl⟩

theorem metadataOf_object : ∃ metadata, metadataOf (.object fields) = .ok metadata := ⟨_, rfl⟩

theorem announcementType_object : announcementType (.object fields) =
    .ok ((typeKeyTitle (Json.get fields "type")).1, (typeKeyTitle (Json.get fields "type")).2,
      tagsOf (Json.get fields "tags")) := rfl

theorem parseAnnouncement_returns_iff :
    (∃ announcement, parseAnnouncement str (.object fields) = .ok announcement) ↔
      SafeAnnouncement fields := by
  obtain ⟨metadata, hmetadata⟩ := @metadataOf_object fields
  rw [SafeAnnouncement, ← asIntSeconds_returns_iff]
  simp only [parseAnnouncement, hmetadata, announcementType_object, Json.getKey,
    PyExc.bind_eq_ok, Except.ok.injEq, exists_eq_left']
  constructor
  · rintro ⟨announcement, timestamp, htime, -⟩
    exact ⟨timestamp, htime⟩
  · rintro ⟨timestamp, htime⟩
    exact ⟨_, timestamp, htime, rfl⟩

/-- The time of a ticker is converted like any other. -/
theorem readTimestamp_eq :
    readTimestamp (.object fields) tsMs = asIntSeconds (timeOf fields tsMs) := by
  cases tsMs <;> rfl

/-- A ticker is parsed with any values that its fields have. -/
theorem parseTicker_of_fields {values : TickerField → Option PyFloat} {timestamp : Option ℤ}
    (htime : readTimestamp (.object fields) tsMs = .ok timestamp)
    (hvalues : ∀ field : TickerField,
      field.parse (Json.get fields field.key) = .ok (values field)) :
    parseTicker str category (.object fields) tsMs =
      .ok (.ofFields category ((Json.get fields "symbol").textOr str) values
        (timestamp.getD 0)) := by
  simp only [parseTicker, Json.getKey, PyExc.bind_eq_ok, Except.ok.injEq, exists_eq_left']
  exact ⟨timestamp, htime, _, hvalues .lastPrice, _, hvalues .markPrice, _, hvalues .indexPrice,
    _, hvalues .prevPrice1h, _, hvalues .change24h, _, hvalues .turnover24h, _,
    hvalues .volume24h, _, hvalues .openInterest, _, hvalues .fundingRate, rfl⟩

theorem parseTicker_finite_iff :
    (∃ ticker, parseTicker str category (.object fields) tsMs = .ok ticker ∧
      FiniteTicker ticker) ↔ SafeTicker fields tsMs := by
  rw [SafeTicker, ← asIntSeconds_returns_iff, ← readTimestamp_eq]
  simp only [← parse_finite_iff]
  constructor
  · rintro ⟨ticker, hticker, hfinite⟩
    obtain ⟨-, -, hfields, timestamp, htime, -⟩ := parseTicker_spec hticker
    exact ⟨⟨timestamp, htime⟩, fun field => ⟨_, hfields field, hfinite field⟩⟩
  · rintro ⟨⟨timestamp, htime⟩, hfields⟩
    -- the values of the fields make the ticker
    choose values hvalues hfinite using hfields
    refine ⟨_, parseTicker_of_fields htime hvalues, fun field => ?_⟩
    rw [TickerField.get_ofFields]
    exact hfinite field

/-! ## Pages -/

/-- A list comprehension returns if the function returns on every item. -/
theorem mapM_returns_iff {α β : Type} {f : α → Except PyExc β} {Q : β → Prop} {items : List α} :
    (∃ results, items.mapM f = .ok results ∧ ∀ b ∈ results, Q b) ↔
      ∀ a ∈ items, ∃ b, f a = .ok b ∧ Q b := by
  induction items with
  | nil => simp [pure, Except.pure]
  | cons a items ih =>
      rw [List.mapM_cons, List.forall_mem_cons, ← ih]
      simp only [PyExc.bind_eq_ok]
      constructor
      · rintro ⟨results, ⟨b, hb, rest, hrest, hresults⟩, hQ⟩
        cases hresults
        obtain ⟨hb', hrest'⟩ := List.forall_mem_cons.mp hQ
        exact ⟨⟨b, hb, hb'⟩, rest, hrest, hrest'⟩
      · rintro ⟨⟨b, hb, hQ⟩, rest, hrest, hrest'⟩
        exact ⟨b :: rest, ⟨b, hb, rest, hrest, rfl⟩, List.forall_mem_cons.mpr ⟨hQ, hrest'⟩⟩

/-- Whatever an object holds and whatever time its message has: `parse_instrument` and
`parse_announcement` return on it, and `parse_ticker` returns finite numbers, exactly if no
timestamp is an infinity, no number is an `int` that is too large for a `float`, and the percentage
does not overflow. A page is parsed if all of its objects are. -/
theorem parsers_return_iff (str : Json → String) (category : String) (tsMs : Json) :
    (∀ fields, (∃ instrument, parseInstrument str category (.object fields) = .ok instrument) ↔
        SafeInstrument fields) ∧
      (∀ fields, (∃ ticker, parseTicker str category (.object fields) tsMs = .ok ticker ∧
        FiniteTicker ticker) ↔ SafeTicker fields tsMs) ∧
      (∀ fields, (∃ announcement, parseAnnouncement str (.object fields) = .ok announcement) ↔
        SafeAnnouncement fields) ∧
      (∀ rows : List (List (String × Json)),
        (∃ instruments,
          (rows.mapM fun fields => parseInstrument str category (.object fields)) =
            .ok instruments) ↔
          ∀ fields ∈ rows, SafeInstrument fields) ∧
      (∀ rows : List (List (String × Json)),
        (∃ tickers,
          (rows.mapM fun fields => parseTicker str category (.object fields) .null) = .ok tickers ∧
            ∀ ticker ∈ tickers, FiniteTicker ticker) ↔
          ∀ fields ∈ rows, SafeTicker fields .null) ∧
      ∀ rows : List (List (String × Json)),
        (∃ announcements,
          (rows.mapM fun fields => parseAnnouncement str (.object fields)) = .ok announcements) ↔
          ∀ fields ∈ rows, SafeAnnouncement fields := by
  refine ⟨fun _ => parseInstrument_returns_iff, fun _ => parseTicker_finite_iff,
    fun _ => parseAnnouncement_returns_iff, fun rows => ?_, fun rows => ?_, fun rows => ?_⟩
  · have hpage := @mapM_returns_iff _ _
      (fun fields => parseInstrument str category (.object fields)) (fun _ => True) rows
    simpa [parseInstrument_returns_iff] using hpage
  · have hpage := @mapM_returns_iff _ _
      (fun fields => parseTicker str category (.object fields) .null) FiniteTicker rows
    simpa only [parseTicker_finite_iff] using hpage
  · have hpage := @mapM_returns_iff _ _
      (fun fields => parseAnnouncement str (.object fields)) (fun _ => True) rows
    simpa [parseAnnouncement_returns_iff] using hpage

/-- An infinite launch time raises, and with it the page of a good instrument, and so does an
infinite time of an announcement; an `int` that is too large raises; a large fraction has no finite
percentage. -/
theorem parsers_return_overflow :
    let str : Json → String := fun _ => ""
    parseInstrument str "linear" (.object [("launchTime", .string "Infinity")]) =
        .error (.overflowError "cannot convert float infinity to integer") ∧
      ([[("symbol", .string "BTCUSDT")], [("launchTime", .string "Infinity")]].mapM
        fun fields => parseInstrument str "linear" (.object fields)) =
        .error (.overflowError "cannot convert float infinity to integer") ∧
      parseAnnouncement str (.object [("dateTimestamp", .string "Infinity")]) =
        .error (.overflowError "cannot convert float infinity to integer") ∧
      (¬ ∃ ticker, parseTicker str "linear" (.object [("lastPrice", .int (2 ^ 1024))]) .null =
        .ok ticker ∧ FiniteTicker ticker) ∧
      ¬ ∃ ticker, parseTicker str "linear"
        (.object [("price24hPcnt", .float (.finite (2 ^ 1020)))]) .null = .ok ticker ∧
          FiniteTicker ticker := by
  refine ⟨rfl, rfl, rfl, ?_, ?_⟩
  · rw [parseTicker_finite_iff]
    intro hsafe
    refine (hsafe.2 .lastPrice).1 ?_
    change binary64Limit ≤ |((2 ^ 1024 : ℤ) : ℚ)|
    -- the limit is a little below `2 ^ 1024`
    rw [Int.cast_pow, Int.cast_ofNat, abs_of_pos (by positivity)]
    exact sub_le_self _ (by positivity)
  · rw [parseTicker_finite_iff]
    intro hsafe
    have hlt := (hsafe.2 .change24h).2 rfl (2 ^ 1020) rfl
    have hlimit : binary64Limit ≤ 2 ^ 1020 * 100 := by
      refine (sub_le_self _ (by positivity)).trans ?_
      rw [show (2 : ℚ) ^ 1024 = 2 ^ 1020 * 2 ^ 4 by rw [← pow_add]]
      gcongr
      norm_num
    rw [abs_of_pos (by positivity)] at hlt
    exact absurd hlt (not_lt.mpr hlimit)

end Normalizer

end BybitMonitor
