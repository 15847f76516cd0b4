import Mathlib
import BybitMonitor.Market.Aggregation
import BybitMonitor.Market.SpotHistory
import BybitMonitor.Persistence.Store
import BybitMonitor.ToMathlib.Locality

/-!
# The evaluation of all markets

`MomentumEvaluator.evaluate_all` goes through the instruments of the registry and evaluates one
after the other, on one table of samples.

* `locality_evaluate`: an evaluation uses the samples of its market, and no others.
* `evaluateAll_independent`: every market has the value that it has alone.
* `referencePrice_of_anchorPast`: when the sample that an evaluation records is not its anchor.
* `mem_baseCoins_evaluateAll`: the coins of the aggregate, by the prices of an hour ago.
* `MomentumEvaluator.evaluateAllWith_ok`: an evaluation that returns has met no database error.
-/

namespace BybitMonitor

namespace MomentumEvaluator

/-- `_is_supported`. -/
def isSupported (config : Settings) (instrument : Instrument) : Bool :=
  if instrument.status ≠ "Trading" then false
  else if instrument.category = "spot" then config.enableSpot
  else if instrument.category = "linear" then
    if instrument.settleCoin = some "USDT" then config.enableLinearUsdt
    else if instrument.settleCoin = some "USDC" then config.enableLinearUsdc
    else false
  -- inverse is not supported
  else false

/-- The instruments that `evaluate_all` evaluates, with their tickers. -/
def evaluable (config : Settings) (prices : TickerStore) (instruments : List Instrument) :
    List (Instrument × Ticker) :=
  instruments.filterMap fun instrument =>
    if isSupported config instrument then
      (prices.lookup instrument.identity).map fun ticker => (instrument, ticker)
    else none

/-- `evaluate_all` on the copied prices and the loaded instruments. -/
def evaluateAll (config : Settings) (prices : TickerStore) (instruments : List Instrument) (now : ℤ)
    (s : SpotState) : Except PyExc (List MomentumValue) × SpotState :=
  runAll (fun s market => MomentumEngine.evaluate s market.1 market.2 now) s
    (evaluable config prices instruments)

end MomentumEvaluator

/-- What the evaluation of a market uses: the settings of the history, the time of the last sample,
and the samples. -/
def SpotState.market (key : String × String) (s : SpotState) :
    PyNumber × PyNumber × Option ℤ × List PriceSample :=
  (s.history.sampleSeconds, s.history.toleranceSeconds, s.history.lastSampleAt.lookup key,
    s.samples.filter fun row => row.market = key)

/-- The record of a sample on the state. -/
def SpotState.record (s : SpotState) (key : String × String) (timestamp : ℤ)
    (price : Option PyFloat) : SpotState :=
  let (_, history, samples) := s.history.record s.samples key.1 key.2 timestamp price
  ⟨history, samples⟩

section

variable {s s' : SpotState} {key other : String × String} {timestamp : ℤ} {price : Option PyFloat}

theorem recentlySampled_congr (h : s.market key = s'.market key) (timestamp : ℤ) :
    s.history.recentlySampled key timestamp = s'.history.recentlySampled key timestamp := by
  simp only [SpotState.market, Prod.mk.injEq] at h
  rw [SpotHistory.recentlySampled, SpotHistory.recentlySampled, h.1, h.2.2.1]

/-- Whether a key is taken is a question about the samples of the market. -/
theorem any_eq_any_filter (samples : List PriceSample) (key : String × String) (timestamp : ℤ) :
    (samples.any fun row => row.market = key && row.timestamp = timestamp) =
      (samples.filter fun row => row.market = key).any fun row => row.timestamp = timestamp := by
  rw [List.any_filter]

/-- A record writes the part of its market only. -/
theorem market_record_of_ne (hne : other ≠ key) :
    (s.record key timestamp price).market other = s.market other := by
  unfold SpotState.record SpotHistory.record
  cases price with
  | none => rfl
  | some price =>
      by_cases hpositive : price.le 0 = true
      · simp [hpositive]
      · by_cases hrecent : s.history.recentlySampled (key.1, key.2) timestamp = true
        · simp [hpositive, hrecent]
        · simp only [hpositive, hrecent, Bool.false_eq_true, if_false,
            PriceSampleRepository.insertSample]
          split_ifs
          · rfl
          · have hrow : PriceSample.market ⟨key.1, key.2, timestamp, price⟩ ≠ other := hne.symm
            simp only [SpotState.market, SpotHistory.lookup_setLast_of_ne hne,
              List.filter_append, List.filter_cons, hrow, decide_false, Bool.false_eq_true,
              if_false, List.filter_nil, List.append_nil]
            rfl

/-- What a record leaves of its market depends on what was there. -/
theorem market_record_congr (h : s.market key = s'.market key) :
    (s.record key timestamp price).market key = (s'.record key timestamp price).market key := by
  have hrecent := recentlySampled_congr h timestamp
  have hparts := h
  simp only [SpotState.market, Prod.mk.injEq] at hparts
  obtain ⟨hsample, htolerance, hlast, hsamples⟩ := hparts
  unfold SpotState.record SpotHistory.record
  cases price with
  | none => exact h
  | some price =>
      have hkey : (key.1, key.2) = key := rfl
      by_cases hpositive : price.le 0 = true
      · simpa [hpositive] using h
      · by_cases hsoon : s.history.recentlySampled key timestamp = true
        · rw [hrecent] at hsoon
          simpa [hpositive, hrecent, hsoon] using h
        · have hsoon' : ¬ s'.history.recentlySampled key timestamp = true := by rwa [← hrecent]
          simp only [hpositive, hkey, hsoon, hsoon', Bool.false_eq_true, if_false,
            PriceSampleRepository.insertSample, any_eq_any_filter, hsamples]
          split_ifs
          · exact h
          · simp only [SpotState.market, SpotHistory.lookup_setLast_self, List.filter_append,
              hsamples]
            exact congrArg₂ Prod.mk hsample (congrArg₂ Prod.mk htolerance rfl)

/-- The anchor of a market depends on its samples and on the tolerance. -/
theorem findAnchor_congr (h : s.market key = s'.market key) (now : ℤ) :
    s.history.findAnchor s.samples key.1 key.2 now =
      s'.history.findAnchor s'.samples key.1 key.2 now := by
  simp only [SpotState.market, Prod.mk.injEq] at h
  obtain ⟨-, htolerance, -, hsamples⟩ := h
  have hrows (samples : List PriceSample) (lo hi : ℤ) :
      (samples.filter fun row =>
        row.market = (key.1, key.2) && lo ≤ row.timestamp && row.timestamp ≤ hi) =
      (samples.filter fun row => row.market = key).filter fun row =>
        decide (lo ≤ row.timestamp) && decide (row.timestamp ≤ hi) := by
    rw [List.filter_filter]
    refine List.filter_congr fun row _ => ?_
    rw [Bool.and_assoc]
    exact Bool.and_comm _ _
  simp only [SpotHistory.findAnchor, PriceSampleRepository.findReference, htolerance, hrows,
    hsamples]

end

/-- The state and the outcome of the evaluation of a market that has a price and is not linear. -/
theorem evaluate_spot {s : SpotState} {instrument : Instrument} {ticker : Ticker} {now : ℤ}
    (hprice : (ticker.lastPrice.all fun price => price.le 0) = false)
    (hlinear : instrument.category ≠ "linear") :
    MomentumEngine.evaluate s instrument ticker now =
      let recorded := s.record instrument.identity now ticker.lastPrice
      (recorded.history.findAnchor recorded.samples instrument.category instrument.symbol now >>=
          MomentumEngine.evaluateAnchor (MomentumEngine.baseValue instrument ticker) ticker,
        recorded) := by
  rw [MomentumEngine.evaluate, if_neg (by simp [hprice]), if_neg hlinear]
  rfl

/-- **An evaluation is local.** It uses the samples of its market, and no others. -/
theorem locality_evaluate (now : ℤ) :
    Locality (fun market : Instrument × Ticker => market.1.identity) SpotState.market
      fun s market => MomentumEngine.evaluate s market.1 market.2 now := by
  have hsplit (market : Instrument × Ticker) :
      (∀ s, MomentumEngine.evaluate s market.1 market.2 now =
        ((MomentumEngine.evaluate {} market.1 market.2 now).1, s)) ∨
      ∀ s, MomentumEngine.evaluate s market.1 market.2 now =
        let recorded := SpotState.record s market.1.identity now market.2.lastPrice
        (recorded.history.findAnchor recorded.samples market.1.category market.1.symbol now >>=
          MomentumEngine.evaluateAnchor (MomentumEngine.baseValue market.1 market.2) market.2,
        recorded) := by
    by_cases hprice : (market.2.lastPrice.all fun price => price.le 0) = true
    · exact Or.inl fun s => by simp [MomentumEngine.evaluate, hprice]
    · by_cases hlinear : market.1.category = "linear"
      · exact Or.inl fun s => by simp [MomentumEngine.evaluate, hprice, hlinear]
      · exact Or.inr fun s => evaluate_spot (by simpa using hprice) hlinear
  refine ⟨fun s market key hne => ?_, fun s s' market heq => ?_, fun s s' market heq => ?_⟩
  · rcases hsplit market with hnone | hspot
    · rw [hnone]
    · rw [hspot]
      exact market_record_of_ne hne
  · rcases hsplit market with hnone | hspot
    · rw [hnone s, hnone s']
    · rw [hspot s, hspot s']
      have hrecord : (s.record market.1.identity now market.2.lastPrice).market market.1.identity =
          (s'.record market.1.identity now market.2.lastPrice).market market.1.identity :=
        market_record_congr heq
      exact congrArg (· >>= _) (findAnchor_congr hrecord now)
  · rcases hsplit market with hnone | hspot
    · rw [hnone s, hnone s']
      exact heq
    · rw [hspot s, hspot s']
      exact market_record_congr heq

namespace MomentumEvaluator

variable {config : Settings} {prices : TickerStore} {instruments : List Instrument} {now : ℤ}
  {s : SpotState}

theorem mem_evaluable {market : Instrument × Ticker} :
    market ∈ evaluable config prices instruments ↔
      market.1 ∈ instruments ∧ isSupported config market.1 = true ∧
        prices.lookup market.1.identity = some market.2 := by
  obtain ⟨instrument, ticker⟩ := market
  simp only [evaluable, List.mem_filterMap]
  constructor
  · rintro ⟨instrument', hmem, hsome⟩
    split at hsome
    · obtain ⟨ticker', hticker, heq⟩ := Option.map_eq_some_iff.mp hsome
      cases heq
      exact ⟨hmem, ‹_›, hticker⟩
    · cases hsome
  · rintro ⟨hmem, hsupported, hticker⟩
    exact ⟨instrument, hmem, by rw [if_pos hsupported, hticker]; rfl⟩

/-- The markets that are evaluated are different, since the instruments are. -/
theorem nodup_evaluable (hkeys : (instruments.map Instrument.identity).Nodup) :
    ((evaluable config prices instruments).map fun market => market.1.identity).Nodup := by
  induction instruments with
  | nil => exact List.nodup_nil
  | cons instrument instruments ih =>
      rw [List.map_cons, List.nodup_cons] at hkeys
      rw [evaluable, List.filterMap_cons]
      split
      · exact ih hkeys.2
      · rename_i market hsome
        have hfirst : market.1 = instrument := by
          split at hsome
          · obtain ⟨ticker, -, rfl⟩ := Option.map_eq_some_iff.mp hsome
            rfl
          · cases hsome
        rw [List.map_cons, List.nodup_cons, hfirst]
        refine ⟨fun hmem => hkeys.1 ?_, ih hkeys.2⟩
        obtain ⟨other, hother, heq⟩ := List.mem_map.mp hmem
        exact List.mem_map.mpr ⟨other.1, (mem_evaluable.mp hother).1, heq⟩

end MomentumEvaluator

open MomentumEvaluator

theorem record_toleranceSeconds (s : SpotState) (key : String × String) (now : ℤ)
    (price : Option PyFloat) :
    (s.record key now price).history.toleranceSeconds = s.history.toleranceSeconds := by
  unfold SpotState.record SpotHistory.record PriceSampleRepository.insertSample
  cases price with
  | none => rfl
  | some price =>
      dsimp only
      split_ifs <;> rfl

/-- **The markets are evaluated independently.** Over different instruments `evaluate_all` returns,
in the order of the registry, what each supported market with a ticker has when it is evaluated
alone, or raises what the first of them raises; it leaves the samples of each of these markets as
that evaluation leaves them, and no other sample is touched; and another order of the registry
changes neither the values, but for their order, nor the samples. -/
theorem evaluateAll_independent (config : Settings) (prices : TickerStore)
    (instruments : List Instrument) (now : ℤ) (s : SpotState)
    (hkeys : (instruments.map Instrument.identity).Nodup) :
    (evaluateAll config prices instruments now s).1 =
      (evaluable config prices instruments).mapM (fun market =>
        (MomentumEngine.evaluate s market.1 market.2 now).1) ∧
    (∀ key, (∀ market ∈ evaluable config prices instruments, market.1.identity ≠ key) →
      (evaluateAll config prices instruments now s).2.market key = s.market key) ∧
    ∀ values, (evaluateAll config prices instruments now s).1 = .ok values →
      (∀ market ∈ evaluable config prices instruments,
        (evaluateAll config prices instruments now s).2.market market.1.identity =
          (MomentumEngine.evaluate s market.1 market.2 now).2.market market.1.identity) ∧
      ∀ instruments', instruments'.Perm instruments →
        ∃ values', (evaluateAll config prices instruments' now s).1 = .ok values' ∧
          values'.Perm values ∧
          ∀ key, (evaluateAll config prices instruments' now s).2.market key =
            (evaluateAll config prices instruments now s).2.market key := by
  have hlocal := locality_evaluate now
  have hmarkets : ((evaluable config prices instruments).map fun market =>
      market.1.identity).Nodup := nodup_evaluable hkeys
  have houtcome := hlocal.runAll_outcome s hmarkets
  have hframe (instruments : List Instrument) (key : String × String)
      (hne : ∀ market ∈ evaluable config prices instruments, market.1.identity ≠ key) :
      (evaluateAll config prices instruments now s).2.market key = s.market key := by
    refine hlocal.runAll_frame s _ fun hmem => ?_
    obtain ⟨market, hmarket, heq⟩ := List.mem_map.mp hmem
    exact hne market hmarket heq
  refine ⟨houtcome, hframe instruments, fun values hvalues => ?_⟩
  have hview : ∀ market ∈ evaluable config prices instruments,
      (evaluateAll config prices instruments now s).2.market market.1.identity =
        (MomentumEngine.evaluate s market.1 market.2 now).2.market market.1.identity :=
    fun market hmarket => hlocal.runAll_view s hmarkets hvalues hmarket
  refine ⟨hview, fun instruments' hperm => ?_⟩
  -- the markets are the same ones in another order
  have hmarkets' : ((evaluable config prices instruments').map fun market =>
      market.1.identity).Nodup :=
    nodup_evaluable ((hperm.map Instrument.identity).nodup_iff.mpr hkeys)
  have hpermMarkets : (evaluable config prices instruments').Perm
      (evaluable config prices instruments) := hperm.filterMap _
  obtain ⟨values', hvalues', hpermValues⟩ :=
    List.mapM_perm hpermMarkets (houtcome.symm.trans hvalues)
  have hreturns : (evaluateAll config prices instruments' now s).1 = .ok values' :=
    (hlocal.runAll_outcome s hmarkets').trans hvalues'
  refine ⟨values', hreturns, hpermValues, fun key => ?_⟩
  by_cases hkey : ∃ market ∈ evaluable config prices instruments, market.1.identity = key
  · obtain ⟨market, hmarket, rfl⟩ := hkey
    rw [hview market hmarket]
    exact hlocal.runAll_view s hmarkets' hreturns (hpermMarkets.mem_iff.mpr hmarket)
  · have hne : ∀ market ∈ evaluable config prices instruments, market.1.identity ≠ key :=
      fun market hmarket heq => hkey ⟨market, hmarket, heq⟩
    rw [hframe instruments key hne]
    exact hframe instruments' key fun market hmarket =>
      hne market (hpermMarkets.mem_iff.mp hmarket)

/-- A spot market and a linear market. -/
def twoMarkets : List Instrument :=
  [{ category := "spot", symbol := "BTCUSDT", baseCoin := "BTC", quoteCoin := some "USDT" },
   { category := "linear", symbol := "ETHUSDT", baseCoin := "ETH", settleCoin := some "USDT" }]

def twoPrices : TickerStore :=
  [(("linear", "ETHUSDT"), { category := "linear", symbol := "ETHUSDT", lastPrice := some 106,
                             prevPrice1h := some 100 }),
   (("spot", "BTCUSDT"), { category := "spot", symbol := "BTCUSDT", lastPrice := some 106 })]

/-- The two markets in both orders, on a table with an anchor. -/
theorem evaluateAll_independent_two :
    let s : SpotState := { samples := [⟨"spot", "BTCUSDT", 1430, 100⟩] }
    ∃ values values', (evaluateAll {} twoPrices twoMarkets 5000 s).1 = .ok values ∧
      values.map MomentumValue.change1h = [some 6, some 6] ∧
      (evaluateAll {} twoPrices twoMarkets.reverse 5000 s).1 = .ok values' ∧
      values'.Perm values ∧
      (evaluateAll {} twoPrices twoMarkets.reverse 5000 s).2.market ("spot", "BTCUSDT") =
        (evaluateAll {} twoPrices twoMarkets 5000 s).2.market ("spot", "BTCUSDT") := by
  intro s
  have hvalues : (match (evaluateAll {} twoPrices twoMarkets 5000 s).1 with
      | .ok values => decide (values.map MomentumValue.change1h = [some 6, some 6])
      | .error _ => false) = true := by decide +kernel
  cases hrun : (evaluateAll {} twoPrices twoMarkets 5000 s).1 with
  | error exc =>
      rw [hrun] at hvalues
      cases hvalues
  | ok values =>
      rw [hrun] at hvalues
      obtain ⟨values', hrun', hperm, hmarket⟩ :=
        ((evaluateAll_independent {} twoPrices twoMarkets 5000 s (by decide)).2.2 values hrun).2
          twoMarkets.reverse (List.reverse_perm _)
      exact ⟨values, values', rfl, of_decide_eq_true hvalues, hrun', hperm, hmarket _⟩

/-! ## The change of a market -/

/-- The price of an hour ago: what Bybit reports for a linear market, and the anchor of a spot
market once the sample of its evaluation is recorded. -/
def referencePrice (s : SpotState) (instrument : Instrument) (ticker : Ticker) (now : ℤ) :
    Except PyExc (Option PyFloat) :=
  if instrument.category = "linear" then .ok ticker.prevPrice1h
  else
    let recorded := s.record instrument.identity now ticker.lastPrice
    recorded.history.findAnchor recorded.samples instrument.category instrument.symbol now

/-- The change of a market over the last hour is `change`. -/
def HasChange (s : SpotState) (instrument : Instrument) (ticker : Ticker) (now : ℤ)
    (change : PyFloat) : Prop :=
  ∃ last reference, ticker.lastPrice = some last ∧
    referencePrice s instrument ticker now = .ok (some reference) ∧
    last.le 0 = false ∧ reference.le 0 = false ∧
    MomentumEngine.rawChange last reference = .ok change

theorem MomentumEngine.change_eq_some_iff {last reference : Option PyFloat} {result : PyFloat} :
    MomentumEngine.change last reference = .ok (some result) ↔
      ∃ x y, last = some x ∧ reference = some y ∧ x.le 0 = false ∧ y.le 0 = false ∧
        MomentumEngine.rawChange x y = .ok result := by
  cases last with
  | none => simp [MomentumEngine.change]
  | some x =>
      cases reference with
      | none => simp [MomentumEngine.change]
      | some y =>
          by_cases hx : x.le 0 = true
          · simp [MomentumEngine.change, hx]
          · by_cases hy : y.le 0 = true
            · simp [MomentumEngine.change, hy]
            · simp only [Bool.not_eq_true] at hx hy
              cases hraw : MomentumEngine.rawChange x y <;>
                simp [MomentumEngine.change, hx, hy, hraw]

/-- The window of the anchor ends before the evaluation. -/
def AnchorPast (history : SpotHistory) (now : ℤ) : Prop :=
  ∀ hi, (history.toleranceSeconds.addInt (now - SpotHistory.secondsPerHour) >>= PyNumber.toInt) =
    .ok hi → hi < now

/-- A sample that an evaluation records outside of the window is not its anchor. -/
theorem referencePrice_of_anchorPast {s : SpotState} {instrument : Instrument} {ticker : Ticker}
    {now : ℤ} (hpast : AnchorPast s.history now) :
    referencePrice s instrument ticker now =
      if instrument.category = "linear" then .ok ticker.prevPrice1h
      else s.history.findAnchor s.samples instrument.category instrument.symbol now := by
  rw [referencePrice]
  refine if_congr Iff.rfl rfl ?_
  have hsamples : (s.record instrument.identity now ticker.lastPrice).samples = s.samples ∨
      ∃ row, row.timestamp = now ∧
        (s.record instrument.identity now ticker.lastPrice).samples = s.samples ++ [row] := by
    unfold SpotState.record SpotHistory.record PriceSampleRepository.insertSample
    cases ticker.lastPrice with
    | none => exact Or.inl rfl
    | some price =>
        dsimp only
        split_ifs
        · exact Or.inl rfl
        · exact Or.inl rfl
        · exact Or.inl rfl
        · exact Or.inr ⟨_, rfl, rfl⟩
  simp only [SpotHistory.findAnchor, PriceSampleRepository.findReference,
    record_toleranceSeconds]
  rcases hsamples with hsame | ⟨row, hrow, hmore⟩
  · rw [hsame]
  · cases hhi : s.history.toleranceSeconds.addInt (now - SpotHistory.secondsPerHour) >>=
        PyNumber.toInt with
    | error exc => rfl
    | ok hi =>
        -- the new row is later than the end of the window
        have hlate : ¬ row.timestamp ≤ hi := by
          have h := hpast hi hhi
          omega
        simp [hmore, List.filter_append, hlate]

/-- What an evaluation that returns says about its market. -/
theorem evaluate_ok {s s' : SpotState} {instrument : Instrument} {ticker : Ticker} {now : ℤ}
    {value : MomentumValue}
    (h : MomentumEngine.evaluate s instrument ticker now = (.ok value, s')) :
    (value.category = instrument.category ∧ value.symbol = instrument.symbol ∧
      value.baseCoin = instrument.baseCoin) ∧
    ∀ change, value.change1h = some change ↔ HasChange s instrument ticker now change := by
  by_cases hprice : (ticker.lastPrice.all fun price => price.le 0) = true
  · -- a market without a positive price has no change
    rw [MomentumEngine.evaluate, if_pos hprice] at h
    cases h
    refine ⟨⟨rfl, rfl, rfl⟩, fun change => iff_of_false (Option.some_ne_none change).symm ?_⟩
    rintro ⟨last, reference, hlast, -, hpositive, -⟩
    rw [hlast, Option.all_some, hpositive] at hprice
    cases hprice
  · by_cases hlinear : instrument.category = "linear"
    · rw [MomentumEngine.evaluate, if_neg hprice, if_pos hlinear] at h
      obtain ⟨change1h, hchange, hvalue⟩ := PyExc.bind_eq_ok.mp (Prod.mk.inj h).1
      cases hvalue
      refine ⟨⟨rfl, rfl, rfl⟩, fun change => ?_⟩
      simp only [HasChange, referencePrice, hlinear, if_true, Except.ok.injEq]
      rw [MomentumEngine.linearChange] at hchange
      constructor
      · rintro rfl
        exact (MomentumEngine.change_eq_some_iff.mp hchange).imp fun x => by tauto
      · intro hhas
        rw [MomentumEngine.change_eq_some_iff.mpr hhas] at hchange
        exact (Except.ok.inj hchange).symm
    · rw [evaluate_spot (by simpa using hprice) hlinear] at h
      obtain ⟨anchor, hanchor, hvalue⟩ := PyExc.bind_eq_ok.mp (Prod.mk.inj h).1
      have hreference : referencePrice s instrument ticker now = .ok anchor := by
        rw [referencePrice, if_neg hlinear]
        exact hanchor
      simp only [HasChange, hreference, Except.ok.injEq]
      cases anchor with
      | none =>
          cases hvalue
          exact ⟨⟨rfl, rfl, rfl⟩, fun change => by simp [MomentumEngine.baseValue]⟩
      | some anchor =>
          rw [MomentumEngine.evaluateAnchor] at hvalue
          by_cases hpositive : anchor.le 0 = true
          · rw [if_pos hpositive] at hvalue
            cases hvalue
            refine ⟨⟨rfl, rfl, rfl⟩, fun change =>
              iff_of_false (Option.some_ne_none change).symm ?_⟩
            rintro ⟨last, reference, -, heq, -, hreference', -⟩
            cases heq
            rw [hpositive] at hreference'
            cases hreference'
          · rw [if_neg hpositive] at hvalue
            obtain ⟨change1h, hchange, hvalue⟩ := PyExc.bind_eq_ok.mp hvalue
            cases hvalue
            refine ⟨⟨rfl, rfl, rfl⟩, fun change => ?_⟩
            rw [MomentumEngine.spotChange] at hchange
            constructor
            · rintro rfl
              exact MomentumEngine.change_eq_some_iff.mp hchange
            · intro hhas
              rw [MomentumEngine.change_eq_some_iff.mpr hhas] at hchange
              exact (Except.ok.inj hchange).symm

/-- A supported market with a ticker whose change is above the threshold. -/
def Qualifies (config : Settings) (prices : TickerStore) (instruments : List Instrument) (now : ℤ)
    (s : SpotState) (coin : String) : Prop :=
  ∃ instrument ∈ instruments, isSupported config instrument = true ∧ instrument.baseCoin = coin ∧
    ∃ ticker, prices.lookup instrument.identity = some ticker ∧
      ∃ change, HasChange s instrument ticker now change ∧
        config.alertThresholdPercent.lt change = true

/-- **The coins of a cycle.** The aggregate of an evaluation has the coins, in increasing order,
that have a supported market with a change above the threshold. -/
theorem mem_baseCoins_evaluateAll {config : Settings} {prices : TickerStore}
    {instruments : List Instrument} {now : ℤ} {s : SpotState} {values : List MomentumValue}
    (hkeys : (instruments.map Instrument.identity).Nodup)
    (h : (evaluateAll config prices instruments now s).1 = .ok values) (coin : String) :
    coin ∈ (aggregateQualifying values config.alertThresholdPercent).baseCoins ↔
      Qualifies config prices instruments now s coin := by
  have hvalues := ((locality_evaluate now).runAll_outcome s (nodup_evaluable hkeys)).symm.trans h
  rw [mem_baseCoins]
  constructor
  · rintro ⟨value, hmem, hqualifies, hcoin⟩
    obtain ⟨⟨instrument, ticker⟩, hmarket, hvalue⟩ := List.exists_of_mem_result hvalues hmem
    obtain ⟨hmem, hsupported, hticker⟩ := mem_evaluable.mp hmarket
    obtain ⟨⟨-, -, hbase⟩, hchange⟩ := evaluate_ok (Prod.ext hvalue rfl)
    cases hsome : value.change1h with
    | none =>
        rw [hsome] at hqualifies
        cases hqualifies
    | some change =>
        rw [hsome] at hqualifies
        exact ⟨instrument, hmem, hsupported, hbase.symm.trans hcoin, ticker, hticker, change,
          (hchange change).mp hsome, hqualifies⟩
  · rintro ⟨instrument, hmem, hsupported, hcoin, ticker, hticker, change, hhas, hthreshold⟩
    have hmarket : (instrument, ticker) ∈ evaluable config prices instruments :=
      mem_evaluable.mpr ⟨hmem, hsupported, hticker⟩
    obtain ⟨value, hvalueMem, hvalue⟩ := List.exists_result_of_mem hvalues hmarket
    obtain ⟨⟨-, -, hbase⟩, hchange⟩ := evaluate_ok (Prod.ext hvalue rfl)
    refine ⟨value, hvalueMem, ?_, hbase.trans hcoin⟩
    rw [(hchange change).mpr hhas]
    exact hthreshold

/-! ## Database errors -/

/-- What the insert of a sample and the query for an anchor raise. -/
structure SampleFaults where
  insert : Option PyExc := none
  query : Option PyExc := none
  deriving DecidableEq, Repr

/-- What the database operations of `evaluate_all` raise: the load of the registry, and those of
each market. -/
structure EvaluationFaults where
  load : Option PyExc := none
  market : String × String → SampleFaults := fun _ => {}

/-- `evaluate` with what its database operations raise. -/
def MomentumEngine.evaluateWith (faults : SampleFaults) (self : SpotState) (instrument : Instrument)
    (ticker : Ticker) (now : ℤ) : Except PyExc MomentumValue × SpotState :=
  let base := baseValue instrument ticker
  if ticker.lastPrice.all fun price => price.le 0 then (.ok base, self)
  else if instrument.category = "linear" then (evaluateLinear base ticker, self)
  else
    -- there is no insert too soon after the last one
    match self.history.recentlySampled instrument.identity now, faults.insert with
    | false, some exc => (.error exc, self)
    | _, _ =>
        let recorded := self.record instrument.identity now ticker.lastPrice
        (do
          let anchor ←
            recorded.history.findAnchor recorded.samples instrument.category instrument.symbol now
          match faults.query with
          | some exc => .error exc
          | none => evaluateAnchor base ticker anchor,
          recorded)

/-- `evaluate_all` with what its database operations raise. -/
def MomentumEvaluator.evaluateAllWith (faults : EvaluationFaults) (config : Settings)
    (prices : TickerStore) (instruments : List Instrument) (now : ℤ) (s : SpotState) :
    Except PyExc (List MomentumValue) × SpotState :=
  match faults.load with
  | some exc => (.error exc, s)
  | none =>
      runAll (fun s market =>
        MomentumEngine.evaluateWith (faults.market market.1.identity) s market.1 market.2 now) s
        (evaluable config prices instruments)

/-- An evaluation that returns has met no error. -/
theorem MomentumEngine.evaluateWith_ok {faults : SampleFaults} {s s' : SpotState}
    {instrument : Instrument} {ticker : Ticker} {now : ℤ} {value : MomentumValue}
    (h : evaluateWith faults s instrument ticker now = (.ok value, s')) :
    evaluate s instrument ticker now = (.ok value, s') := by
  by_cases hprice : (ticker.lastPrice.all fun price => price.le 0) = true
  · rw [evaluateWith, if_pos hprice] at h
    rwa [evaluate, if_pos hprice]
  · by_cases hlinear : instrument.category = "linear"
    · rw [evaluateWith, if_neg hprice, if_pos hlinear] at h
      rwa [evaluate, if_neg hprice, if_pos hlinear]
    · rw [evaluateWith, if_neg hprice, if_neg hlinear] at h
      rw [evaluate_spot (by simpa using hprice) hlinear]
      dsimp only at h ⊢
      split at h
      · cases h
      · obtain ⟨houtcome, rfl⟩ := Prod.mk.inj h
        obtain ⟨anchor, hanchor, hvalue⟩ := PyExc.bind_eq_ok.mp houtcome
        rw [hanchor]
        split at hvalue
        · cases hvalue
        · exact congrArg (·, _) hvalue

theorem MomentumEvaluator.evaluateAllWith_ok {faults : EvaluationFaults} {config : Settings}
    {prices : TickerStore} {instruments : List Instrument} {now : ℤ} {s s' : SpotState}
    {values : List MomentumValue}
    (h : evaluateAllWith faults config prices instruments now s = (.ok values, s')) :
    evaluateAll config prices instruments now s = (.ok values, s') := by
  rw [evaluateAllWith] at h
  split at h
  · cases h
  · exact runAll_of_returns (fun s market value s' => MomentumEngine.evaluateWith_ok) h

end BybitMonitor
