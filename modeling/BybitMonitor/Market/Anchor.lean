import Mathlib
import BybitMonitor.Market.SpotHistory
import BybitMonitor.ToMathlib.Sampling

/-!
# The anchor of a spot market

After a warm-up of one hour, every evaluation of a spot market that is evaluated often enough finds
a sample near the point one hour before it.

* `Sampled`: the invariant of the runs. Every evaluation has a sample, and a sample leaves the table
  by a prune only.
* `anchored_after_warmup`: the anchor.
-/

namespace BybitMonitor

/-- The times at which a market is evaluated. -/
def evaluationTimes (market : String × String) (events : List SpotEvent) : List ℤ :=
  events.filterMap fun
    | .evaluated instrument _ now _ =>
        if (instrument.category, instrument.symbol) = market then some now else none
    | _ => none

/-- The evaluations of a market have a positive price and are at increasing times, at most `gap`
apart; no prune is later than an evaluation that follows it. -/
structure Schedule (market : String × String) (gap : ℤ) (events : List SpotEvent) : Prop where
  gaps : (evaluationTimes market events).IsChain fun n m => n < m ∧ m - n ≤ gap
  positive : ∀ instrument ticker now outcome, .evaluated instrument ticker now outcome ∈ events →
    (instrument.category, instrument.symbol) = market →
      ∃ price, ticker.lastPrice = some price ∧ price.le 0 = false
  prunes : events.Pairwise fun event later => ∀ p n, event = .pruned p →
    n ∈ evaluationTimes market [later] → p ≤ n

/-- A sample of the market is in the table, or a prune has deleted all samples of its time. -/
def Stored (market : String × String) (retention : ℤ) (events : List SpotEvent)
    (samples : List PriceSample) (ts : ℤ) : Prop :=
  (∃ row ∈ samples, row.market = market ∧ row.timestamp = ts) ∨
    ∃ p, SpotEvent.pruned p ∈ events ∧ ts < p - retention

/-- The prices of the table are positive numbers. -/
def PricesPositive (samples : List PriceSample) : Prop :=
  ∀ row ∈ samples, ∃ x, 0 < x ∧ row.price = .finite x

/-- Every evaluation of the market has a sample, and so has the last entry of the map. -/
structure Sampled (sampleSeconds toleranceSeconds : PyNumber) (market : String × String)
    (spacing retention : ℤ) (events : List SpotEvent) (s : SpotState) : Prop where
  sampleSeconds_eq : s.history.sampleSeconds = sampleSeconds
  toleranceSeconds_eq : s.history.toleranceSeconds = toleranceSeconds
  covered : ∀ n ∈ evaluationTimes market events,
    Sampling.Covered (Stored market retention events s.samples) spacing n
  first : ∀ n, (evaluationTimes market events).head? = some n →
    Stored market retention events s.samples n
  last : ∀ last, s.history.lastSampleAt.lookup market = some last →
    last ∈ evaluationTimes market events ∧ Stored market retention events s.samples last

namespace MomentumEngine

variable {s : SpotState} {instrument : Instrument} {ticker : NormalizedTicker} {now : ℤ}

/-- An evaluation changes nothing, or records a positive price of a market that is not linear. -/
theorem evaluate_cases (s : SpotState) (instrument : Instrument) (ticker : NormalizedTicker)
    (now : ℤ) :
    (evaluate s instrument ticker.toTicker now).2 = s ∧
        (instrument.category = "linear" ∨ ticker.lastPrice.all fun price => price.le 0) ∨
      ∃ x recorded, 0 < x ∧ ticker.lastPrice = some (.finite x) ∧
        s.history.record s.samples instrument.category instrument.symbol now
            (some (.finite x)) =
          (recorded, (evaluate s instrument ticker.toTicker now).2.history,
            (evaluate s instrument ticker.toTicker now).2.samples) ∧
        (evaluate s instrument ticker.toTicker now).1 =
          ((evaluate s instrument ticker.toTicker now).2.history.findAnchor
              (evaluate s instrument ticker.toTicker now).2.samples instrument.category
              instrument.symbol now >>=
            evaluateAnchor (baseValue instrument ticker.toTicker) ticker.toTicker) := by
  by_cases hprice : ticker.lastPrice.all fun price => price.le 0
  · refine Or.inl ⟨?_, Or.inr hprice⟩
    rw [evaluate, if_pos hprice]
  · by_cases hlinear : instrument.category = "linear"
    · refine Or.inl ⟨?_, Or.inl hlinear⟩
      rw [evaluate, if_neg hprice, if_pos hlinear]
    · refine Or.inr ?_
      obtain ⟨price, hsome, hpositive⟩ : ∃ price, ticker.lastPrice = some price ∧
          price.le 0 = false := by
        cases hlast : ticker.lastPrice with
        | none => simp [hlast] at hprice
        | some price => exact ⟨price, rfl, by simpa [hlast] using hprice⟩
      obtain ⟨x, rfl⟩ := ticker.finite_lastPrice hsome
      have heval : evaluate s instrument ticker.toTicker now = _ :=
        (if_neg hprice).trans (if_neg hlinear)
      refine ⟨x, (s.history.record s.samples instrument.category instrument.symbol now
        (some (.finite x))).1, PyFloat.le_zero_eq_false_iff.mp hpositive, hsome, ?_, ?_⟩
      · rw [heval, hsome]
      · rw [heval]

theorem evaluate_samples_subset :
    s.samples ⊆ (evaluate s instrument ticker.toTicker now).2.samples := by
  rcases evaluate_cases s instrument ticker now with ⟨hsame, -⟩ | ⟨x, recorded, hx, -, hrecord, -⟩
  · rw [hsame]
    exact List.Subset.refl _
  · exact (SpotHistory.record_spec hx hrecord).2.1

end MomentumEngine

/-! ## The steps of a run -/

section

variable {sampleSeconds toleranceSeconds retentionSeconds : PyNumber} {market : String × String}
  {spacing retention gap : ℤ} {events : List SpotEvent} {event : SpotEvent} {s s' : SpotState}

theorem evaluationTimes_append (events later : List SpotEvent) :
    evaluationTimes market (events ++ later) =
      evaluationTimes market events ++ evaluationTimes market later :=
  List.filterMap_append

theorem evaluationTimes_other {instrument : Instrument} {ticker : NormalizedTicker} {now : ℤ}
    {outcome : Except PyExc MomentumValue}
    (h : (instrument.category, instrument.symbol) ≠ market) :
    evaluationTimes market [.evaluated instrument ticker now outcome] = [] :=
  List.filterMap_cons_none (if_neg h)

/-- An evaluation is recorded with a positive number only. -/
theorem SpotStep.pricesPositive (hstep : SpotStep sampleSeconds toleranceSeconds retentionSeconds s
    event s') (h : PricesPositive s.samples) : PricesPositive s'.samples := by
  cases hstep with
  | evaluated instrument ticker now =>
      rcases MomentumEngine.evaluate_cases s instrument ticker now with
        ⟨hsame, -⟩ | ⟨x, recorded, hx, -, hrecord, -⟩
      · rw [hsame]
        exact h
      · intro row hrow
        rcases List.mem_cons.mp ((SpotHistory.record_spec hx hrecord).1 hrow) with rfl | hrow
        · exact ⟨x, hx, rfl⟩
        · exact h row hrow
  | pruned hprune =>
      obtain ⟨cutoff, -, hresult⟩ := PyExc.bind_eq_ok.mp hprune
      cases hresult
      exact fun row hrow => h row (List.mem_filter.mp hrow).1
  | restarted => exact h

theorem PricesPositive.of_run {init : SpotState}
    (hrun : Trace (SpotStep sampleSeconds toleranceSeconds retentionSeconds) init events s)
    (h : PricesPositive init.samples) : PricesPositive s.samples :=
  @Trace.stateInvariant _ _ _ _ _ _ (fun s => PricesPositive s.samples) h
    (fun _ _ _ h hstep => hstep.pricesPositive h) hrun

/-- Samples leave the table by a prune only. -/
theorem SpotStep.stored (hretention : retentionSeconds.Denotes retention)
    (hstep : SpotStep sampleSeconds toleranceSeconds retentionSeconds s event s') {ts : ℤ}
    (h : Stored market retention events s.samples ts) :
    Stored market retention (events ++ [event]) s'.samples ts := by
  rcases h with ⟨row, hrow, hmarket, hts⟩ | ⟨p, hp, hlt⟩
  · cases hstep with
    | evaluated instrument ticker now =>
        exact Or.inl ⟨row, MomentumEngine.evaluate_samples_subset hrow, hmarket, hts⟩
    | @pruned p _ _ hprune =>
        obtain ⟨cutoff, hcutoff, hresult⟩ := PyExc.bind_eq_ok.mp hprune
        rw [hretention.toInt_eq] at hcutoff
        cases hcutoff
        cases hresult
        by_cases hold : ts < p - retention
        · exact Or.inr ⟨p, by simp, hold⟩
        · refine Or.inl ⟨row, List.mem_filter.mpr ⟨hrow, ?_⟩, hmarket, hts⟩
          simpa [hts] using hold
    | restarted => exact Or.inl ⟨row, hrow, hmarket, hts⟩
  · exact Or.inr ⟨p, List.mem_append_left _ hp, hlt⟩

theorem Schedule.of_append (h : Schedule market gap (events ++ [event])) :
    Schedule market gap events where
  gaps := by
    have hgaps := h.gaps
    rw [evaluationTimes_append] at hgaps
    exact hgaps.left_of_append
  positive := fun instrument ticker now outcome hmem =>
    h.positive instrument ticker now outcome (List.mem_append_left _ hmem)
  prunes := (List.pairwise_append.mp h.prunes).1

/-- A step that evaluates another market, or none, keeps the samples of the market. -/
theorem Sampled.frame (hretention : retentionSeconds.Denotes retention)
    (h : Sampled sampleSeconds toleranceSeconds market spacing retention events s)
    (hstep : SpotStep sampleSeconds toleranceSeconds retentionSeconds s event s')
    (hother : evaluationTimes market [event] = [])
    (hsampleSeconds : s'.history.sampleSeconds = sampleSeconds)
    (htoleranceSeconds : s'.history.toleranceSeconds = toleranceSeconds)
    (hlookup : ∀ last, s'.history.lastSampleAt.lookup market = some last →
      s.history.lastSampleAt.lookup market = some last) :
    Sampled sampleSeconds toleranceSeconds market spacing retention (events ++ [event]) s' := by
  have htimes : evaluationTimes market (events ++ [event]) = evaluationTimes market events := by
    rw [evaluationTimes_append, hother, List.append_nil]
  refine ⟨hsampleSeconds, htoleranceSeconds, ?_, ?_, ?_⟩
  · rw [htimes]
    intro n hn
    obtain ⟨ts, hts, hle⟩ := h.covered n hn
    exact ⟨ts, hstep.stored hretention hts, hle⟩
  · rw [htimes]
    exact fun n hn => hstep.stored hretention (h.first n hn)
  · rw [htimes]
    intro last hlast
    obtain ⟨hmem, hstored⟩ := h.last last (hlookup last hlast)
    exact ⟨hmem, hstep.stored hretention hstored⟩

/-- An evaluation of the market has a sample: the one that it records, the one that is there
already, or the last one. -/
theorem Sampled.evaluated (hspacing : sampleSeconds.Denotes spacing)
    (hretention : retentionSeconds.Denotes retention)
    (h : Sampled sampleSeconds toleranceSeconds market spacing retention events s)
    {instrument : Instrument} {ticker : NormalizedTicker} {now : ℤ}
    {outcome : Except PyExc MomentumValue}
    (hmarket : (instrument.category, instrument.symbol) = market)
    (hspot : instrument.category = "spot")
    (hschedule : Schedule market gap (events ++ [.evaluated instrument ticker now outcome]))
    (hstep : SpotStep sampleSeconds toleranceSeconds retentionSeconds s
      (.evaluated instrument ticker now outcome) s') :
    Sampled sampleSeconds toleranceSeconds market spacing retention
      (events ++ [.evaluated instrument ticker now outcome]) s' := by
  have htimes : evaluationTimes market (events ++ [.evaluated instrument ticker now outcome]) =
      evaluationTimes market events ++ [now] := by
    rw [evaluationTimes_append]
    simp [evaluationTimes, hmarket]
  have hlater : ∀ n ∈ evaluationTimes market events, n < now := by
    have hgaps := hschedule.gaps
    rw [htimes] at hgaps
    have hincreasing := List.isChain_iff_pairwise.mp (hgaps.imp fun _ _ hlink => hlink.1)
    exact fun n hn => (List.pairwise_append.mp hincreasing).2.2 n hn now (List.mem_singleton_self _)
  have hkept := @SpotStep.stored _ _ _ market _ events _ _ _ hretention hstep
  cases hstep with
  | evaluated =>
      obtain ⟨price, hprice, hpositive⟩ :=
        hschedule.positive instrument ticker now _
          (List.mem_append_right _ (List.mem_singleton_self _)) hmarket
      -- the price is recorded
      rcases MomentumEngine.evaluate_cases s instrument ticker now with
        ⟨-, hlinear | hnone⟩ | ⟨x, recorded, hx, -, hrecord, -⟩
      · rw [hspot] at hlinear
        exact absurd hlinear (by decide)
      · simp [hprice, hpositive] at hnone
      obtain ⟨-, -, hsample, hhistory⟩ := SpotHistory.record_spec hx hrecord
      rw [hmarket] at hsample hhistory
      have hstored : Stored market retention
          (events ++ [.evaluated instrument ticker now
            (MomentumEngine.evaluate s instrument ticker.toTicker now).1])
          (MomentumEngine.evaluate s instrument ticker.toTicker now).2.samples now ∨
            ∃ last, s.history.lastSampleAt.lookup market = some last ∧ now - last < spacing := by
        rcases hsample with hrecent | hrow
        · obtain ⟨last, hlast, hlt⟩ := (Option.any_eq_true _ _).mp hrecent
          rw [h.sampleSeconds_eq, hspacing.gtInt_iff] at hlt
          exact Or.inr ⟨last, hlast, hlt⟩
        · exact Or.inl (Or.inl hrow)
      refine ⟨?_, ?_, ?_, ?_, ?_⟩
      · rcases hhistory with heq | ⟨heq, -⟩
        · rw [heq, h.sampleSeconds_eq]
        · rw [heq, SpotHistory.setLast, h.sampleSeconds_eq]
      · rcases hhistory with heq | ⟨heq, -⟩
        · rw [heq, h.toleranceSeconds_eq]
        · rw [heq, SpotHistory.setLast, h.toleranceSeconds_eq]
      · rw [htimes]
        intro n hn
        rcases List.mem_append.mp hn with hn | hn
        · obtain ⟨ts, hts, hle⟩ := h.covered n hn
          exact ⟨ts, hkept hts, hle⟩
        · rw [List.mem_singleton.mp hn]
          rcases hstored with hnow | ⟨last, hlast, hlt⟩
          · exact ⟨now, hnow, le_rfl, Or.inl rfl⟩
          · obtain ⟨hmem, hts⟩ := h.last last hlast
            exact ⟨last, hkept hts, (hlater last hmem).le, Or.inr hlt⟩
      · rw [htimes]
        intro n hn
        cases hfirst : evaluationTimes market events with
        | nil =>
            -- the first evaluation finds no entry in the map
            rw [hfirst] at hn
            obtain rfl : now = n := by simpa using hn
            rcases hstored with hnow | ⟨last, hlast, -⟩
            · exact hnow
            · have := (h.last last hlast).1
              rw [hfirst] at this
              cases this
        | cons first rest =>
            rw [hfirst] at hn
            obtain rfl : first = n := by simpa using hn
            exact hkept (h.first first (by rw [hfirst]; rfl))
      · rw [htimes]
        intro last hlast
        rcases hhistory with heq | ⟨heq, hrow⟩
        · rw [heq] at hlast
          obtain ⟨hmem, hts⟩ := h.last last hlast
          exact ⟨List.mem_append_left _ hmem, hkept hts⟩
        · rw [heq, SpotHistory.lookup_setLast_self] at hlast
          cases hlast
          exact ⟨by simp, Or.inl hrow⟩

/-- Every run that keeps the schedule is sampled. -/
theorem Sampled.of_run (hspacing : sampleSeconds.Denotes spacing)
    (hretention : retentionSeconds.Denotes retention) {symbol : String}
    {samples : List PriceSample} (hschedule : Schedule ("spot", symbol) gap events)
    (hrun : Trace (SpotStep sampleSeconds toleranceSeconds retentionSeconds)
      (.start sampleSeconds toleranceSeconds samples) events s) :
    Sampled sampleSeconds toleranceSeconds ("spot", symbol) spacing retention events s := by
  induction hrun with
  | nil =>
      exact ⟨rfl, rfl, fun n hn => (by cases hn), fun n hn => (by cases hn),
        fun last hlast => (by cases hlast)⟩
  | @snoc events s event s' prior laststep ih =>
      have h := ih hschedule.of_append
      have hstep := laststep
      cases laststep with
      | evaluated instrument ticker now =>
          by_cases hmarket : (instrument.category, instrument.symbol) = ("spot", symbol)
          · exact h.evaluated hspacing hretention hmarket (Prod.mk.inj hmarket).1 hschedule hstep
          · -- another market is evaluated
            rcases MomentumEngine.evaluate_cases s instrument ticker now with
              ⟨hsame, -⟩ | ⟨x, recorded, hx, -, hrecord, -⟩
            · refine h.frame hretention hstep (evaluationTimes_other hmarket) ?_ ?_ ?_
              · rw [hsame, h.sampleSeconds_eq]
              · rw [hsame, h.toleranceSeconds_eq]
              · rw [hsame]
                exact fun _ hlast => hlast
            · have hhistory := (SpotHistory.record_spec hx hrecord).2.2.2
              refine h.frame hretention hstep (evaluationTimes_other hmarket) ?_ ?_ ?_
              · rcases hhistory with heq | ⟨heq, -⟩
                · rw [heq, h.sampleSeconds_eq]
                · rw [heq, SpotHistory.setLast, h.sampleSeconds_eq]
              · rcases hhistory with heq | ⟨heq, -⟩
                · rw [heq, h.toleranceSeconds_eq]
                · rw [heq, SpotHistory.setLast, h.toleranceSeconds_eq]
              · rcases hhistory with heq | ⟨heq, -⟩
                · rw [heq]
                  exact fun _ hlast => hlast
                · rw [heq, SpotHistory.lookup_setLast_of_ne (Ne.symm hmarket)]
                  exact fun _ hlast => hlast
      | pruned hprune =>
          exact h.frame hretention hstep rfl h.sampleSeconds_eq h.toleranceSeconds_eq
            fun _ hlast => hlast
      | restarted => exact h.frame hretention hstep rfl rfl rfl fun _ hlast => (by cases hlast)

/-- A prune before an evaluation is not later than it. -/
theorem Schedule.prune_le {instrument : Instrument} {ticker : NormalizedTicker} {now p : ℤ}
    {outcome : Except PyExc MomentumValue}
    (h : Schedule market gap (events ++ [.evaluated instrument ticker now outcome]))
    (hmarket : (instrument.category, instrument.symbol) = market)
    (hp : SpotEvent.pruned p ∈ events ++ [.evaluated instrument ticker now outcome]) : p ≤ now := by
  rcases List.mem_append.mp hp with hp | hp
  · exact (List.pairwise_append.mp h.prunes).2.2 _ hp _ (List.mem_singleton_self _) p now rfl
      (by simp [evaluationTimes, hmarket])
  · cases List.mem_singleton.mp hp

/-- In a run that keeps the schedule, an evaluation one hour after the first has a sample near the
point one hour before it. -/
theorem Sampled.exists_sample {tolerance first now : ℤ} {instrument : Instrument}
    {ticker : NormalizedTicker} {outcome : Except PyExc MomentumValue}
    (h : Sampled sampleSeconds toleranceSeconds market spacing retention
      (events ++ [.evaluated instrument ticker now outcome]) s)
    (hmarket : (instrument.category, instrument.symbol) = market)
    (hschedule : Schedule market gap (events ++ [.evaluated instrument ticker now outcome]))
    (hspacing : 0 ≤ spacing) (hretained : 3600 + tolerance ≤ retention)
    (htolerance : spacing + gap ≤ 2 * tolerance) (hhour : spacing + gap ≤ 3600)
    (hfirst : (evaluationTimes market
      (events ++ [.evaluated instrument ticker now outcome])).head? = some first)
    (hwarm : first + 3600 ≤ now) :
    ∃ row ∈ s.samples, row.market = market ∧ |row.timestamp - (now - 3600)| ≤ tolerance := by
  have hnow : now ∈ evaluationTimes market
      (events ++ [.evaluated instrument ticker now outcome]) := by
    simp [evaluationTimes, hmarket]
  have hgaps := hschedule.gaps
  have hcovered := h.covered
  have hstored := h.first first hfirst
  cases htimes : evaluationTimes market
      (events ++ [.evaluated instrument ticker now outcome]) with
  | nil =>
      rw [htimes] at hfirst
      cases hfirst
  | cons head rest =>
      rw [htimes] at hfirst hnow hgaps hcovered
      obtain rfl : head = first := by simpa using hfirst
      -- two evaluations are apart, so that the gap is positive
      obtain ⟨n, m, -, -, ⟨hlt, hgap⟩, -⟩ := @Sampling.exists_link_into _ _ (fun n => head < n) _ _
        hgaps (lt_irrefl _) ⟨now, hnow, by omega⟩
      obtain ⟨ts, hts, hclose⟩ := Sampling.exists_near hspacing htolerance hgaps hcovered hstored
        (show head ≤ now - 3600 by omega) ⟨now, hnow, by omega, by omega⟩
      -- no prune has reached the sample
      rcases hts with ⟨row, hrow, hrowMarket, rfl⟩ | ⟨p, hp, hpruned⟩
      · exact ⟨row, hrow, hrowMarket, hclose⟩
      · have := hschedule.prune_le hmarket hp
        have := abs_le.mp hclose
        omega

end

/-- After a warm-up of one hour, an evaluation has the status OK, and its change is the one from a
sample of the table that is within the tolerance of the point one hour before. The table may hold
what an earlier life of the application has left in it. The settings are integers; where the
tolerance is a `float` the times are below 2 ^ 53. -/
theorem anchored_after_warmup {sampleSeconds toleranceSeconds retentionSeconds : PyNumber}
    {spacing tolerance retention gap : ℤ} (hspacing : sampleSeconds.Denotes spacing)
    (hnonneg : 0 ≤ spacing) (htolerance : toleranceSeconds.Denotes tolerance)
    (hretention : retentionSeconds.Denotes retention) (hretained : 3600 + tolerance ≤ retention)
    (hnear : spacing + gap ≤ 2 * tolerance) (hhour : spacing + gap ≤ 3600)
    {a b c : PyNumber} {earlier : List SpotEvent} {s₀ s : SpotState}
    (hearlier : Trace (SpotStep a b c) (.start a b []) earlier s₀) {events : List SpotEvent}
    {instrument : Instrument} {ticker : NormalizedTicker} {now : ℤ}
    {outcome : Except PyExc MomentumValue} (hspot : instrument.category = "spot")
    (hrun : Trace (SpotStep sampleSeconds toleranceSeconds retentionSeconds)
      (.start sampleSeconds toleranceSeconds s₀.samples)
      (events ++ [.evaluated instrument ticker now outcome]) s)
    (hschedule : Schedule ("spot", instrument.symbol) gap
      (events ++ [.evaluated instrument ticker now outcome])) {first : ℤ}
    (hfirst : (evaluationTimes ("spot", instrument.symbol)
      (events ++ [.evaluated instrument ticker now outcome])).head? = some first)
    (hwarm : first + 3600 ≤ now)
    (hfloat : toleranceSeconds = .int tolerance ∨ |now - 3600| + |tolerance| < 2 ^ 53) :
    ∃ value row change, outcome = .ok value ∧ value.status = .ok ∧
      value.change1h = some change ∧ row ∈ s.samples ∧
      row.market = ("spot", instrument.symbol) ∧
      |row.timestamp - (now - 3600)| ≤ tolerance ∧
      MomentumEngine.spotChange ticker.lastPrice (some row.price) = .ok (some change) := by
  have hmarket : (instrument.category, instrument.symbol) = ("spot", instrument.symbol) := by
    rw [hspot]
  -- the prices of the table are positive in both lives
  have hleft : PricesPositive s₀.samples :=
    PricesPositive.of_run hearlier fun _ hrow => (by cases hrow)
  have hprices : PricesPositive s.samples := PricesPositive.of_run hrun hleft
  have hsampled := Sampled.of_run hspacing hretention hschedule hrun
  have hsample :=
    hsampled.exists_sample hmarket hschedule hnonneg hretained hnear hhour hfirst hwarm
  obtain ⟨hlo, hhi⟩ := htolerance.window hfloat
  obtain ⟨row, hrow, hrowMarket, hclose, hreference⟩ :=
    PriceSampleRepository.findReference_spec hlo hhi hsample
  obtain ⟨y, hy, hprice⟩ := hprices row hrow
  obtain ⟨s₁, -, hstep⟩ := hrun.of_snoc
  cases hstep with
  | evaluated =>
      obtain ⟨price, hsome, hpositive⟩ := hschedule.positive instrument ticker now _
        (List.mem_append_right _ (List.mem_singleton_self _)) hmarket
      rcases MomentumEngine.evaluate_cases s₁ instrument ticker now with
        ⟨-, hlinear | hnone⟩ | ⟨x, recorded, hx, hlast, -, houtcome⟩
      · rw [hspot] at hlinear
        exact absurd hlinear (by decide)
      · simp [hsome, hpositive] at hnone
      -- the anchor is the price of the sample
      obtain ⟨change, hchange⟩ := MomentumEngine.change_returns hx hy
      have hspotChange : MomentumEngine.spotChange ticker.lastPrice (some row.price) =
          .ok (some change) := by
        rw [hlast, hprice]
        exact hchange
      refine ⟨{ MomentumEngine.baseValue instrument ticker.toTicker with
        change1h := some change, status := .ok }, row, change, ?_, rfl, rfl, hrow, hrowMarket,
        hclose, hspotChange⟩
      rw [houtcome, SpotHistory.findAnchor, hsampled.toleranceSeconds_eq, hspot,
        SpotHistory.secondsPerHour, hreference]
      exact MomentumEngine.evaluateAnchor_ok hy hprice hspotChange

/-- A spot market. -/
def spotMarket : Instrument where
  category := "spot"
  symbol := "XUSDT"
  baseCoin := "X"

/-- A ticker of the market with this price. -/
def spotTicker (price : ℚ) : NormalizedTicker where
  category := "spot"
  symbol := "XUSDT"
  lastPrice := some (.finite price)
  converted := some (.finite price)
  normalized := rfl

/-- An evaluation of the market. -/
def spotEvaluation (s : SpotState) (price : ℚ) (now : ℤ) : Except PyExc MomentumValue × SpotState :=
  MomentumEngine.evaluate s spotMarket (spotTicker price).toTicker now

/-- A life with a sample a minute and a tolerance of half an hour. -/
def spotLife (samples : List PriceSample) : SpotState := .start (.int 60) (.int 1800) samples

/-- An earlier life has left two samples. -/
def earlierLife : SpotState := (spotEvaluation (spotEvaluation (spotLife []) 98 (-5000)).2 99 0).2

/-- In the second of the later one, the market is evaluated again. -/
def firstEvaluation : Except PyExc MomentumValue × SpotState :=
  spotEvaluation (spotLife earlierLife.samples) 100 0

/-- The samples after a prune half an hour later. -/
def prunedSamples : List PriceSample :=
  (PriceSampleRepository.cleanupOlderThan firstEvaluation.2.samples (1800 - 5400)).2

/-- Then the process starts again. -/
def secondEvaluation : Except PyExc MomentumValue × SpotState :=
  spotEvaluation (spotLife prunedSamples) 103 1800

/-- One hour after the first evaluation the price is 105. -/
def lastEvaluation : Except PyExc MomentumValue × SpotState :=
  spotEvaluation secondEvaluation.2 105 3600

/-- A first evaluation whose insert is ignored, a prune that deletes a sample, a restart and two
evaluations. -/
theorem second_evaluation_anchored :
    firstEvaluation.2.samples = earlierLife.samples ∧
      prunedSamples.length < firstEvaluation.2.samples.length ∧
      ∃ value row change, lastEvaluation.1 = .ok value ∧ value.status = .ok ∧
        value.change1h = some change ∧ row ∈ lastEvaluation.2.samples ∧
        row.market = ("spot", "XUSDT") ∧ |row.timestamp - (3600 - 3600)| ≤ 1800 ∧
        MomentumEngine.spotChange (some (.finite 105)) (some row.price) = .ok (some change) := by
  have hearlier := (Trace.nil.snoc (SpotStep.evaluated spotMarket (spotTicker 98) (-5000))).snoc
    (@SpotStep.evaluated (.int 60) (.int 1800) (.int 5400)
      (spotEvaluation (spotLife []) 98 (-5000)).2 spotMarket (spotTicker 99) 0)
  have hrun := ((((Trace.nil.snoc (@SpotStep.evaluated (.int 60) (.int 1800) (.int 5400)
    (spotLife earlierLife.samples) spotMarket (spotTicker 100) 0)).snoc
    (.pruned (rfl : SpotHistory.prune firstEvaluation.2.samples 1800 (.int 5400) = _))).snoc
    .restarted).snoc (.evaluated spotMarket (spotTicker 103) 1800)).snoc
    (.evaluated spotMarket (spotTicker 105) 3600)
  refine ⟨by decide +kernel, by decide +kernel, ?_⟩
  refine anchored_after_warmup (Or.inl rfl) (by norm_num) (Or.inl rfl) (Or.inl rfl) (by norm_num)
    (show (60 : ℤ) + 1800 ≤ 2 * 1800 by norm_num) (by norm_num) hearlier rfl hrun
    ⟨by simp [evaluationTimes, spotMarket], ?_, by simp [evaluationTimes, spotMarket]⟩
    (show _ = some 0 by simp [evaluationTimes, spotMarket]) (by norm_num) (Or.inl rfl)
  intro instrument ticker now outcome hmem _
  simp only [List.nil_append, List.cons_append, List.mem_cons, SpotEvent.evaluated.injEq,
    List.not_mem_nil, or_false, reduceCtorEq, false_or] at hmem
  obtain ⟨-, rfl, -⟩ | ⟨-, rfl, -⟩ | ⟨-, rfl, -⟩ := hmem
  · exact ⟨_, rfl, by decide +kernel⟩
  · exact ⟨_, rfl, by decide +kernel⟩
  · exact ⟨_, rfl, by decide +kernel⟩

end BybitMonitor
