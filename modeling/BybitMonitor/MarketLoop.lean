import Mathlib
import BybitMonitor.Alerts.Atomicity
import BybitMonitor.Market.Evaluator

/-!
# The market loop

`Application._market_loop`: a round evaluates all markets, aggregates their changes, lets the alert
service decide on the qualifying coins and prunes the samples. What a round raises is logged. Every
database operation of a round may raise, and a restart may change the settings.

* `MarketState.round_service`: what a round does to the alert service.
* `alerts_announce_qualifying`: what an alert in the outbox says about the markets.
-/

namespace BybitMonitor

open MomentumEvaluator (evaluateAllWith)

/-- What one round reads: the prices, the instruments of the registry by their keys, the clocks of
its steps, and the faults that its database operations meet. -/
structure Round where
  prices : TickerStore
  instruments : List Instrument
  nodup : (instruments.map Instrument.identity).Nodup
  evaluatedAt : ℤ
  processedAt : ℤ
  createdAt : ℤ := processedAt
  prunedAt : ℤ := processedAt
  evaluationFaults : EvaluationFaults := {}
  faults : Faults := {}
  pruneFault : Option PyExc := none

/-- The call of the alert service on the values of a round. -/
def Round.call (self : Round) (config : Settings) (values : List MomentumValue) : Call where
  qualifying := aggregateQualifying values config.alertThresholdPercent
  now := self.processedAt
  createdAt := self.createdAt
  faults := self.faults

/-- The samples, the alert service with its tables, and the count that health reports. -/
structure MarketState where
  spot : SpotState
  service : ServiceState
  qualifyingCount : ℕ := 0

namespace MarketState

/-- The momentum engine of a fresh process, with the samples of the table. -/
def freshSpot (config : Settings) (samples : List PriceSample) : SpotState :=
  SpotState.start (.float config.spotSampleSeconds) (.float config.spotAnchorToleranceSeconds)
    samples

/-- The start on an empty database. -/
def start (config : AdmittedSettings) : MarketState where
  spot := freshSpot config.toSettings []
  service := ServiceState.start config

/-- The settings of the process. -/
def config (self : MarketState) : AdmittedSettings := self.service.service.config

/-- The values of a round, with the samples that it leaves. -/
def evaluate (self : MarketState) (input : Round) : Except PyExc (List MomentumValue) × SpotState :=
  evaluateAllWith input.evaluationFaults self.config.toSettings input.prices input.instruments
    input.evaluatedAt self.spot

/-- The rest of a round, after the alert service has replied. -/
def finish (self : MarketState) (input : Round) : Reply → MarketState
  | .processed (.ok decision) _ =>
      let counted := { self with qualifyingCount := decision.qualifyingCount }
      match SpotHistory.prune self.spot.samples input.prunedAt
        (.float self.config.spotHistoryRetentionSeconds), input.pruneFault with
      | .ok (_, samples), none => { counted with spot := { self.spot with samples } }
      | _, _ => counted
  | _ => self

/-- One round of `_market_loop`. -/
def round (self : MarketState) (input : Round) : MarketState :=
  match self.evaluate input with
  | (.error _, spot) => { self with spot }
  | (.ok values, spot) =>
      let served := self.service.serve (.process (input.call self.config.toSettings values))
      MarketState.finish { self with spot, service := served.2 } input served.1

end MarketState

/-- What happens to the loop: a round, a listing notification of another task, or a restart with
other settings. -/
inductive MarketEvent
  | round (input : Round)
  | enqueued (notice : ListingNotice)
  | restarted (config : AdmittedSettings)

/-- The state after an event. -/
def MarketState.after (self : MarketState) : MarketEvent → MarketState
  | .round input => self.round input
  | .enqueued notice => { self with service := (self.service.serve (.enqueue notice)).2 }
  | .restarted config =>
      { spot := freshSpot config.toSettings self.spot.samples
        service := (self.service.serve (.restart config)).2 }

/-- A run of the loop from an empty database. -/
def MarketRun (config : AdmittedSettings) (events : List MarketEvent) (s : MarketState) : Prop :=
  Trace (fun s event s' => MarketState.after s event = s') (MarketState.start config) events s

/-! ## Rounds -/

namespace MarketState

variable {self : MarketState} {input : Round} {s : MarketState}

@[simp]
theorem finish_service (self : MarketState) (input : Round) (reply : Reply) :
    (self.finish input reply).service = self.service := by
  unfold finish
  split
  · dsimp only
    split <;> rfl
  · rfl

/-- A round calls the alert service on the aggregate of its values, if the evaluation returns. -/
theorem round_service (self : MarketState) (input : Round) :
    (∃ exc, (self.evaluate input).1 = .error exc ∧ (self.round input).service = self.service) ∨
      ∃ values, (self.evaluate input).1 = .ok values ∧
        (self.round input).service =
          (self.service.serve (.process (input.call self.config.toSettings values))).2 := by
  rw [round]
  cases hrun : self.evaluate input with
  | mk outcome spot =>
      cases outcome with
      | error exc => exact Or.inl ⟨exc, rfl, rfl⟩
      | ok values => exact Or.inr ⟨values, rfl, finish_service _ _ _⟩

end MarketState

/-! ## Runs -/

/-- Every event keeps what the alert service and its tables keep. -/
theorem ServiceInvariant.after {s : MarketState} {event : MarketEvent}
    (h : ServiceInvariant s.service) : ServiceInvariant (s.after event).service := by
  have hserve (request : Request) : ServiceInvariant (s.service.serve request).2 :=
    h.step (show ServiceStep s.service (request, (s.service.serve request).1) _ from rfl)
  cases event with
  | round input =>
      rcases s.round_service input with ⟨exc, -, hservice⟩ | ⟨values, -, hservice⟩
      · exact hservice ▸ h
      · exact hservice ▸ hserve _
  | enqueued notice => exact hserve _
  | restarted config => exact hserve _

theorem MarketRun.service {config : AdmittedSettings} {events : List MarketEvent}
    {s : MarketState} (h : MarketRun config events s) : ServiceInvariant s.service := by
  induction h with
  | nil => exact ServiceInvariant.start config
  | snoc prior hstep ih => exact hstep ▸ ih.after

/-- The alert of a kind that a round at the state `before` has written as `row`: it is about the
coins, between the least and the greatest number, that have a supported market whose change is
above the threshold, by the settings of the process. -/
structure Announces (before : MarketState) (input : Round) (kind : AlertKind)
    (qualifying : QualifyingSet) (row : OutgoingNotification) : Prop where
  coins (coin : String) : coin ∈ qualifying.baseCoins ↔
    Qualifies before.config.toSettings input.prices input.instruments input.evaluatedAt before.spot
      coin
  increasing : qualifying.baseCoins.Pairwise (· < ·)
  inRange : before.config.inRange qualifying = true
  message :
    formatAlert qualifying before.config.toSettings input.processedAt kind = .ok row.message
  key : row.dedupeKey =
    some (alertKey before.config kind qualifying.fingerprint input.processedAt)

/-- A row of the outbox after a step was there, is the alert of a call, or a listing. -/
theorem ServiceMove.row_cases {s s' : ServiceState} {event : ServiceEvent}
    (h : ServiceMove s event s') {row : OutgoingNotification} (hrow : row ∈ s'.tables.outgoing) :
    row ∈ s.tables.outgoing ∨
      (∃ call decision state alert, event.1 = .process call ∧
        s.service.plan call s.tables.alertState = .ok (decision, state, some alert) ∧
        row = s.tables.newRow alert.kind.tag alert.message call.createdAt (some alert.key)
          none none) ∨
      row.messageTag = "listing" := by
  cases h with
  | restarted => exact Or.inl hrow
  | unplanned => exact Or.inl hrow
  | rolledBack => exact Or.inl hrow
  | suppressed => exact Or.inl hrow
  | @committed call decision state alert tables' fed hplan hcommits =>
      rw [ServiceState.withTables_tables, hcommits.outgoing_eq, List.mem_append] at hrow
      refine hrow.imp_right fun hnew => Or.inl ?_
      obtain ⟨alert, halert, rfl⟩ := List.mem_map.mp hnew
      obtain rfl := Option.mem_toList.mp halert
      exact ⟨call, decision, state, alert, rfl, hplan, rfl⟩
  | notEnqueued => exact Or.inl hrow
  | enqueued =>
      rw [ServiceState.withTables_tables, Tables.addRow, List.mem_append] at hrow
      refine hrow.imp_right fun hnew => Or.inr ?_
      rw [List.mem_singleton.mp hnew]
      rfl

theorem pairwise_baseCoins {values : List MomentumValue} {threshold : PyFloat} :
    (aggregateQualifying values threshold).baseCoins.Pairwise (· < ·) := by
  rw [QualifyingSet.baseCoins, List.pairwise_map]
  exact pairwise_baseCoin

/-- The message of a call that commits is about coins in the range. -/
theorem alert_spec {service : AlertService} {call : Call} {stored : Option AlertState}
    {decision : AlertDecision} {state : AlertState} {alert : OutgoingAlert}
    (hrow : (AlertStateRepository.load stored).WellFormed)
    (h : service.plan call stored = .ok (decision, state, some alert)) :
    service.config.inRange call.qualifying = true ∧
      formatAlert call.qualifying service.config.toSettings call.now alert.kind =
        .ok alert.message ∧
      alert.key = alertKey service.config alert.kind call.qualifying.fingerprint call.now := by
  have hplanned := AlertService.planned_of_plan hrow h
  obtain ⟨-, hbuilt⟩ := AlertService.parts_of_plan h
  have hkind : decision.kind = some alert.kind := hplanned.kind_eq.symm
  refine ⟨?_, ?_, hplanned.key_eq alert rfl⟩
  · -- outside of the range a cycle emits nothing
    by_contra hout
    obtain ⟨hlive, hcomposition, hhourly⟩ :=
      hplanned.spec.silent_of_not_inRange (Bool.eq_false_iff.mpr hout)
    simp [AlertDecision.kind, hlive, hcomposition, hhourly] at hkind
  · rw [outgoingAlert, hkind] at hbuilt
    obtain ⟨message, hmessage, hbuilt⟩ := PyExc.bind_eq_ok.mp hbuilt
    obtain ⟨key, -, hbuilt⟩ := PyExc.bind_eq_ok.mp hbuilt
    have htext : message = alert.message :=
      congrArg OutgoingAlert.message (Option.some.inj (Except.ok.inj hbuilt))
    exact htext ▸ hmessage

/-- **An alert announces the coins that qualify.** In every run of the market loop, whatever the
feeds deliver, whatever database operations raise, and however often the process starts with
whatever settings, every alert in the outbox was written by a round of the loop, and it names, in
increasing order, the coins that had a supported market above the threshold in that round, which
are neither too few nor too many. -/
theorem alerts_announce_qualifying (config : AdmittedSettings) {events : List MarketEvent}
    {s : MarketState} (hrun : MarketRun config events s) :
    ∀ row ∈ s.service.tables.outgoing, ∀ kind : AlertKind, row.messageTag = kind.tag →
      ∃ earlier input later before qualifying, events = earlier ++ .round input :: later ∧
        MarketRun config earlier before ∧ Announces before input kind qualifying row := by
  induction hrun with
  | nil =>
      intro row hrow
      cases hrow
  | @snoc events s event s' prior hstep ih =>
      have hs := MarketRun.service prior
      -- a row that was there was written by the same round
      have hkept : ∀ row ∈ s.service.tables.outgoing, ∀ kind : AlertKind,
          row.messageTag = kind.tag →
          ∃ earlier input later before qualifying,
            events ++ [event] = earlier ++ .round input :: later ∧
            MarketRun config earlier before ∧ Announces before input kind qualifying row := by
        intro row hrow kind htag
        obtain ⟨earlier, input, later, before, qualifying, rfl, hbefore, hannounces⟩ :=
          ih row hrow kind htag
        exact ⟨earlier, input, later ++ [event], before, qualifying, by simp, hbefore, hannounces⟩
      subst hstep
      cases event with
      | enqueued notice =>
          intro row hrow kind htag
          have hmove := ServiceStep.move hs
            (show ServiceStep s.service (.enqueue notice, _) _ from rfl)
          rcases hmove.row_cases hrow with hrow | ⟨call, _, _, _, hcall, -⟩ | hlisting
          · exact hkept row hrow kind htag
          · cases hcall
          · cases kind <;> simp [AlertKind.tag, hlisting] at htag
      | restarted config' => exact hkept
      | round input =>
          intro row hrow kind htag
          change row ∈ (s.round input).service.tables.outgoing at hrow
          rcases s.round_service input with ⟨exc, -, hservice⟩ | ⟨values, hvalues, hservice⟩
          · rw [hservice] at hrow
            exact hkept row hrow kind htag
          · rw [hservice] at hrow
            have hmove := ServiceStep.move hs (show ServiceStep s.service
              (.process (input.call s.config.toSettings values), _) _ from rfl)
            rcases hmove.row_cases hrow with
              hrow | ⟨call, _, _, alert, hcall, hplan, hnew⟩ | hlisting
            · exact hkept row hrow kind htag
            · -- the row is the alert of this round
              obtain rfl : input.call s.config.toSettings values = call := Request.process.inj hcall
              obtain ⟨hinRange, hmessage, hkey⟩ := alert_spec hs.wellFormed hplan
              obtain rfl : alert.kind = kind := by
                rw [hnew] at htag
                exact AlertKind.tag_injective htag
              refine ⟨events, input, [], s, _, rfl, prior, ?_, pairwise_baseCoins, hinRange, ?_, ?_⟩
              · have hreturns := MomentumEvaluator.evaluateAllWith_ok (Prod.ext hvalues rfl)
                exact mem_baseCoins_evaluateAll input.nodup (congrArg Prod.fst hreturns)
              · rw [hnew]
                exact hmessage
              · rw [hnew]
                exact congrArg some hkey
            · cases kind <;> simp [AlertKind.tag, hlisting] at htag

/-- Alerts of transitions only, without a debounce. -/
def promptSettings : AdmittedSettings where
  toSettings := { alertDebounceSeconds := 0, hourlyActiveAlerts := false }
  admitted := by decide +kernel

/-- The same with a higher threshold. -/
def steepSettings : AdmittedSettings where
  toSettings :=
    { alertDebounceSeconds := 0, hourlyActiveAlerts := false, alertThresholdPercent := 10 }
  admitted := by decide +kernel

/-- A round in which the linear market of `twoMarkets` has risen, and the spot market is new. -/
def risingRound (now : ℤ) : Round where
  prices := twoPrices
  instruments := twoMarkets
  nodup := by decide
  evaluatedAt := now
  processedAt := now + 1

/-- A round below the threshold, one whose registry cannot be loaded, a restart with a lower
threshold, and a round whose prune fails. -/
def risingEvents : List MarketEvent :=
  [.round (risingRound 5000),
   .round { risingRound 5060 with evaluationFaults := { load := some .databaseError } },
   .restarted promptSettings,
   .round { risingRound 5120 with pruneFault := some .databaseError }]

/-- The alert of the last round announces the one coin with an anchor. -/
theorem alerts_announce_qualifying_rising :
    ∃ s, MarketRun steepSettings risingEvents s ∧
      s.service.tables.outgoing.map OutgoingNotification.dedupeKey =
        [some "transition:5121:ETH"] ∧
      ∀ row ∈ s.service.tables.outgoing, row.messageTag = "transition" →
        ∃ earlier input later before qualifying,
          risingEvents = earlier ++ .round input :: later ∧
          MarketRun steepSettings earlier before ∧
          Announces before input .transition qualifying row := by
  have hrun : MarketRun steepSettings risingEvents
      (risingEvents.foldl MarketState.after (MarketState.start steepSettings)) :=
    (((Trace.nil.snoc rfl).snoc rfl).snoc rfl).snoc rfl
  refine ⟨_, hrun, by decide +kernel, fun row hrow htag => ?_⟩
  exact alerts_announce_qualifying steepSettings hrun row hrow .transition htag

end BybitMonitor
