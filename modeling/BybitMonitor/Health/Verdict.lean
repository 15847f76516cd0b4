import Mathlib
import BybitMonitor.Health.Monitor
import BybitMonitor.ToMathlib.Trace

/-!
# The verdict of the health monitor

What a report says about the subsystems that it was taken from.

* `HealthMonitor.snapshot_healthy_iff`: a snapshot that returns is healthy exactly if every check of
  the classification passes.
* `healthy_sound_iff`: a healthy report is right about the connections in every run without a
  snapshot in which an enabled stream has lost its connection and nothing else is wrong.
-/

namespace BybitMonitor

/-! ## What a healthy report depends on -/

/-- A stream has a ticker that is at most `ws_stale_seconds` old. -/
def TickerFresh (config : AdmittedSettings) (now : ℤ) (stream : Option ClientReading) : Prop :=
  ∃ client last, stream = some client ∧ client.lastTickerAt = some last ∧
    ((max 0 (now - (PyFloat.finite last).truncated) : ℤ) : ℚ) ≤ config.staleAfter

/-- A stream is connected. -/
def StreamConnected (stream : Option ClientReading) : Prop :=
  ∃ client, stream = some client ∧ client.connected = true

/-- Every check of the classification passes. -/
structure ChecksPass (config : AdmittedSettings) (readings : HealthReadings) : Prop where
  database : readings.database = some (.ok (some 1))
  dispatcher : ∀ dispatcher, readings.dispatcher = some dispatcher →
    dispatcher.workerHealthy = true ∧ dispatcher.depth = .ok 0
  discovery : ∃ last, readings.discovery = some (some last) ∧
    (PyFloat.finite (max 0 (readings.now - last) : ℤ)).le
      (config.instrumentRefreshSeconds.mulPos 3) = true
  telegram : ∃ telegram, readings.telegram = some telegram ∧ telegram.healthy = true
  spot : config.spotStreamEnabled = true →
    TickerFresh config readings.now (readings.wsManager.bind WsManagerReading.spot)
  linear : config.linearStreamEnabled = true →
    TickerFresh config readings.now (readings.wsManager.bind WsManagerReading.linear)

/-- Every enabled stream is connected. -/
def StreamsConnected (config : AdmittedSettings) (readings : HealthReadings) : Prop :=
  (config.spotStreamEnabled = true →
      StreamConnected (readings.wsManager.bind WsManagerReading.spot)) ∧
    (config.linearStreamEnabled = true →
      StreamConnected (readings.wsManager.bind WsManagerReading.linear))

/-- Every operation that the snapshot awaits returns, or raises what the snapshot catches. -/
structure Answered (readings : HealthReadings) : Prop where
  database : ∀ exc, readings.database = some (.error exc) → exc.isException = true
  dispatcher : ∀ dispatcher, readings.dispatcher = some dispatcher →
    (∃ depth, dispatcher.depth = .ok depth) ∧
      ∀ exc, dispatcher.countDead = .error exc → exc.isException = true
  registry : ∀ exc, readings.registry ≠ some (.error exc)

namespace HealthState

variable {config : AdmittedSettings} {readings : HealthReadings} {self state : HealthState}

/-! ### The operations that are awaited -/

theorem collectDatabase_ok_iff {database : Option (Except PyExc (Option ℤ))} :
    PyExc.Returns (self.collectDatabase database) ↔
      ∀ exc, database = some (.error exc) → exc.isException = true := by
  cases database with
  | none => simp [collectDatabase, PyExc.Returns]
  | some outcome =>
      cases outcome with
      | ok one => simp [collectDatabase, PyExc.Returns]
      -- a `CancelledError` is not caught by `except Exception`
      | error exc => cases hexc : exc.isException <;> simp [collectDatabase, PyExc.Returns, hexc]

theorem collectDatabase_spec {database : Option (Except PyExc (Option ℤ))}
    (hself : self.databaseHealthy = false) (h : self.collectDatabase database = .ok state) :
    ∃ healthy notes, state = { self with databaseHealthy := healthy, notes := notes } ∧
      (healthy = true ↔ database = some (.ok (some 1))) := by
  cases database with
  | none =>
      cases h
      exact ⟨self.databaseHealthy, self.notes, rfl, by simp [hself]⟩
  | some outcome =>
      cases outcome with
      | ok one =>
          cases h
          exact ⟨_, _, rfl, by simp⟩
      | error exc =>
          rw [collectDatabase] at h
          split at h
          · cases h
            exact ⟨_, _, rfl, by simp⟩
          · cases h

theorem collectDispatcher_ok_iff {dispatcher : Option DispatcherReading} :
    PyExc.Returns (self.collectDispatcher dispatcher) ↔
      ∀ reading, dispatcher = some reading →
        (∃ depth, reading.depth = .ok depth) ∧
          ∀ exc, reading.countDead = .error exc → exc.isException = true := by
  cases dispatcher with
  | none => simp [collectDispatcher, PyExc.Returns]
  | some reading =>
      -- the depth is not guarded, the count of the dead rows is
      simp only [Option.some.injEq, forall_eq', collectDispatcher, PyExc.Returns,
        PyExc.bind_eq_ok]
      cases reading.depth with
      | error exc => simp
      | ok depth =>
          cases reading.countDead with
          | ok dead => simp [deadCount, pure, Except.pure]
          | error exc => cases hexc : exc.isException <;> simp [deadCount, pure, Except.pure, hexc]

theorem collectDispatcher_spec {dispatcher : Option DispatcherReading}
    (hhealthy : self.dispatcherHealthy = true) (hdepth : self.telegramQueueDepth = 0)
    (h : self.collectDispatcher dispatcher = .ok state) :
    ∃ healthy depth dead notes, state = { self with
        dispatcherHealthy := healthy
        telegramQueueDepth := depth
        telegramDeadCount := dead
        notes := notes } ∧
      (healthy = true ↔ ∀ reading, dispatcher = some reading → reading.workerHealthy = true) ∧
      (depth = 0 ↔ ∀ reading, dispatcher = some reading → reading.depth = .ok 0) := by
  cases dispatcher with
  | none =>
      cases h
      exact ⟨self.dispatcherHealthy, self.telegramQueueDepth, self.telegramDeadCount, self.notes,
        rfl, by simp [hhealthy], by simp [hdepth]⟩
  | some reading =>
      simp only [collectDispatcher, PyExc.bind_eq_ok] at h
      obtain ⟨depth, hread, dead, -, hstate⟩ := h
      cases hstate
      exact ⟨_, _, _, _, rfl, by simp [note], by simp [hread, note]⟩

theorem collectCounts_ok_iff {registry : Option (Except PyExc (List Instrument))} :
    PyExc.Returns (self.collectCounts registry) ↔ ∀ exc, registry ≠ some (.error exc) := by
  cases registry with
  | none => simp [collectCounts, PyExc.Returns]
  | some outcome => cases outcome <;> simp [collectCounts, PyExc.Returns]

theorem collectCounts_spec {registry : Option (Except PyExc (List Instrument))}
    (h : self.collectCounts registry = .ok state) :
    ∃ spot usdt usdc, state = { self with
      spotInstrumentCount := spot
      linearUsdtCount := usdt
      linearUsdcCount := usdc } := by
  cases registry with
  | none =>
      cases h
      exact ⟨_, _, _, rfl⟩
  | some outcome =>
      cases outcome with
      | error exc => cases h
      | ok instruments =>
          cases h
          exact ⟨_, _, _, rfl⟩

/-- The collection returns exactly if what it awaits does. -/
theorem collectSubstates_ok_iff :
    PyExc.Returns (collectSubstates config.toSettings readings) ↔ Answered readings := by
  simp only [PyExc.Returns, collectSubstates, PyExc.bind_eq_ok]
  constructor
  · rintro ⟨state, state₁, hdatabase, state₂, hdispatcher, hcounts⟩
    exact ⟨collectDatabase_ok_iff.mp ⟨_, hdatabase⟩, collectDispatcher_ok_iff.mp ⟨_, hdispatcher⟩,
      collectCounts_ok_iff.mp ⟨_, hcounts⟩⟩
  · intro h
    obtain ⟨state₁, hdatabase⟩ := collectDatabase_ok_iff.mpr h.database
    obtain ⟨state₂, hdispatcher⟩ := collectDispatcher_ok_iff.mpr h.dispatcher
    obtain ⟨state, hcounts⟩ := collectCounts_ok_iff.mpr h.registry
    exact ⟨state, state₁, hdatabase, state₂, hdispatcher, hcounts⟩

/-! ### What is collected -/

theorem collectDiscovery_spec (config : Settings) {now : ℤ} {discovery : Option (Option ℤ)}
    (hself : self.restHealthy = false) :
    ∃ healthy lastAge notes, self.collectDiscovery config now discovery = { self with
        restHealthy := healthy
        lastDiscoveryAge := lastAge
        notes := notes } ∧
      (healthy = true ↔ ∃ last, discovery = some (some last) ∧
        (config.instrumentRefreshSeconds.mulPos 3).lt
          (PyFloat.finite (max 0 (now - last) : ℤ)) = false) := by
  cases discovery with
  | none => exact ⟨_, _, _, rfl, by simp [hself]⟩
  | some lastSuccess =>
      refine ⟨_, _, _, rfl, ?_⟩
      cases lastSuccess with
      | none => simp
      | some last =>
          -- a discovery time is an integer, so its age is not rounded
          have hage : age now (some (last : ℚ)) = some (max 0 (now - last)) := by
            simp [age, PyFloat.truncated]
          simp [hage]

theorem collectSpot_spec {now : ℤ} {spot : Option ClientReading}
    (hself : self.lastSpotTickerAge = none) :
    ∃ connected notes, self.collectSpot now spot = { self with
      spotWsConnected := connected
      lastSpotTickerAge := spot.bind fun client => age now client.lastTickerAt
      notes := notes } := by
  cases spot with
  | none => exact ⟨self.spotWsConnected, self.notes, by simp [collectSpot, ← hself]⟩
  | some client => exact ⟨_, _, rfl⟩

theorem collectLinear_spec {now : ℤ} {linear : Option ClientReading}
    (hself : self.lastLinearTickerAge = none) :
    ∃ connected notes, self.collectLinear now linear = { self with
      linearWsConnected := connected
      lastLinearTickerAge := linear.bind fun client => age now client.lastTickerAt
      notes := notes } := by
  cases linear with
  | none => exact ⟨self.linearWsConnected, self.notes, by simp [collectLinear, ← hself]⟩
  | some client => exact ⟨_, _, rfl⟩

theorem collectTelegram_spec {now : ℤ} {telegram : Option TelegramReading}
    (hself : self.telegramHealthy = false) :
    ∃ healthy errorType errorAge notes, self.collectTelegram now telegram = { self with
        telegramHealthy := healthy
        telegramLastErrorType := errorType
        telegramLastErrorAge := errorAge
        notes := notes } ∧
      (healthy = true ↔ ∃ reading, telegram = some reading ∧ reading.healthy = true) := by
  cases telegram with
  | none => exact ⟨_, _, _, _, rfl, by simp [hself]⟩
  | some reading => exact ⟨_, _, _, _, rfl, by simp⟩

/-- What a snapshot has collected, check by check. -/
structure Gathered (config : Settings) (readings : HealthReadings) (state : HealthState) :
    Prop where
  database : state.databaseHealthy = true ↔ readings.database = some (.ok (some 1))
  worker : state.dispatcherHealthy = true ↔
    ∀ dispatcher, readings.dispatcher = some dispatcher → dispatcher.workerHealthy = true
  depth : state.telegramQueueDepth = 0 ↔
    ∀ dispatcher, readings.dispatcher = some dispatcher → dispatcher.depth = .ok 0
  discovery : state.restHealthy = true ↔ ∃ last, readings.discovery = some (some last) ∧
    (config.instrumentRefreshSeconds.mulPos 3).lt
      (PyFloat.finite (max 0 (readings.now - last) : ℤ)) = false
  telegram : state.telegramHealthy = true ↔
    ∃ telegram, readings.telegram = some telegram ∧ telegram.healthy = true
  spot : state.lastSpotTickerAge =
    (readings.wsManager.bind WsManagerReading.spot).bind fun client =>
      age readings.now client.lastTickerAt
  linear : state.lastLinearTickerAge =
    (readings.wsManager.bind WsManagerReading.linear).bind fun client =>
      age readings.now client.lastTickerAt

theorem collectSubstates_gathered {config : Settings}
    (h : collectSubstates config readings = .ok state) : Gathered config readings state := by
  simp only [collectSubstates, PyExc.bind_eq_ok] at h
  obtain ⟨state₁, hdatabase, state₂, hdispatcher, hcounts⟩ := h
  obtain ⟨_, _, h₁, hone⟩ := collectDatabase_spec rfl hdatabase
  -- each part writes its own fields only
  obtain ⟨_, _, _, h₂, hrest⟩ := @collectDiscovery_spec state₁ config readings.now
    readings.discovery (by rw [h₁])
  generalize state₁.collectDiscovery _ _ _ = state₂ at h₂ hdispatcher
  obtain ⟨_, _, h₃⟩ := @collectSpot_spec state₂ readings.now
    (readings.wsManager.bind WsManagerReading.spot) (by rw [h₂, h₁])
  generalize state₂.collectSpot _ _ = state₃ at h₃ hdispatcher
  obtain ⟨_, _, h₄⟩ := @collectLinear_spec state₃ readings.now
    (readings.wsManager.bind WsManagerReading.linear) (by rw [h₃, h₂, h₁])
  generalize state₃.collectLinear _ _ = state₄ at h₄ hdispatcher
  obtain ⟨_, _, _, _, h₅, hhealthy⟩ := @collectTelegram_spec state₄ readings.now
    readings.telegram (by rw [h₄, h₃, h₂, h₁])
  generalize state₄.collectTelegram _ _ = state₅ at h₅ hdispatcher
  obtain ⟨_, _, _, _, h₆, hworker, hdepth⟩ := collectDispatcher_spec (by rw [h₅, h₄, h₃, h₂, h₁])
    (by rw [h₅, h₄, h₃, h₂, h₁]) hdispatcher
  obtain ⟨_, _, _, h₇⟩ := collectCounts_spec hcounts
  subst h₁ h₂ h₃ h₄ h₅ h₆ h₇
  exact ⟨hone, hworker, hdepth, hrest, hhealthy, rfl, rfl⟩

/-- What the snapshot has collected decides the checks. -/
structure Collected (config : AdmittedSettings) (readings : HealthReadings) (state : HealthState) :
    Prop where
  database : state.databaseHealthy = true ↔ readings.database = some (.ok (some 1))
  dispatcher : state.dispatcherHealthy = true ∧ state.telegramQueueDepth = 0 ↔
    ∀ dispatcher, readings.dispatcher = some dispatcher →
      dispatcher.workerHealthy = true ∧ dispatcher.depth = .ok 0
  discovery : state.restHealthy = true ↔ ∃ last, readings.discovery = some (some last) ∧
    (PyFloat.finite (max 0 (readings.now - last) : ℤ)).le
      (config.instrumentRefreshSeconds.mulPos 3) = true
  telegram : state.telegramHealthy = true ↔
    ∃ telegram, readings.telegram = some telegram ∧ telegram.healthy = true
  spot : state.lastSpotTickerAge =
    (readings.wsManager.bind WsManagerReading.spot).bind fun client =>
      age readings.now client.lastTickerAt
  linear : state.lastLinearTickerAge =
    (readings.wsManager.bind WsManagerReading.linear).bind fun client =>
      age readings.now client.lastTickerAt

theorem collectSubstates_spec (h : collectSubstates config.toSettings readings = .ok state) :
    Collected config readings state where
  database := (collectSubstates_gathered h).database
  dispatcher := by
    rw [(collectSubstates_gathered h).worker, (collectSubstates_gathered h).depth]
    exact forall₂_and.symm
  discovery := by
    rw [(collectSubstates_gathered h).discovery]
    simp [PyFloat.le_eq_not_lt, config.refresh_mul_ne_nan]
  telegram := (collectSubstates_gathered h).telegram
  spot := (collectSubstates_gathered h).spot
  linear := (collectSubstates_gathered h).linear

end HealthState

/-! ## The verdict -/

namespace HealthMonitor

variable {config : AdmittedSettings} {self monitor : HealthMonitor} {state : HealthState}
  {readings : HealthReadings}

/-- A stream is not bad if it is disabled or its last ticker is fresh. -/
theorem wsBad_spec (config : AdmittedSettings) (enabled : Bool) (now : ℤ)
    (stream : Option ClientReading) :
    ∃ bad, wsBad config.toSettings enabled (stream.bind fun client => age now client.lastTickerAt) =
        .ok bad ∧
      (bad = false ↔ (enabled = true → TickerFresh config now stream)) := by
  cases enabled with
  | false => exact ⟨false, rfl, by simp⟩
  | true =>
      cases stream with
      | none => exact ⟨true, rfl, by simp [TickerFresh]⟩
      | some client =>
          cases hlast : client.lastTickerAt with
          | none =>
              exact ⟨true, by rw [Option.bind_some, hlast]; rfl, by simp [TickerFresh, hlast]⟩
          | some last =>
              -- the age is compared with the truncated setting
              obtain ⟨stale, hstale, hle⟩ := config.staleAfter_toInt
              refine ⟨!decide (max 0 (now - (PyFloat.finite last).truncated) ≤ stale), ?_, ?_⟩
              · rw [Option.bind_some, hlast, wsBad, if_pos rfl]
                simp only [age, Option.map_some, wsAcceptable, hstale]
                rfl
              · rw [Bool.not_eq_false', decide_eq_true_eq, hle]
                constructor
                · exact fun hfresh _ => ⟨client, last, rfl, hlast, hfresh⟩
                · intro h
                  obtain ⟨_, last', hclient, hlast', hfresh⟩ := h rfl
                  cases hclient
                  rw [hlast] at hlast'
                  cases hlast'
                  exact hfresh

/-- The classification finds nothing wrong exactly if every check passes. -/
theorem critical_spec (hcollected : HealthState.Collected config readings state) :
    ∃ bad, critical config.toSettings state = .ok bad ∧ (bad = [] → state.databaseHealthy = true) ∧
      (bad = [] ∧ degraded state = [] ↔ ChecksPass config readings) := by
  obtain ⟨spotBad, hspot, hspotFresh⟩ := wsBad_spec config config.spotStreamEnabled readings.now
    (readings.wsManager.bind WsManagerReading.spot)
  obtain ⟨linearBad, hlinear, hlinearFresh⟩ := wsBad_spec config config.linearStreamEnabled
    readings.now (readings.wsManager.bind WsManagerReading.linear)
  refine ⟨criticalIssues state spotBad linearBad, ?_, ?_, ?_⟩
  · rw [critical, hcollected.spot, hcollected.linear, hspot, hlinear]
    rfl
  · intro hnone
    -- a database that is down is a critical issue itself
    by_contra hdatabase
    simp [criticalIssues, hdatabase] at hnone
  · have hempty : criticalIssues state spotBad linearBad = [] ∧ degraded state = [] ↔
        state.databaseHealthy = true ∧
          (state.dispatcherHealthy = true ∧ state.telegramQueueDepth = 0) ∧
          state.restHealthy = true ∧ state.telegramHealthy = true ∧
          spotBad = false ∧ linearBad = false := by
      simp [criticalIssues, degraded]
      tauto
    rw [hempty, hcollected.database, hcollected.dispatcher, hcollected.discovery,
      hcollected.telegram, hspotFresh, hlinearFresh]
    exact ⟨fun ⟨h₁, h₂, h₃, h₄, h₅, h₆⟩ => ⟨h₁, h₂, h₃, h₄, h₅, h₆⟩,
      fun h => ⟨h.database, h.dispatcher, h.discovery, h.telegram, h.spot, h.linear⟩⟩

/-- The verdict is healthy if nothing is wrong. -/
theorem classify_spec {now : ℚ} {bad : List CriticalIssue}
    (hbad : critical config.toSettings state = .ok bad)
    (hdatabase : bad = [] → state.databaseHealthy = true) :
    ∃ state' monitor, self.classify config.toSettings state now = .ok (state', monitor) ∧
      (state'.overall = .healthy ↔ bad = [] ∧ degraded state = []) := by
  refine ⟨_, _, by rw [classify, hbad]; rfl, ?_⟩
  -- down, critical and degraded are tried before healthy
  dsimp only [HealthState.note]
  constructor
  · intro hhealthy
    split at hhealthy
    · cases hhealthy
    · split at hhealthy
      · cases hhealthy
      · split at hhealthy
        · cases hhealthy
        · rename_i hnone
          exact ⟨by_contra fun h => hnone (Or.inl h), by_contra fun h => hnone (Or.inr h)⟩
  · rintro ⟨rfl, hdegraded⟩
    simp [hdatabase, hdegraded]

theorem snapshot_spec (h : HealthState.collectSubstates config.toSettings readings = .ok state) :
    ∃ state' monitor, self.snapshot config.toSettings readings = .ok (state', monitor) ∧
      (state'.overall = .healthy ↔ ChecksPass config readings) := by
  -- the count of the market loop is no part of the verdict
  have hcollected : HealthState.Collected config readings
      { state with qualifyingCoinCount := self.qualifyingCoinCount } :=
    have h := HealthState.collectSubstates_spec h
    ⟨h.database, h.dispatcher, h.discovery, h.telegram, h.spot, h.linear⟩
  obtain ⟨bad, hbad, hdatabase, hpass⟩ := critical_spec hcollected
  obtain ⟨state', monitor, hclassify, hhealthy⟩ :=
    @classify_spec config self _ readings.monotonic bad hbad hdatabase
  refine ⟨state', { monitor with lastState := some state' }, ?_, hhealthy.trans hpass⟩
  rw [snapshot, h]
  change (self.classify _ _ _ >>= _) = _
  rw [hclassify]
  rfl

/-- A snapshot returns exactly if what it awaits does. -/
theorem snapshot_returns_iff :
    PyExc.Returns (self.snapshot config.toSettings readings) ↔ Answered readings := by
  rw [← @HealthState.collectSubstates_ok_iff config]
  constructor
  · rintro ⟨result, h⟩
    obtain ⟨state, hstate, -⟩ := PyExc.bind_eq_ok.mp h
    exact ⟨state, hstate⟩
  · rintro ⟨state, hstate⟩
    obtain ⟨state', monitor, h, -⟩ := snapshot_spec hstate
    exact ⟨_, h⟩

/-- A snapshot that returns is healthy exactly if every check of the classification passes. -/
theorem snapshot_healthy_iff
    (h : self.snapshot config.toSettings readings = .ok (state, monitor)) :
    state.overall = .healthy ↔ ChecksPass config readings := by
  obtain ⟨collected, hcollected, -⟩ := PyExc.bind_eq_ok.mp h
  obtain ⟨state', monitor', h', hiff⟩ := snapshot_spec hcollected
  rw [h] at h'
  cases h'
  exact hiff

end HealthMonitor

/-! ## Histories -/

/-- What happens to the monitor: the market loop reports its count, or a snapshot is taken. -/
inductive HealthEvent
  | counted (count : ℤ)
  | snapshot (readings : HealthReadings) (outcome : Except PyExc HealthState)

/-- One event of the history of a monitor. -/
inductive HealthStep (config : Settings) : HealthMonitor → HealthEvent → HealthMonitor → Prop
  | counted {monitor : HealthMonitor} (count : ℤ) :
      HealthStep config monitor (.counted count) { monitor with qualifyingCoinCount := count }
  | reported {monitor monitor' : HealthMonitor} {readings : HealthReadings} {state : HealthState}
      (h : monitor.snapshot config readings = .ok (state, monitor')) :
      HealthStep config monitor (.snapshot readings (.ok state)) monitor'
  | raised {monitor : HealthMonitor} {readings : HealthReadings} {exc : PyExc}
      (h : monitor.snapshot config readings = .error exc) :
      HealthStep config monitor (.snapshot readings (.error exc)) monitor

/-- A healthy report is right: every check passes and every enabled stream is connected. -/
def HealthySound (config : AdmittedSettings) : HealthEvent → Prop
  | .snapshot readings (.ok state) =>
      state.overall = .healthy → ChecksPass config readings ∧ StreamsConnected config readings
  | _ => True

/-- A snapshot is taken while an enabled stream is not connected and nothing else is wrong: every
check passes, so that the last ticker of the stream is at most `ws_stale_seconds` old. -/
def Masked (config : AdmittedSettings) : HealthEvent → Prop
  | .snapshot readings _ =>
      Answered readings ∧ ChecksPass config readings ∧ ¬ StreamsConnected config readings
  | _ => False

theorem HealthStep.sound_iff {config : AdmittedSettings} {monitor monitor' : HealthMonitor}
    {event : HealthEvent} (hstep : HealthStep config.toSettings monitor event monitor') :
    HealthySound config event ↔ ¬ Masked config event := by
  cases hstep with
  | counted count => simp [HealthySound, Masked]
  | @reported _ readings state h =>
      -- a report is healthy if all checks pass, whether or not the streams are connected
      have hanswered := HealthMonitor.snapshot_returns_iff.mp ⟨_, h⟩
      simp only [HealthySound, Masked, HealthMonitor.snapshot_healthy_iff h]
      tauto
  | @raised readings exc h =>
      have hunanswered : ¬ Answered readings := by
        rw [← HealthMonitor.snapshot_returns_iff, PyExc.Returns, h]
        simp
      simp [HealthySound, Masked, hunanswered]

/-- In every history, each healthy report is right about the subsystems, if and only if no snapshot
is taken while an enabled stream is not connected and nothing else is wrong. -/
theorem healthy_sound_iff (config : AdmittedSettings) (events : List HealthEvent) :
    Trace.EveryStep (HealthStep config.toSettings) {} events (fun _ event _ =>
        HealthySound config event) ↔
      Trace.EveryStep (HealthStep config.toSettings) {} events fun _ event _ =>
        ¬ Masked config event :=
  Trace.EveryStep.congr fun _ _ _ _ _ _ hstep => hstep.sound_iff

/-- The spot stream has lost its connection two seconds after a ticker and reconnects. -/
def reconnectingSpot : HealthReadings where
  now := 1000
  monotonic := 500
  database := some (.ok (some 1))
  discovery := some (some 900)
  wsManager := some
    { spot := some { connected := false, lastTickerAt := some 995 }
      linear := some { connected := true, lastTickerAt := some 999 } }
  telegram := some { lastSuccessAt := some 990 }
  dispatcher := some {}
  registry := some (.ok [])

theorem checksPass_reconnectingSpot : ChecksPass .default reconnectingSpot where
  database := rfl
  dispatcher := by
    rintro _ ⟨⟩
    exact ⟨by decide, rfl⟩
  discovery := ⟨900, rfl, by decide +kernel⟩
  telegram := ⟨_, rfl, by decide⟩
  spot := fun _ => ⟨_, 995, rfl, rfl, by decide +kernel⟩
  linear := fun _ => ⟨_, 999, rfl, rfl, by decide +kernel⟩

/-- The stream that reconnects is reported healthy. -/
theorem reconnecting_reported_healthy :
    ¬ ∀ config events monitor, Trace (HealthStep (AdmittedSettings.toSettings config)) {} events
        monitor →
      Trace.EveryStep (HealthStep config.toSettings) {} events fun _ event _ =>
        HealthySound config event := by
  intro hclaim
  have hanswered : Answered reconnectingSpot :=
    ⟨by rintro exc ⟨⟩, by rintro _ ⟨⟩; exact ⟨⟨0, rfl⟩, by rintro exc ⟨⟩⟩, by rintro exc ⟨⟩⟩
  obtain ⟨⟨state, monitor⟩, hsnapshot⟩ :=
    (@HealthMonitor.snapshot_returns_iff .default {} _).mpr hanswered
  have hstep := HealthStep.reported hsnapshot
  have hsound := (hclaim .default _ _ (Trace.nil.snoc hstep)).of_append.2 _ _ Trace.nil hstep
  -- the other checks of the report pass
  have hhealthy := (HealthMonitor.snapshot_healthy_iff hsnapshot).mpr checksPass_reconnectingSpot
  obtain ⟨client, hclient, hconnected⟩ := (hsound hhealthy).2.1 (by decide)
  cases hclient
  cases hconnected

end BybitMonitor
