import Mathlib
import BybitMonitor.Market.PriceEngine
import BybitMonitor.Python.Text

/-!
# The health monitor

`HealthMonitor.snapshot` with what it reads of the other subsystems as an argument: the collection
of the fields of a `HealthState`, and the classification with its grace window.
-/

namespace BybitMonitor

/-- The critical dimensions. -/
inductive CriticalIssue
  | database
  | dispatcher
  | rest
  | spotWs
  | linearWs
  deriving DecidableEq, Repr

/-- The name of a critical dimension. -/
def CriticalIssue.name : CriticalIssue → String
  | database => "database"
  | dispatcher => "dispatcher"
  | rest => "rest"
  | spotWs => "spot_ws"
  | linearWs => "linear_ws"

/-- The degradations that never make the container unhealthy. -/
inductive DegradedIssue
  | telegram
  | retryQueue
  deriving DecidableEq, Repr

/-- Container health. -/
inductive Overall
  | healthy
  | degraded
  | unhealthy
  deriving DecidableEq, Repr

/-- One health snapshot of all monitored subsystems. -/
structure HealthState where
  collectedAt : ℤ := 0
  restHealthy : Bool := false
  spotWsConnected : Bool := false
  linearWsConnected : Bool := false
  telegramHealthy : Bool := false
  dispatcherHealthy : Bool := true
  telegramLastErrorType : Option String := none
  telegramLastErrorAge : Option ℤ := none
  telegramDeadCount : ℤ := 0
  databaseHealthy : Bool := false
  lastSpotTickerAge : Option ℤ := none
  lastLinearTickerAge : Option ℤ := none
  lastDiscoveryAge : Option ℤ := none
  spotInstrumentCount : ℕ := 0
  linearUsdtCount : ℕ := 0
  linearUsdcCount : ℕ := 0
  qualifyingCoinCount : ℤ := 0
  telegramQueueDepth : ℕ := 0
  overall : Overall := .healthy
  criticalIssues : List CriticalIssue := []
  pendingCriticalIssues : List String := []
  degradedIssues : List DegradedIssue := []
  notes : List String := []
  deriving DecidableEq, Repr

/-! ## What a snapshot reads -/

/-- A WebSocket client. -/
structure ClientReading where
  connected : Bool
  lastTickerAt : Option ℚ := none
  deriving DecidableEq, Repr

/-- The clients of the WebSocket manager. -/
structure WsManagerReading where
  spot : Option ClientReading
  linear : Option ClientReading
  deriving DecidableEq, Repr

/-- The Telegram client. -/
structure TelegramReading where
  lastSuccessAt : Option ℤ
  lastErrorAt : Option ℤ := none
  lastErrorType : Option String := none
  deriving DecidableEq, Repr

/-- The dispatcher: whether its worker is done, if it was started, and the two counts. -/
structure DispatcherReading where
  workerDone : Option Bool := some false
  consecutiveFailures : ℕ := 0
  depth : Except PyExc ℕ := .ok 0
  countDead : Except PyExc ℕ := .ok 0

/-- The subsystems as a snapshot finds them, and the clocks. -/
structure HealthReadings where
  now : ℤ
  monotonic : ℚ
  /-- `row["one"]` for the row of the check. -/
  database : Option (Except PyExc (Option ℤ))
  /-- `last_success_at`. -/
  discovery : Option (Option ℤ)
  wsManager : Option WsManagerReading
  telegram : Option TelegramReading
  dispatcher : Option DispatcherReading
  /-- The outcome of `load_all`. -/
  registry : Option (Except PyExc (List Instrument))

/-- `_age`. -/
def age (now : ℤ) (lastSeen : Option ℚ) : Option ℤ :=
  lastSeen.map fun last => max 0 (now - (PyFloat.finite last).truncated)

/-- `MAX_CONSECUTIVE_WORKER_FAILURES`. -/
def maxConsecutiveWorkerFailures : ℕ := 5

/-- `AlertDispatcher.worker_healthy`. -/
def DispatcherReading.workerHealthy (self : DispatcherReading) : Bool :=
  match self.workerDone with
  | none => true
  | some true => false
  | some false => self.consecutiveFailures ≤ maxConsecutiveWorkerFailures

/-- Whether the last delivery attempt of the client was a success. -/
def TelegramReading.healthy (self : TelegramReading) : Bool :=
  self.lastSuccessAt.any fun success => self.lastErrorAt.all fun error => error ≤ success

namespace HealthState

/-- Append a note if something is wrong. -/
def note (self : HealthState) (wrong : Bool) (text : String) : HealthState :=
  { self with notes := self.notes ++ if wrong then [text] else [] }

/-- `_database_healthy`, and the note on it. -/
def collectDatabase (self : HealthState) :
    Option (Except PyExc (Option ℤ)) → Except PyExc HealthState
  | none => .ok self
  | some (.ok one) =>
      let healthy := one = some 1
      .ok ({ self with databaseHealthy := healthy }.note (!healthy) "database unhealthy")
  | some (.error exc) =>
      if exc.isException then
        .ok ({ self with databaseHealthy := false }.note true "database unhealthy")
      else .error exc

/-- The part of `_collect_substates` about the discovery. -/
def collectDiscovery (config : Settings) (self : HealthState) (now : ℤ) :
    Option (Option ℤ) → HealthState
  | none => self
  | some lastSuccess =>
      let discoveryAge := age now (lastSuccess.map Int.cast)
      let stale := discoveryAge.any fun seconds =>
        (config.instrumentRefreshSeconds.mulPos 3).lt (.finite seconds)
      let healthy := lastSuccess.isSome && !stale
      { self with lastDiscoveryAge := discoveryAge, restHealthy := healthy }.note (!healthy)
        "rest unhealthy"

/-- The part of `_collect_substates` about the spot stream. -/
def collectSpot (self : HealthState) (now : ℤ) : Option ClientReading → HealthState
  | none => self
  | some spot =>
      { self with
          spotWsConnected := spot.connected
          lastSpotTickerAge := age now spot.lastTickerAt }.note (!spot.connected)
        "spot ws disconnected"

/-- The part of `_collect_substates` about the linear stream. -/
def collectLinear (self : HealthState) (now : ℤ) : Option ClientReading → HealthState
  | none => self
  | some linear =>
      { self with
          linearWsConnected := linear.connected
          lastLinearTickerAge := age now linear.lastTickerAt }.note (!linear.connected)
        "linear ws disconnected"

/-- The part of `_collect_substates` about Telegram. -/
def collectTelegram (self : HealthState) (now : ℤ) : Option TelegramReading → HealthState
  | none => self
  | some telegram =>
      { self with
          telegramHealthy := telegram.healthy
          telegramLastErrorType := telegram.lastErrorType
          telegramLastErrorAge := age now (telegram.lastErrorAt.map Int.cast) }.note
        (!telegram.healthy) "telegram unhealthy"

/-- `count_dead`, where a failure counts as `-1`. -/
def deadCount : Except PyExc ℕ → Except PyExc ℤ
  | .ok count => .ok count
  | .error exc => if exc.isException then .ok (-1) else .error exc

/-- The part of `_collect_substates` about the dispatcher. -/
def collectDispatcher (self : HealthState) : Option DispatcherReading → Except PyExc HealthState
  | none => .ok self
  | some dispatcher => do
      let depth ← dispatcher.depth
      let state := { self with
        telegramQueueDepth := depth
        dispatcherHealthy := dispatcher.workerHealthy }.note (!dispatcher.workerHealthy)
          "dispatcher unhealthy"
      let dead ← deadCount dispatcher.countDead
      return { state with telegramDeadCount := dead }

/-- `_collect_counts`. -/
def collectCounts (self : HealthState) :
    Option (Except PyExc (List Instrument)) → Except PyExc HealthState
  | none => .ok self
  | some (.error exc) => .error exc
  | some (.ok instruments) =>
      let trading := instruments.filter fun inst => inst.status = "Trading"
      let linear := trading.filter fun inst => inst.category = "linear"
      .ok { self with
        spotInstrumentCount := (trading.filter fun inst => inst.category = "spot").length
        linearUsdtCount := (linear.filter fun inst => inst.settleCoin = some "USDT").length
        linearUsdcCount := (linear.filter fun inst => inst.settleCoin = some "USDC").length }

/-- `_collect_substates`. -/
def collectSubstates (config : Settings) (readings : HealthReadings) :
    Except PyExc HealthState := do
  let now := readings.now
  let state ← collectDatabase { collectedAt := now } readings.database
  let state := state.collectDiscovery config now readings.discovery
  let state := state.collectSpot now (readings.wsManager.bind WsManagerReading.spot)
  let state := state.collectLinear now (readings.wsManager.bind WsManagerReading.linear)
  let state := state.collectTelegram now readings.telegram
  let state ← state.collectDispatcher readings.dispatcher
  state.collectCounts readings.registry

end HealthState

/-! ## Classification -/

/-- The monitor: the count that the market loop reports, the last snapshot, and the times at which
the critical dimensions were first seen bad. -/
structure HealthMonitor where
  qualifyingCoinCount : ℤ := 0
  lastState : Option HealthState := none
  criticalSince : List (CriticalIssue × ℚ) := []
  deriving DecidableEq, Repr

/-- `enabled_spot`. -/
def Settings.spotStreamEnabled (self : Settings) : Bool := self.enableWebsocket && self.enableSpot

/-- `enabled_linear`. -/
def Settings.linearStreamEnabled (self : Settings) : Bool :=
  self.enableWebsocket && (self.enableLinearUsdt || self.enableLinearUsdc)

namespace HealthMonitor

/-- `_ws_acceptable`. -/
def wsAcceptable (config : Settings) : Option ℤ → Except PyExc Bool
  | none => .ok false
  | some seconds => do
      let stale ← config.wsStaleSeconds.toInt
      return decide (seconds ≤ stale)

/-- Whether a stream is bad: it is enabled and its last ticker is missing or too old. -/
def wsBad (config : Settings) (enabled : Bool) (tickerAge : Option ℤ) : Except PyExc Bool :=
  if enabled then (!·) <$> wsAcceptable config tickerAge else .ok false

/-- The critical dimensions that are bad, once the streams are judged. -/
def criticalIssues (state : HealthState) (spotBad linearBad : Bool) : List CriticalIssue :=
  (if !state.databaseHealthy then [.database] else []) ++
    (if !state.dispatcherHealthy then [.dispatcher] else []) ++
    (if !state.restHealthy then [.rest] else []) ++
    (if spotBad then [.spotWs] else []) ++ (if linearBad then [.linearWs] else [])

/-- `critical`. -/
def critical (config : Settings) (state : HealthState) : Except PyExc (List CriticalIssue) := do
  let spotBad ← wsBad config config.spotStreamEnabled state.lastSpotTickerAge
  let linearBad ← wsBad config config.linearStreamEnabled state.lastLinearTickerAge
  return criticalIssues state spotBad linearBad

/-- The degradations. -/
def degraded (state : HealthState) : List DegradedIssue :=
  (if !state.telegramHealthy then [.telegram] else []) ++
    (if 0 < state.telegramQueueDepth then [.retryQueue] else [])

/-- `dict.setdefault`. -/
def setDefault (since : List (CriticalIssue × ℚ)) (issue : CriticalIssue) (now : ℚ) :
    List (CriticalIssue × ℚ) :=
  if since.any fun entry => entry.1 = issue then since else since ++ [(issue, now)]

/-- Whether a bad dimension has been bad for the grace, or has none. -/
def isPersisted (config : Settings) (since : List (CriticalIssue × ℚ)) (now : ℚ)
    (issue : CriticalIssue) : Bool :=
  (since.find? fun entry => entry.1 = issue).any (fun entry =>
    config.criticalHealthFailureSeconds.le (PyFloat.elapsed now entry.2)) || issue = .database

/-- `sorted` of the names of issues. -/
def sortedNames (issues : List CriticalIssue) : List String :=
  PyText.sorted (issues.map CriticalIssue.name).toFinset

/-- `_classify`, where the source goes through the bad dimensions in no particular order. -/
def classify (config : Settings) (self : HealthMonitor) (state : HealthState) (now : ℚ) :
    Except PyExc (HealthState × HealthMonitor) := do
  let bad ← critical config state
  let kept := self.criticalSince.filter fun entry => entry.1 ∈ bad
  let since := bad.foldl (fun since issue => setDefault since issue now) kept
  let persisted := bad.filter fun issue => isPersisted config since now issue
  let overall : Overall :=
    if state.databaseHealthy = false then .unhealthy
    else if persisted ≠ [] then .unhealthy
    else if bad ≠ [] ∨ degraded state ≠ [] then .degraded
    else .healthy
  let state := { state with
    overall := overall
    criticalIssues := persisted
    pendingCriticalIssues := sortedNames (bad.filter fun issue => issue ∉ persisted)
    degradedIssues := degraded state }
  return (state.note (persisted ≠ []) ("critical: " ++ ",".intercalate (sortedNames persisted)),
    { self with criticalSince := since.filter fun entry => entry.1 ∈ bad })

/-- `snapshot`. -/
def snapshot (config : Settings) (self : HealthMonitor) (readings : HealthReadings) :
    Except PyExc (HealthState × HealthMonitor) := do
  let state ← HealthState.collectSubstates config readings
  let state := { state with qualifyingCoinCount := self.qualifyingCoinCount }
  let (state, monitor) ← self.classify config state readings.monotonic
  return (state, { monitor with lastState := some state })

end HealthMonitor

end BybitMonitor
