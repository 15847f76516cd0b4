import Mathlib
import BybitMonitor.Python.Float

/-!
# Configuration

`Settings` with the defaults of `app/config.py` and the range check `Settings._validate_ranges`.
`AdmittedSettings` carries the proof that the check accepted it, which is how every other part of
the application receives its configuration.

* `AdmittedSettings.one_le_min`, `AdmittedSettings.min_le_max`: the alert range is not empty and
  does not contain zero.
* `AdmittedSettings.toInt_of_nonNegative`: `int()` of a duration never raises and is not negative.
* `AdmittedSettings.finite_of_positive`: the timeouts are numbers.
-/

namespace BybitMonitor

/-- The application settings that the modelled code reads. -/
structure Settings where
  bybitWsBaseUrl : String := "wss://stream.bybit.com/v5/public"
  alertThresholdPercent : PyFloat := 5
  minQualifyingCoins : ℤ := 1
  maxQualifyingCoins : ℤ := 3
  instrumentRefreshSeconds : PyFloat := 300
  announcementRefreshSeconds : PyFloat := 300
  restTickerPollSeconds : PyFloat := 10
  spotSampleSeconds : PyFloat := 60
  immediateTransitionAlerts : Bool := true
  hourlyActiveAlerts : Bool := true
  compositionChangeAlerts : Bool := false
  listingNotificationsEnabled : Bool := true
  alertDebounceSeconds : PyFloat := 20
  compositionChangeCooldownSeconds : PyFloat := 300
  enableSpot : Bool := true
  enableLinearUsdt : Bool := true
  enableLinearUsdc : Bool := true
  enableWebsocket : Bool := true
  restFallbackEnabled : Bool := true
  spotHistoryRetentionSeconds : PyFloat := 7200
  spotAnchorToleranceSeconds : PyFloat := 90
  restTimeoutSeconds : PyFloat := 10
  restMaxRetries : ℤ := 3
  telegramTimeoutSeconds : PyFloat := 15
  telegramMaxRetries : ℤ := 3
  wsHeartbeatIntervalSeconds : PyFloat := 20
  wsStaleSeconds : PyFloat := 60
  wsSubscribeBatchSize : ℤ := 10
  wsSubscriptionAckTimeoutSeconds : PyFloat := 10
  healthSummarySeconds : PyFloat := 60
  healthWriteIntervalSeconds : PyFloat := 30
  criticalHealthFailureSeconds : PyFloat := 180
  healthHeartbeatStaleSeconds : PyFloat := 120
  dispatcherPollSeconds : PyFloat := 2
  dispatcherErrorBackoffSeconds : PyFloat := 5
  notificationMaxAgeSeconds : PyFloat := 7200
  listingNotificationMaxAgeSeconds : PyFloat := 86400
  deriving DecidableEq, Repr

namespace Settings

/-- `_NUMERIC_NON_NEGATIVE`, each name with its field. -/
def numericNonNegative : List (String × (Settings → PyFloat)) :=
  [("instrument_refresh_seconds", instrumentRefreshSeconds),
    ("announcement_refresh_seconds", announcementRefreshSeconds),
    ("rest_ticker_poll_seconds", restTickerPollSeconds),
    ("spot_sample_seconds", spotSampleSeconds),
    ("alert_debounce_seconds", alertDebounceSeconds),
    ("composition_change_cooldown_seconds", compositionChangeCooldownSeconds),
    ("spot_history_retention_seconds", spotHistoryRetentionSeconds),
    ("spot_anchor_tolerance_seconds", spotAnchorToleranceSeconds),
    ("rest_timeout_seconds", restTimeoutSeconds),
    ("telegram_timeout_seconds", telegramTimeoutSeconds),
    ("ws_heartbeat_interval_seconds", wsHeartbeatIntervalSeconds),
    ("ws_stale_seconds", wsStaleSeconds),
    ("ws_subscription_ack_timeout_seconds", wsSubscriptionAckTimeoutSeconds),
    ("health_summary_seconds", healthSummarySeconds),
    ("health_write_interval_seconds", healthWriteIntervalSeconds),
    ("critical_health_failure_seconds", criticalHealthFailureSeconds),
    ("health_heartbeat_stale_seconds", healthHeartbeatStaleSeconds),
    ("dispatcher_poll_seconds", dispatcherPollSeconds),
    ("dispatcher_error_backoff_seconds", dispatcherErrorBackoffSeconds),
    ("notification_max_age_seconds", notificationMaxAgeSeconds),
    ("listing_notification_max_age_seconds", listingNotificationMaxAgeSeconds)]

/-- `_NUMERIC_POSITIVE`, each name with its field. -/
def numericPositive : List (String × (Settings → PyFloat)) :=
  [("rest_ticker_poll_seconds", restTickerPollSeconds),
    ("rest_timeout_seconds", restTimeoutSeconds),
    ("telegram_timeout_seconds", telegramTimeoutSeconds),
    ("ws_heartbeat_interval_seconds", wsHeartbeatIntervalSeconds),
    ("ws_stale_seconds", wsStaleSeconds),
    ("ws_subscription_ack_timeout_seconds", wsSubscriptionAckTimeoutSeconds),
    ("health_write_interval_seconds", healthWriteIntervalSeconds),
    ("health_heartbeat_stale_seconds", healthHeartbeatStaleSeconds),
    ("spot_history_retention_seconds", spotHistoryRetentionSeconds),
    ("dispatcher_poll_seconds", dispatcherPollSeconds)]

/-- `if <refused>: raise ValueError(<message>)`. -/
def refuseIf (refused : Bool) (message : String) : Except PyExc Unit :=
  if refused then .error (.valueError message) else .ok ()

/-- `Settings._validate_ranges`. -/
def validateRanges (self : Settings) : Except PyExc Unit := do
  refuseIf (!self.alertThresholdPercent.isFinite || self.alertThresholdPercent.le 0)
    "ALERT_THRESHOLD_PERCENT must be a finite number > 0"
  refuseIf (self.minQualifyingCoins < 0) "MIN_QUALIFYING_COINS must be >= 0"
  refuseIf (self.maxQualifyingCoins < self.minQualifyingCoins)
    "MAX_QUALIFYING_COINS must be >= MIN_QUALIFYING_COINS"
  refuseIf (self.restMaxRetries < 0 || self.telegramMaxRetries < 0) "retry counts must be >= 0"
  refuseIf (self.wsSubscribeBatchSize < 1) "WS_SUBSCRIBE_BATCH_SIZE must be >= 1"
  numericNonNegative.forM fun (name, value) =>
    refuseIf (!(value self).isFinite || (value self).lt 0)
      (name.toUpper ++ " must be a finite number >= 0")
  numericPositive.forM fun (name, value) =>
    refuseIf (!(value self).isFinite || (value self).le 0)
      (name.toUpper ++ " must be a finite number > 0")
  refuseIf (!(self.enableSpot || self.enableLinearUsdt || self.enableLinearUsdc))
    "At least one market universe must be enabled"
  refuseIf (self.minQualifyingCoins = 0 || self.maxQualifyingCoins = 0)
    "MIN/MAX_QUALIFYING_COINS must be >= 1"

theorem refuseIf_eq_ok {refused : Bool} {message : String} :
    refuseIf refused message = .ok () ↔ refused = false := by
  cases refused <;> simp [refuseIf]

theorem forM_eq_ok {α : Type} {check : α → Except PyExc Unit} {items : List α} :
    items.forM check = .ok () ↔ ∀ item ∈ items, check item = .ok () := by
  induction items with
  | nil => simp [pure, Except.pure]
  | cons item items ih =>
      show (check item >>= fun _ => items.forM check) = .ok () ↔ _
      rw [PyExc.check_bind_eq_ok, List.forall_mem_cons, ih]

end Settings

/-- Settings that `Settings._validate_ranges` accepted. -/
structure AdmittedSettings extends Settings where
  admitted : toSettings.validateRanges = .ok ()

namespace AdmittedSettings

/-- The defaults pass the check. -/
def default : AdmittedSettings where
  toSettings := {}
  admitted := by decide +kernel

variable (config : AdmittedSettings)

/-- The checks that an admitted configuration has passed, in the order of the source. -/
theorem checks :
    config.maxQualifyingCoins ≥ config.minQualifyingCoins ∧
      1 ≤ config.wsSubscribeBatchSize ∧
      (∀ item ∈ Settings.numericNonNegative,
        (item.2 config.toSettings).isFinite = true ∧ (item.2 config.toSettings).lt 0 = false) ∧
      (∀ item ∈ Settings.numericPositive,
        (item.2 config.toSettings).isFinite = true ∧ (item.2 config.toSettings).le 0 = false) ∧
      1 ≤ config.minQualifyingCoins := by
  have h := config.admitted
  simp only [Settings.validateRanges, PyExc.check_bind_eq_ok, Settings.forM_eq_ok,
    Settings.refuseIf_eq_ok] at h
  obtain ⟨-, hmin, hmax, -, hbatch, hnonneg, hpos, -, hone⟩ := h
  simp only [decide_eq_false_iff_not, Bool.or_eq_false_iff, not_lt] at hmin hmax hbatch hone
  refine ⟨hmax, hbatch, fun item hitem => ?_, fun item hitem => ?_, by omega⟩
  · simpa using hnonneg item hitem
  · simpa using hpos item hitem

/-- The alert range does not contain zero. -/
theorem one_le_min : 1 ≤ config.minQualifyingCoins := config.checks.2.2.2.2

/-- The alert range is not empty. -/
theorem min_le_max : config.minQualifyingCoins ≤ config.maxQualifyingCoins := config.checks.1

/-- A field that is checked to be a finite number at least zero. -/
theorem finite_of_nonNegative {item : String × (Settings → PyFloat)}
    (hitem : item ∈ Settings.numericNonNegative) :
    item.2 config.toSettings = .finite (item.2 config.toSettings).value ∧
      0 ≤ (item.2 config.toSettings).value := by
  obtain ⟨hfinite, hnonneg⟩ := config.checks.2.2.1 item hitem
  cases hvalue : item.2 config.toSettings with
  | nan => simp [hvalue, PyFloat.isFinite] at hfinite
  | inf negative => simp [hvalue, PyFloat.isFinite] at hfinite
  | finite x =>
      have hlt : (PyFloat.finite x).lt (PyFloat.finite ((0 : ℕ) : ℚ)) = false := hvalue ▸ hnonneg
      have hx : 0 ≤ x := by simpa [PyFloat.lt] using hlt
      exact ⟨rfl, hx⟩

/-- `int()` of a field that is checked to be a finite number at least zero. -/
theorem toInt_of_nonNegative {item : String × (Settings → PyFloat)}
    (hitem : item ∈ Settings.numericNonNegative) :
    (item.2 config.toSettings).toInt = .ok (item.2 config.toSettings).truncated ∧
      0 ≤ (item.2 config.toSettings).truncated := by
  obtain ⟨hfinite, hnonneg⟩ := config.finite_of_nonNegative hitem
  rw [hfinite]
  refine ⟨rfl, ?_⟩
  rw [PyFloat.truncated, if_neg (not_lt.mpr hnonneg)]
  exact Int.floor_nonneg.mpr hnonneg

/-- `int(self.config.alert_debounce_seconds)`. -/
def debounce : ℤ := config.alertDebounceSeconds.truncated

/-- `int(self.config.composition_change_cooldown_seconds)`. -/
def cooldown : ℤ := config.compositionChangeCooldownSeconds.truncated

theorem debounce_spec :
    config.alertDebounceSeconds.toInt = .ok config.debounce ∧ 0 ≤ config.debounce :=
  config.toInt_of_nonNegative
    (show ("alert_debounce_seconds", Settings.alertDebounceSeconds) ∈ _ by
      simp [Settings.numericNonNegative])

theorem cooldown_spec :
    config.compositionChangeCooldownSeconds.toInt = .ok config.cooldown ∧ 0 ≤ config.cooldown :=
  config.toInt_of_nonNegative
    (show ("composition_change_cooldown_seconds", Settings.compositionChangeCooldownSeconds) ∈ _ by
      simp [Settings.numericNonNegative])

/-- A field that is checked to be a finite number above zero. -/
theorem finite_of_positive {item : String × (Settings → PyFloat)}
    (hitem : item ∈ Settings.numericPositive) :
    item.2 config.toSettings = .finite (item.2 config.toSettings).value := by
  obtain ⟨hfinite, -⟩ := config.checks.2.2.2.1 item hitem
  cases hvalue : item.2 config.toSettings with
  | nan => simp [hvalue, PyFloat.isFinite] at hfinite
  | inf negative => simp [hvalue, PyFloat.isFinite] at hfinite
  | finite x => rfl

/-- Three refresh intervals are a number, or more than any. -/
theorem refresh_mul_ne_nan : config.instrumentRefreshSeconds.mulPos 3 ≠ .nan := by
  obtain ⟨hfinite, -⟩ := config.checks.2.2.1
    ("instrument_refresh_seconds", Settings.instrumentRefreshSeconds)
    (by simp [Settings.numericNonNegative])
  cases hvalue : config.instrumentRefreshSeconds with
  | finite x => exact PyFloat.roundBinary64_ne_nan _
  | _ => simp [hvalue, PyFloat.isFinite] at hfinite

/-- The seconds after which the tickers are stale. -/
def staleAfter : ℚ := config.wsStaleSeconds.value

theorem staleAfter_spec : config.wsStaleSeconds = .finite config.staleAfter :=
  config.finite_of_positive
    (show ("ws_stale_seconds", Settings.wsStaleSeconds) ∈ _ by simp [Settings.numericPositive])

/-- An age in seconds is not above `int(self.config.ws_stale_seconds)` if it is not above the
setting. -/
theorem staleAfter_toInt :
    ∃ stale, config.wsStaleSeconds.toInt = .ok stale ∧
      ∀ seconds : ℤ, seconds ≤ stale ↔ (seconds : ℚ) ≤ config.staleAfter := by
  have hnonneg : 0 ≤ config.staleAfter := (config.finite_of_nonNegative
    (show ("ws_stale_seconds", Settings.wsStaleSeconds) ∈ _ by
      simp [Settings.numericNonNegative])).2
  refine ⟨⌊config.staleAfter⌋, ?_, fun seconds => Int.le_floor⟩
  rw [config.staleAfter_spec, PyFloat.toInt, PyFloat.truncated, if_neg (not_lt.mpr hnonneg)]

end AdmittedSettings

end BybitMonitor
