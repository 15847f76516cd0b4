import Mathlib
import BybitMonitor.Bybit.WebSocket
import BybitMonitor.ToMathlib.Trace

/-!
# Runs of a stream

A stream is a client with the two tasks that work on it: the task of `BybitWebSocketClient.run`,
and the task that calls `WebSocketManager.sync_subscriptions`. They are interleaved at every await,
with the network delivering arbitrary frames and letting any socket operation raise. An action
carries the readings that the resumed code takes from the monotonic clock.

* `StreamState.react`: what an action does.
* `StreamRun`: the runs, with the effects of each action.
* `StreamRun.invariant`: `_ws` is the current connection while one is open, and the run task holds
  the lock only in `resubscribe`.
-/

namespace BybitMonitor

/-- The tasks that work on a client. -/
inductive TaskName
  | run
  | sync
  deriving DecidableEq, Repr

/-- Why `_connect_and_listen` ends once it has connected. -/
inductive Exit
  | stopRequested
  | cancelled
  | sendFailed (exc : PyExc)
  | recvFailed (exc : PyExc)
  | callbackRaised (exc : PyExc)
  | subscribeRejected
  | ackTimeout
  | tickerStale
  deriving DecidableEq, Repr

/-- The end by an exception; a `CancelledError` is the cancellation of the task. -/
def Exit.ofRaise (failed : PyExc → Exit) (exc : PyExc) : Exit :=
  if exc.isException then failed exc else .cancelled

/-- What the task of `BybitWebSocketClient.run` awaits. -/
inductive RunTask
  /-- The delay before the next attempt, or the start of the task. -/
  | backoff
  | connecting
  /-- The lock or a send, in `resubscribe`. -/
  | resubscribing
  | callback
  | receiving
  | pinging
  /-- The close handshake. -/
  | closing (exit : Exit)
  | finished
  deriving DecidableEq, Repr

/-- What the task of `WebSocketManager.sync_subscriptions` awaits of the client. -/
inductive SyncTask
  | idle
  /-- `resubscribe`. The local `previous` is the set object `_subscribed`, or, once a reconnect has
  given the client a new one, the old set with these elements. -/
  | resubscribing (previous : Option (Finset String)) (desired : Finset String)
  | unsubscribing (symbols : Finset String)
  deriving DecidableEq

/-- A client with its tasks and its socket. -/
structure StreamState where
  client : BybitWebSocketClient := {}
  runTask : RunTask := .backoff
  syncTask : SyncTask := .idle
  /-- The holder of `_subscription_lock`, with the send that it awaits. -/
  lock : Option (TaskName × Sending) := none
  /-- The frames that wait to be received, with the times of their arrival. -/
  inbox : List (RawJson × ℚ) := []
  /-- The number of connections so far, which is the number of the current one. -/
  connections : ℕ := 0
  stop : Bool := false
  clock : ℚ := 0

/-- The steps of a stream. A task resumes with what it awaited. -/
inductive Action
  | requestStop
  /-- `sync_subscriptions` is called and wants these symbols. -/
  | sync (symbols : Finset String)
  /-- A task is granted the lock. -/
  | acquire (task : TaskName) (now : ℚ)
  /-- The send of the holder of the lock returns or raises. -/
  | sent (outcome : Except PyExc ℚ)
  /-- A task is cancelled while it awaits the lock, the delay or the close handshake. Elsewhere a
  cancellation is the `CancelledError` that the awaited operation raises. -/
  | cancel (task : TaskName)
  | connect
  | connectFailed (exc : PyExc)
  | connected (connectedAt pingAt : ℚ)
  | callback (outcome : Except PyExc Unit)
  | deliver (raw : RawJson) (arrival : ℚ)
  /-- The receive timeout of the listen loop. -/
  | timeout (ackCheck tickerCheck pingCheck ended : ℚ)
  | pinged (sentAt ended : ℚ)
  | pingFailed (exc : PyExc)
  /-- The listen loop receives the next frame; `raised` is what `on_message` raises. -/
  | receive (noted ackCheck tickerCheck ended : ℚ) (raised : Option PyExc)
  | recvFailed (exc : PyExc)
  /-- The close handshake is over. -/
  | closed

/-- A step of a run with its effects. -/
abbrev StreamEvent := Action × List Effect

namespace Action

/-- The readings of the clock, in their order. -/
def readings : Action → List ℚ
  | acquire _ now | sent (.ok now) | deliver _ now => [now]
  | connected connectedAt pingAt => [connectedAt, pingAt]
  | timeout ackCheck tickerCheck pingCheck ended => [ackCheck, tickerCheck, pingCheck, ended]
  | pinged sentAt ended => [sentAt, ended]
  | receive noted ackCheck tickerCheck ended _ => [noted, ackCheck, tickerCheck, ended]
  | _ => []

end Action

namespace SyncTask

/-- A reconnect has replaced the set object `_subscribed`. -/
def detach (subscribed : Finset String) : SyncTask → SyncTask
  | resubscribing none desired => resubscribing (some subscribed) desired
  | task => task

end SyncTask

namespace StreamState

/-- A fresh client. -/
def start (clock : ℚ) : StreamState := { clock }

/-- Leave `async with` for the close handshake. -/
def leave (s : StreamState) (exit : Exit) : StreamState := { s with runTask := .closing exit }

/-- Leave it after the connection was flagged unhealthy. -/
def fail (s : StreamState) (exit : Exit) : StreamState :=
  { s with client := s.client.setStatus false, runTask := .closing exit }

/-- `while not stop_event.is_set()`, in the listen loop. -/
def loopHead (s : StreamState) : StreamState :=
  if s.stop then s.leave .stopRequested else { s with runTask := .receiving }

/-- The `finally` of `_connect_and_listen`, and the loop of `run` up to its next await. -/
def attemptEnded (s : StreamState) (cancelled : Bool) : StreamState :=
  { s with
    -- `subscribed` and the pending requests stay until the next connect
    client := s.client.cleanUp
    runTask := if cancelled || s.stop then .finished else .backoff }

/-- The call of `unsubscribe` up to its lock. -/
def callUnsubscribe (s : StreamState) (symbols : Finset String) : StreamState :=
  { s with syncTask := if s.client.ws = none then .idle else .unsubscribing symbols }

/-- A task goes on after its `resubscribe` or `unsubscribe` has returned or raised. -/
def opReturned (s : StreamState) : TaskName → Except PyExc Unit → StreamState
  | .run, .ok () => { s with runTask := .callback }
  | .run, .error exc => s.leave (Exit.ofRaise .sendFailed exc)
  | .sync, .ok () =>
      -- `previous - desired` is computed when `resubscribe` has returned
      match s.syncTask with
      | .resubscribing previous desired =>
          s.callUnsubscribe (previous.getD s.client.subscribed \ desired)
      | _ => { s with syncTask := .idle }
  | .sync, .error _ => { s with syncTask := .idle }

/-- A task in the critical section goes on to its next send, or releases the lock. -/
def follow (s : StreamState) (task : TaskName) (sendRun : SendRun) : StreamState :=
  match sendRun.progress with
  | .sending sending => { s with client := sendRun.client, lock := some (task, sending) }
  | .returned outcome =>
      { s with client := sendRun.client, lock := none }.opReturned task outcome

/-- The run task goes on after `on_connected` has returned or raised. -/
def callbackReturned (s : StreamState) : Except PyExc Unit → StreamState
  | .ok () => s.loopHead
  | .error exc => s.leave (Exit.ofRaise .callbackRaised exc)

/-- The checks after a frame. -/
def checkWatchdogs (config : Settings) (s : StreamState) (ackCheck tickerCheck : ℚ)
    (healthy : StreamState) : StreamState :=
  if s.client.failUnackedSubscriptions config ackCheck then s.fail .ackTimeout
  else if s.client.tickerStale config tickerCheck then s.fail .tickerStale
  else healthy

/-- The `except` clauses around the handling of a frame. -/
def handlerRaised (s : StreamState) : PyExc → StreamState
  | .subscriptionAckError _ => s.fail .subscribeRejected
  | exc => if exc.isException then s.loopHead else s.leave .cancelled

variable (config : Settings) (category : String)

/-- The critical section that a task which awaits the lock enters. -/
def enter (s : StreamState) (now : ℚ) : TaskName → Option SendRun
  | .run =>
      match s.runTask with
      | .resubscribing => some (s.client.resubscribe config category now)
      | _ => none
  | .sync =>
      match s.syncTask with
      | .idle => none
      | .resubscribing _ _ => some (s.client.resubscribe config category now)
      | .unsubscribing symbols => some (s.client.unsubscribe config category now symbols)

/-- Cancel a task that awaits neither a socket operation nor the callback. -/
def cancelTask (s : StreamState) : TaskName → Option StreamState
  | .run =>
      match s.runTask with
      | .backoff => some { s with runTask := .finished }
      | .closing _ => some (s.attemptEnded true)
      | .resubscribing =>
          -- in a send the cancellation is raised by the send
          match s.lock with
          | some (.run, _) => none
          | _ => some (s.leave .cancelled)
      | _ => none
  | .sync =>
      match s.syncTask, s.lock with
      | .idle, _ | _, some (.sync, _) => none
      | _, _ => some { s with syncTask := .idle }

/-- The listen loop handles a frame. -/
def receiveFrame (s : StreamState) (raw : RawJson) (noted ackCheck tickerCheck : ℚ)
    (raised : Option PyExc) : List Effect × StreamState :=
  let handled := s.client.handleRaw category raw noted raised
  let s' := { s with client := handled.client }
  (handled.effects,
    match handled.result with
    | .ok () => s'.checkWatchdogs config ackCheck tickerCheck s'.loopHead
    | .error exc => s'.handlerRaised exc)

/-- What an action does, if it is enabled. -/
def react (s : StreamState) : Action → Option (List Effect × StreamState)
  | .requestStop => some ([], { s with stop := true })
  | .sync symbols =>
      match s.syncTask with
      | .idle =>
          -- without a connection both `resubscribe` and `unsubscribe` return at once
          some ([], { s with
            client := s.client.setSymbols symbols
            syncTask := if s.client.ws = none then .idle else .resubscribing none symbols })
      | _ => none
  | .acquire task now =>
      match s.lock, s.enter config category now task with
      | none, some sendRun => some (sendRun.effects, s.follow task sendRun)
      | _, _ => none
  | .sent outcome =>
      match s.lock with
      | some (task, sending) =>
          -- the holder goes on with the client as it is now, which may be on a newer connection
          let sendRun := s.client.resumeSend category sending outcome
          some (sendRun.effects, s.follow task sendRun)
      | none => none
  | .cancel task => (s.cancelTask task).map fun s' => ([], s')
  | .connect =>
      match s.runTask with
      | .backoff =>
          some ([], if s.stop then { s with runTask := .finished }
            else { s with
              client := s.client.setStatus false, runTask := .connecting, inbox := [] })
      | _ => none
  | .connectFailed exc =>
      match s.runTask with
      | .connecting => some ([], s.attemptEnded (!exc.isException))
      | _ => none
  | .connected connectedAt pingAt =>
      match s.runTask with
      | .connecting =>
          some ([], { s with
            -- the reset does not wait for the lock
            client := s.client.established (s.connections + 1) connectedAt pingAt
            runTask := .resubscribing
            syncTask := s.syncTask.detach s.client.subscribed
            connections := s.connections + 1 })
      | _ => none
  | .callback outcome =>
      match s.runTask with
      | .callback => some ([], s.callbackReturned outcome)
      | _ => none
  | .deliver raw arrival => some ([], { s with inbox := s.inbox ++ [(raw, arrival)] })
  | .timeout ackCheck tickerCheck pingCheck _ =>
      match s.runTask with
      | .receiving =>
          some ([], s.checkWatchdogs config ackCheck tickerCheck
            (if s.client.pingDue config pingCheck then { s with runTask := .pinging }
              else s.loopHead))
      | _ => none
  | .pinged sentAt _ =>
      match s.runTask with
      | .pinging => some ([], { s with client := { s.client with lastPingAt := sentAt } }.loopHead)
      | _ => none
  | .pingFailed exc =>
      match s.runTask with
      | .pinging => some ([], s.leave (Exit.ofRaise .sendFailed exc))
      | _ => none
  | .receive noted ackCheck tickerCheck _ raised =>
      match s.runTask, s.inbox with
      | .receiving, (raw, _) :: inbox =>
          some ({ s with inbox }.receiveFrame config category raw noted ackCheck tickerCheck
            raised)
      | _, _ => none
  | .recvFailed exc =>
      match s.runTask with
      | .receiving => some ([], s.leave (Exit.ofRaise .recvFailed exc))
      | _ => none
  | .closed =>
      match s.runTask with
      | .closing exit => some ([], s.attemptEnded (exit = .cancelled))
      | _ => none

/-- A step, if its readings do not run backwards. -/
def next (s : StreamState) (action : Action) : Option (StreamEvent × StreamState) :=
  if (s.clock :: action.readings).IsChain (· ≤ ·) then
    (s.react config category action).map fun (effects, s') =>
      ((action, effects), { s' with clock := action.readings.getLastD s.clock })
  else none

end StreamState

/-- One step of a stream. -/
def StreamStep (config : Settings) (category : String) (s : StreamState) (event : StreamEvent)
    (s' : StreamState) : Prop :=
  s.next config category event.1 = some (event, s')

/-- What one step does, up to the clock. -/
inductive StreamMove (config : Settings) (category : String) (s : StreamState) :
    Action → List Effect → StreamState → Prop
  | requestStop : StreamMove config category s .requestStop [] { s with stop := true }
  | sync {symbols : Finset String} (hidle : s.syncTask = .idle) :
      StreamMove config category s (.sync symbols) [] { s with
        client := s.client.setSymbols symbols
        syncTask := if s.client.ws = none then .idle else .resubscribing none symbols }
  | acquire {task : TaskName} {now : ℚ} {sendRun : SendRun} (hfree : s.lock = none)
      (henter : s.enter config category now task = some sendRun) :
      StreamMove config category s (.acquire task now) sendRun.effects (s.follow task sendRun)
  | sent {task : TaskName} {sending : Sending} {outcome : Except PyExc ℚ}
      (hheld : s.lock = some (task, sending)) :
      StreamMove config category s (.sent outcome)
        (s.client.resumeSend category sending outcome).effects
        (s.follow task (s.client.resumeSend category sending outcome))
  | cancelBackoff (htask : s.runTask = .backoff) :
      StreamMove config category s (.cancel .run) [] { s with runTask := .finished }
  | cancelClosing {exit : Exit} (htask : s.runTask = .closing exit) :
      StreamMove config category s (.cancel .run) [] (s.attemptEnded true)
  | cancelWaiting (htask : s.runTask = .resubscribing)
      (hwaits : ∀ sending, s.lock ≠ some (.run, sending)) :
      StreamMove config category s (.cancel .run) [] (s.leave .cancelled)
  | cancelSync (hwaits : ∀ sending, s.lock ≠ some (.sync, sending)) :
      StreamMove config category s (.cancel .sync) [] { s with syncTask := .idle }
  | stopped (htask : s.runTask = .backoff) (hstop : s.stop = true) :
      StreamMove config category s .connect [] { s with runTask := .finished }
  | connect (htask : s.runTask = .backoff) (hstop : s.stop = false) :
      StreamMove config category s .connect [] { s with
        client := s.client.setStatus false, runTask := .connecting, inbox := [] }
  | connectFailed {exc : PyExc} (htask : s.runTask = .connecting) :
      StreamMove config category s (.connectFailed exc) [] (s.attemptEnded (!exc.isException))
  | connected {connectedAt pingAt : ℚ} (htask : s.runTask = .connecting) :
      StreamMove config category s (.connected connectedAt pingAt) [] { s with
        client := s.client.established (s.connections + 1) connectedAt pingAt
        runTask := .resubscribing
        syncTask := s.syncTask.detach s.client.subscribed
        connections := s.connections + 1 }
  | callback {outcome : Except PyExc Unit} (htask : s.runTask = .callback) :
      StreamMove config category s (.callback outcome) [] (s.callbackReturned outcome)
  | deliver {raw : RawJson} {arrival : ℚ} :
      StreamMove config category s (.deliver raw arrival) []
        { s with inbox := s.inbox ++ [(raw, arrival)] }
  | timeout {ackCheck tickerCheck pingCheck ended : ℚ} (htask : s.runTask = .receiving) :
      StreamMove config category s (.timeout ackCheck tickerCheck pingCheck ended) []
        (s.checkWatchdogs config ackCheck tickerCheck
          (if s.client.pingDue config pingCheck then { s with runTask := .pinging }
            else s.loopHead))
  | pinged {sentAt ended : ℚ} (htask : s.runTask = .pinging) :
      StreamMove config category s (.pinged sentAt ended) []
        { s with client := { s.client with lastPingAt := sentAt } }.loopHead
  | pingFailed {exc : PyExc} (htask : s.runTask = .pinging) :
      StreamMove config category s (.pingFailed exc) [] (s.leave (Exit.ofRaise .sendFailed exc))
  | receive {noted ackCheck tickerCheck ended : ℚ} {raised : Option PyExc} {raw : RawJson}
      {arrival : ℚ} {inbox : List (RawJson × ℚ)} (htask : s.runTask = .receiving)
      (hinbox : s.inbox = (raw, arrival) :: inbox) :
      StreamMove config category s (.receive noted ackCheck tickerCheck ended raised)
        ({ s with inbox }.receiveFrame config category raw noted ackCheck tickerCheck raised).1
        ({ s with inbox }.receiveFrame config category raw noted ackCheck tickerCheck raised).2
  | recvFailed {exc : PyExc} (htask : s.runTask = .receiving) :
      StreamMove config category s (.recvFailed exc) [] (s.leave (Exit.ofRaise .recvFailed exc))
  | closed {exit : Exit} (htask : s.runTask = .closing exit) :
      StreamMove config category s .closed [] (s.attemptEnded (exit = .cancelled))

section

variable {config : Settings} {category : String} {s s' : StreamState} {effects : List Effect}

/-- A task enters the critical section of `resubscribe`, which the run task only calls on its
connection, or that of `unsubscribe`. -/
theorem StreamState.enter_cases {task : TaskName} {now : ℚ} {sendRun : SendRun}
    (h : s.enter config category now task = some sendRun) :
    (sendRun = s.client.resubscribe config category now ∧
        (task = .run → s.runTask = .resubscribing)) ∨
      (task = .sync ∧ ∃ symbols, sendRun = s.client.unsubscribe config category now symbols) := by
  cases task with
  | run =>
      rw [enter] at h
      split at h <;> cases h
      exact Or.inl ⟨rfl, fun _ => ‹_›⟩
  | sync =>
      rw [enter] at h
      split at h <;> cases h
      · -- the sync task resubscribes, or unsubscribes
        exact Or.inl ⟨rfl, fun hrun => nomatch hrun⟩
      · exact Or.inr ⟨rfl, _, rfl⟩

theorem StreamState.cancelTask_move {task : TaskName} (h : s.cancelTask task = some s') :
    StreamMove config category s (.cancel task) [] s' := by
  cases task with
  | run =>
      rw [cancelTask] at h
      split at h
      · cases h
        exact .cancelBackoff ‹_›
      · cases h
        exact .cancelClosing ‹_›
      · split at h
        · cases h
        · rename_i hrun _ hwaits
          cases h
          exact .cancelWaiting hrun hwaits
      · cases h
  | sync =>
      rw [cancelTask] at h
      split at h
      · cases h
      · cases h
      · rename_i hwaits
        cases h
        exact .cancelSync hwaits

/-- What is enabled is a move. -/
theorem StreamState.react_move {action : Action}
    (h : s.react config category action = some (effects, s')) :
    StreamMove config category s action effects s' := by
  -- each action is enabled in one state of its task
  cases action with
  | requestStop =>
      cases h
      exact .requestStop
  | sync symbols =>
      rw [react] at h
      split at h <;> cases h
      exact .sync ‹_›
  | acquire task now =>
      rw [react] at h
      split at h <;> cases h
      exact .acquire ‹_› ‹_›
  | sent outcome =>
      rw [react] at h
      split at h <;> cases h
      exact .sent ‹_›
  | cancel task =>
      obtain ⟨t, ht, heq⟩ := Option.map_eq_some_iff.mp h
      cases heq
      exact cancelTask_move ht
  | connect =>
      rw [react] at h
      split at h
      · cases h
        split
        · exact .stopped ‹_› ‹_›
        · exact .connect ‹_› (Bool.eq_false_iff.mpr ‹_›)
      · cases h
  | connectFailed exc =>
      rw [react] at h
      split at h <;> cases h
      exact .connectFailed ‹_›
  | connected connectedAt pingAt =>
      rw [react] at h
      split at h <;> cases h
      exact .connected ‹_›
  | callback outcome =>
      rw [react] at h
      split at h <;> cases h
      exact .callback ‹_›
  | deliver raw arrival =>
      cases h
      exact .deliver
  | timeout ackCheck tickerCheck pingCheck ended =>
      rw [react] at h
      split at h <;> cases h
      exact .timeout ‹_›
  | pinged sentAt ended =>
      rw [react] at h
      split at h <;> cases h
      exact .pinged ‹_›
  | pingFailed exc =>
      rw [react] at h
      split at h <;> cases h
      exact .pingFailed ‹_›
  | receive noted ackCheck tickerCheck ended raised =>
      rw [react] at h
      split at h <;> cases h
      exact .receive ‹_› ‹_›
  | recvFailed exc =>
      rw [react] at h
      split at h <;> cases h
      exact .recvFailed ‹_›
  | closed =>
      rw [react] at h
      split at h <;> cases h
      exact .closed ‹_›

/-- A step is a move at readings that do not run backwards, and sets the clock to the last. -/
theorem StreamStep.move {event : StreamEvent} (h : StreamStep config category s event s') :
    (s.clock :: event.1.readings).IsChain (· ≤ ·) ∧
      ∃ t, StreamMove config category s event.1 event.2 t ∧
        s' = { t with clock := event.1.readings.getLastD s.clock } := by
  obtain ⟨action, effects⟩ := event
  rw [StreamStep, StreamState.next] at h
  split at h
  · rename_i hchain
    obtain ⟨⟨effects', t⟩, hreact, heq⟩ := Option.map_eq_some_iff.mp h
    cases heq
    exact ⟨hchain, t, StreamState.react_move hreact, rfl⟩
  · cases h

end

/-! ## The connection and the lock -/

/-- Whether `_connect_and_listen` is inside its `async with`. -/
def RunTask.isConnected : RunTask → Bool
  | resubscribing | callback | receiving | pinging | closing _ => true
  | _ => false

/-- What holds of the connection and the lock after every run. -/
structure StreamInvariant (s : StreamState) : Prop where
  ws_eq : s.client.ws = if s.runTask.isConnected then some s.connections else none
  run_holds : ∀ sending, s.lock = some (.run, sending) → s.runTask = .resubscribing

/-- The run task stays on its connection and leaves the subscriptions and the lock alone. -/
structure StreamState.Continues (s t : StreamState) : Prop where
  agrees : s.client.Agrees t.client
  connections_eq : t.connections = s.connections
  lock_eq : t.lock = s.lock
  isConnected : t.runTask.isConnected = true

/-- How the listen loop goes on: the run task awaits something on its connection, or leaves it after
the connection was flagged unhealthy. -/
inductive StreamState.LoopsTo (s : StreamState) : StreamState → Prop
  | awaits {task : RunTask} (hconnected : task.isConnected = true) :
      LoopsTo s { s with runTask := task }
  | failed (exit : Exit) : LoopsTo s (s.fail exit)

namespace StreamState

variable {s t u : StreamState}

theorem loopsTo_leave (exit : Exit) : s.LoopsTo (s.leave exit) := .awaits rfl

theorem loopsTo_loopHead : s.LoopsTo s.loopHead := by
  rw [loopHead]
  split
  · exact loopsTo_leave _
  · exact .awaits rfl

theorem loopsTo_callbackReturned (outcome : Except PyExc Unit) :
    s.LoopsTo (s.callbackReturned outcome) := by
  cases outcome with
  | ok returned => exact loopsTo_loopHead
  | error exc => exact loopsTo_leave _

theorem loopsTo_checkWatchdogs {config : Settings} {ackCheck tickerCheck : ℚ}
    (h : s.LoopsTo t) : s.LoopsTo (s.checkWatchdogs config ackCheck tickerCheck t) := by
  rw [checkWatchdogs]
  split
  · exact .failed _
  · -- the ticker watchdog comes after that of the requests
    split
    · exact .failed _
    · exact h

theorem loopsTo_handlerRaised (exc : PyExc) : s.LoopsTo (s.handlerRaised exc) := by
  rw [handlerRaised.eq_def]
  split
  · exact .failed _
  · split
    · exact loopsTo_loopHead
    · exact loopsTo_leave _

/-- Handling a frame goes on from what the client has made of it. -/
theorem loopsTo_receiveFrame (config : Settings) (category : String) (raw : RawJson)
    (noted ackCheck tickerCheck : ℚ) (raised : Option PyExc) :
    { s with client := (s.client.handleRaw category raw noted raised).client }.LoopsTo
      (s.receiveFrame config category raw noted ackCheck tickerCheck raised).2 := by
  rw [receiveFrame]
  dsimp only
  split
  · exact loopsTo_checkWatchdogs loopsTo_loopHead
  · exact loopsTo_handlerRaised _

/-- The listen loop leaves the subscriptions and the lock alone. -/
theorem LoopsTo.continues (h : s.LoopsTo t) : s.Continues t := by
  cases h with
  | awaits hconnected => exact ⟨.refl _, rfl, rfl, hconnected⟩
  | failed exit => exact ⟨BybitWebSocketClient.agrees_setStatus false, rfl, rfl, rfl⟩

/-- The listen loop takes no frame from the inbox but the one that it handles. -/
theorem LoopsTo.inbox_eq (h : s.LoopsTo t) : t.inbox = s.inbox := by
  cases h with
  | awaits => rfl
  | failed exit => rfl

@[simp]
theorem opReturned_client (task : TaskName) (outcome : Except PyExc Unit) :
    (s.opReturned task outcome).client = s.client := by
  rw [opReturned.eq_def]
  repeat' split
  all_goals rfl

@[simp]
theorem opReturned_connections (task : TaskName) (outcome : Except PyExc Unit) :
    (s.opReturned task outcome).connections = s.connections := by
  rw [opReturned.eq_def]
  repeat' split
  all_goals rfl

@[simp]
theorem opReturned_lock (task : TaskName) (outcome : Except PyExc Unit) :
    (s.opReturned task outcome).lock = s.lock := by
  rw [opReturned.eq_def]
  repeat' split
  all_goals rfl

@[simp]
theorem follow_client (task : TaskName) (sendRun : SendRun) :
    (s.follow task sendRun).client = sendRun.client := by
  rw [follow]
  split
  · rfl
  · exact opReturned_client _ _

@[simp]
theorem follow_connections (task : TaskName) (sendRun : SendRun) :
    (s.follow task sendRun).connections = s.connections := by
  rw [follow]
  split
  · rfl
  · exact opReturned_connections _ _

end StreamState

namespace StreamInvariant

variable {s t : StreamState}

theorem start (clock : ℚ) : StreamInvariant (StreamState.start clock) :=
  ⟨rfl, fun _ h => nomatch h⟩

/-- Inside `async with`, `_ws` is the current connection. -/
theorem ws_connected (h : StreamInvariant s) (htask : s.runTask.isConnected = true) :
    s.client.ws = some s.connections := by
  rw [h.ws_eq, if_pos htask]

/-- Outside `async with` there is no connection. -/
theorem ws_disconnected (h : StreamInvariant s) (htask : s.runTask.isConnected = false) :
    s.client.ws = none := by
  rw [h.ws_eq, if_neg (by simp [htask])]

/-- A connection is the current one. -/
theorem ws_current (h : StreamInvariant s) {connection : ℕ}
    (hws : s.client.ws = some connection) : connection = s.connections := by
  rw [h.ws_eq] at hws
  split at hws
  · exact (Option.some.inj hws).symm
  · cases hws

/-- The run task goes on without the lock. -/
theorem continues (h : StreamInvariant s) (htask : s.runTask.isConnected = true)
    (hfree : ∀ sending, s.lock ≠ some (.run, sending)) (hcont : s.Continues t) :
    StreamInvariant t where
  ws_eq := by
    rw [hcont.agrees.ws_eq, hcont.connections_eq, if_pos hcont.isConnected, h.ws_connected htask]
  run_holds := fun sending hlock => absurd (hcont.lock_eq ▸ hlock) (hfree sending)

/-- The run task does not hold the lock outside `resubscribe`. -/
theorem not_run_holds (h : StreamInvariant s) (htask : s.runTask ≠ .resubscribing)
    (sending : Sending) : s.lock ≠ some (.run, sending) :=
  fun hlock => htask (h.run_holds sending hlock)

/-- A task in the critical section goes on. -/
theorem follow (h : StreamInvariant s) {task : TaskName} {sendRun : SendRun}
    (hws : sendRun.client.ws = s.client.ws) (hrun : task = .run → s.runTask = .resubscribing) :
    StreamInvariant (s.follow task sendRun) := by
  rw [StreamState.follow]
  split
  · refine ⟨hws.trans h.ws_eq, fun sending hlock => hrun ?_⟩
    cases hlock
    rfl
  · rename_i outcome _
    -- the lock is released; the run task stays on its connection
    cases task with
    | run =>
        have hconnected := h.ws_connected (by rw [hrun rfl]; rfl)
        cases outcome with
        | ok returned => exact ⟨hws.trans hconnected, fun _ hlock => nomatch hlock⟩
        | error exc => exact ⟨hws.trans hconnected, fun _ hlock => nomatch hlock⟩
    | sync =>
        cases outcome with
        | error exc => exact ⟨hws.trans h.ws_eq, fun _ hlock => nomatch hlock⟩
        | ok returned =>
            rw [StreamState.opReturned]
            split
            · exact ⟨hws.trans h.ws_eq, fun _ hlock => nomatch hlock⟩
            · exact ⟨hws.trans h.ws_eq, fun _ hlock => nomatch hlock⟩

/-- The critical section that a task enters keeps the connection. -/
theorem enter {config : Settings} {category : String} {now : ℚ} {task : TaskName}
    {sendRun : SendRun} (h : StreamInvariant s)
    (henter : s.enter config category now task = some sendRun) :
    StreamInvariant (s.follow task sendRun) := by
  rcases StreamState.enter_cases henter with ⟨rfl, hrun⟩ | ⟨rfl, symbols, rfl⟩
  · exact h.follow (BybitWebSocketClient.sendNext_ws _ _ _) hrun
  · exact h.follow (BybitWebSocketClient.sendNext_ws _ _ _) fun hsync => nomatch hsync

/-- The end of a connection or of an attempt to connect. -/
theorem attemptEnded (h : StreamInvariant s) (htask : s.runTask ≠ .resubscribing)
    (cancelled : Bool) : StreamInvariant (s.attemptEnded cancelled) where
  ws_eq := by
    simp only [StreamState.attemptEnded, BybitWebSocketClient.cleanUp]
    split <;> rfl
  run_holds := fun sending hlock => absurd hlock (h.not_run_holds htask sending)

/-- A run task that was and is not connected, and does not hold the lock. -/
theorem disconnected (h : StreamInvariant s) (hbefore : s.runTask.isConnected = false)
    (hws : t.client.ws = s.client.ws) (hlock : t.lock = s.lock)
    (hafter : t.runTask.isConnected = false) : StreamInvariant t where
  ws_eq := by rw [hws, h.ws_disconnected hbefore, if_neg (by simp [hafter])]
  run_holds := fun sending hrun => by
    rw [h.run_holds sending (hlock ▸ hrun)] at hbefore
    cases hbefore

/-- Every move keeps the invariant. -/
theorem move {config : Settings} {category : String} {action : Action} {effects : List Effect}
    (h : StreamInvariant s) (hmove : StreamMove config category s action effects t) :
    StreamInvariant t := by
  -- a run task that listens or runs the callback does not hold the lock
  have hfree (task : RunTask) (htask : s.runTask = task) (hne : task ≠ .resubscribing) :
      ∀ sending, s.lock ≠ some (.run, sending) := h.not_run_holds (htask ▸ hne)
  cases hmove with
  | requestStop => exact ⟨h.ws_eq, h.run_holds⟩
  | sync hidle => exact ⟨h.ws_eq, h.run_holds⟩
  | acquire hunlocked henter => exact h.enter henter
  | sent hheld =>
      refine h.follow (BybitWebSocketClient.resumeSend_ws _ _) fun hrun => ?_
      exact h.run_holds _ (hrun ▸ hheld)
  | cancelBackoff htask => exact h.disconnected (by rw [htask]; rfl) rfl rfl rfl
  | cancelClosing htask => exact h.attemptEnded (by simp [htask]) true
  | cancelWaiting htask hwaits =>
      exact h.continues (by rw [htask]; rfl) hwaits (StreamState.loopsTo_leave _).continues
  | cancelSync hwaits => exact ⟨h.ws_eq, h.run_holds⟩
  | stopped htask hstop => exact h.disconnected (by rw [htask]; rfl) rfl rfl rfl
  | connect htask hstop => exact h.disconnected (by rw [htask]; rfl) rfl rfl rfl
  | connectFailed htask => exact h.attemptEnded (by simp [htask]) _
  | connected htask => exact ⟨rfl, fun _ _ => rfl⟩
  | callback htask =>
      exact h.continues (by rw [htask]; rfl) (hfree _ htask nofun)
        (StreamState.loopsTo_callbackReturned _).continues
  | deliver => exact ⟨h.ws_eq, h.run_holds⟩
  | timeout htask =>
      refine h.continues (by rw [htask]; rfl) (hfree _ htask nofun)
        (StreamState.loopsTo_checkWatchdogs ?_).continues
      split
      · exact .awaits rfl
      · exact StreamState.loopsTo_loopHead
  | pinged htask =>
      obtain ⟨hagrees, hconnections, hlock, hconnected⟩ :=
        (@StreamState.loopsTo_loopHead
          { s with client := { s.client with lastPingAt := _ } }).continues
      exact h.continues (by rw [htask]; rfl) (hfree _ htask nofun)
        ⟨⟨hagrees.ws_eq, hagrees.subscribed_eq, hagrees.pending_eq, hagrees.sequence_eq⟩,
          hconnections, hlock, hconnected⟩
  | pingFailed htask =>
      exact h.continues (by rw [htask]; rfl) (hfree _ htask nofun)
        (StreamState.loopsTo_leave _).continues
  | @receive noted ackCheck tickerCheck ended raised raw arrival inbox htask hinbox =>
      have hcont := (StreamState.loopsTo_receiveFrame config category raw noted ackCheck
        tickerCheck raised (s := { s with inbox })).continues
      -- the handler does not touch the connection, and the loop goes on from it
      refine ⟨?_, fun sending hlock => ?_⟩
      · rw [hcont.agrees.ws_eq, hcont.connections_eq, if_pos hcont.isConnected]
        exact (BybitWebSocketClient.handleRaw_ws _ _ _).trans (h.ws_connected (by rw [htask]; rfl))
      · rw [hcont.lock_eq] at hlock
        exact absurd hlock (hfree _ htask nofun sending)
  | recvFailed htask =>
      exact h.continues (by rw [htask]; rfl) (hfree _ htask nofun)
        (StreamState.loopsTo_leave _).continues
  | closed htask => exact h.attemptEnded (by simp [htask]) _

end StreamInvariant

/-- A run of a stream from a fresh client. -/
def StreamRun (config : AdmittedSettings) (category : String) (clock : ℚ)
    (events : List StreamEvent) (s : StreamState) : Prop :=
  Trace (StreamStep config.toSettings category) (StreamState.start clock) events s

/-- Every run keeps the invariant. -/
theorem StreamRun.invariant {config : AdmittedSettings} {category : String} {clock : ℚ}
    {events : List StreamEvent} {s : StreamState} (h : StreamRun config category clock events s) :
    StreamInvariant s := by
  -- the clock is no part of the invariant
  refine Trace.stateInvariant (StreamInvariant.start clock) (fun s event s' hs hstep => ?_) h
  obtain ⟨-, t, hmove, rfl⟩ := StreamStep.move hstep
  exact ⟨(hs.move hmove).ws_eq, (hs.move hmove).run_holds⟩

/-- Execute actions on a fresh client. -/
def perform (config : AdmittedSettings) (category : String) (clock : ℚ) (actions : List Action) :
    List StreamEvent × StreamState :=
  Trace.exec (StreamState.next config.toSettings category) (StreamState.start clock) [] actions

/-- What is executed is a step with the given action. -/
theorem StreamState.next_step {config : Settings} {category : String} {s s' : StreamState}
    {action : Action} {event : StreamEvent}
    (h : s.next config category action = some (event, s')) :
    event.1 = action ∧ StreamStep config category s event s' := by
  have haction : event.1 = action := by
    rw [next] at h
    split at h
    · obtain ⟨result, -, heq⟩ := Option.map_eq_some_iff.mp h
      cases heq
      rfl
    · cases h
  exact ⟨haction, by rwa [StreamStep, haction]⟩

theorem run_perform (config : AdmittedSettings) (category : String) (clock : ℚ)
    (actions : List Action) :
    StreamRun config category clock (perform config category clock actions).1
      (perform config category clock actions).2 := by
  refine Trace.exec_trace (fun s action event s' h => ?_) actions Trace.nil
  exact (StreamState.next_step h).2

end BybitMonitor
