import Mathlib
import BybitMonitor.Bybit.Stream
import BybitMonitor.Market.PriceEngine

/-!
# The feed of the application

`Application` passes `_on_ws_reconnect` to its streams, so that `on_connected` polls the tickers
over REST once. A feed is a stream that is wired in this way.

* `FeedRun.stream`: a run of the feed is a run of the stream.
* `feed_kept_iff`: the feed survives its own polls, and ends a connection for a reason of the
  stream only, if and only if no poll raises.
-/

namespace BybitMonitor

/-- One call of `on_connected`: whether the application has a poll service yet, the price engine
that the poll finds, and what the poll is answered. -/
structure ReconnectCall where
  polls : Bool := true
  engine : PriceEngine := {}
  replies : PollReplies := {}

/-- `Application._on_ws_reconnect`. -/
def onWsReconnect (config : Settings) (call : ReconnectCall) : Except PyExc Unit × PriceEngine :=
  if call.polls then
    let (outcome, engine) := TickerPollService.pollOnce config call.engine call.replies
    (outcome.map fun _ => (), engine)
  else (.ok (), call.engine)

/-- `WebSocketManager._on_connected`: the callback awaits `on_reconnect`. -/
def onConnected (config : Settings) (call : ReconnectCall) : Except PyExc Unit :=
  (onWsReconnect config call).1

/-- The poll of the call raises an exception other than the cancellation of its task. -/
def ReconnectCall.Fails (config : Settings) (call : ReconnectCall) : Prop :=
  call.polls = true ∧
    ∃ exc, TickerPollService.firstFailure config call.replies = some exc ∧ exc.isException = true

/-- The steps of a feed. -/
inductive FeedAction
  | stream (action : Action)
  /-- `on_connected` returns or raises. -/
  | reconnect (call : ReconnectCall)

/-- A step of a run with its effects. -/
abbrev FeedEvent := FeedAction × List Effect

namespace FeedAction

/-- The action of the stream. -/
def toAction (config : Settings) : FeedAction → Action
  | stream action => action
  | reconnect call => .callback (onConnected config call)

/-- The callback of the stream is the one of the application. -/
def isWired : FeedAction → Bool
  | stream (.callback _) => false
  | _ => true

/-- The step is a failing poll. -/
def Fails (config : Settings) : FeedAction → Prop
  | reconnect call => call.Fails config
  | _ => False

end FeedAction

/-- One step of a feed. -/
def FeedStep (config : Settings) (category : String) (s : StreamState) (event : FeedEvent)
    (s' : StreamState) : Prop :=
  event.1.isWired = true ∧ StreamStep config category s (event.1.toAction config, event.2) s'

/-- A run of a feed from a fresh client. -/
def FeedRun (config : AdmittedSettings) (category : String) (clock : ℚ) (events : List FeedEvent)
    (s : StreamState) : Prop :=
  Trace (FeedStep config.toSettings category) (StreamState.start clock) events s

/-- A run of the feed is a run of the stream. -/
theorem FeedRun.stream {config : AdmittedSettings} {category : String} {clock : ℚ}
    {events : List FeedEvent} {s : StreamState} (h : FeedRun config category clock events s) :
    StreamRun config category clock
      (events.map (Prod.map (FeedAction.toAction config.toSettings) id)) s := by
  induction h with
  | nil => exact Trace.nil
  | snoc prior last ih =>
      rw [List.map_append]
      exact Trace.snoc ih last.2

/-- The reasons for which a connection may end. -/
def Exit.IsExpected : Exit → Prop
  | callbackRaised _ => False
  | _ => True

theorem Exit.isExpected_ofRaise {failed : PyExc → Exit} {exc : PyExc}
    (h : (failed exc).IsExpected) : (Exit.ofRaise failed exc).IsExpected := by
  rw [ofRaise]
  split
  · exact h
  · trivial

/-- A step keeps the feed: it ends a connection for an expected reason only, and after
`on_connected` the listen loop runs, unless a stop is requested or the task is cancelled. -/
structure FeedKept (s : StreamState) (event : FeedEvent) (s' : StreamState) : Prop where
  exit_expected : ∀ exit, s'.runTask = .closing exit → s.runTask ≠ .closing exit → exit.IsExpected
  listens : ∀ call, event.1 = .reconnect call →
    s'.runTask = .receiving ∨ s'.runTask = .closing .stopRequested ∨
      s'.runTask = .closing .cancelled

section

variable {config : Settings} {category : String} {s t : StreamState} {action : Action}
  {effects : List Effect}

/-- `on_connected` raises what the first failing reply of its poll is. -/
theorem onConnected_error_iff {call : ReconnectCall} {exc : PyExc} :
    onConnected config call = .error exc ↔
      call.polls = true ∧ TickerPollService.firstFailure config call.replies = some exc := by
  rw [onConnected, onWsReconnect]
  cases call.polls with
  | false => simp
  | true =>
      rw [← @TickerPollService.pollOnce_error_iff config call.engine]
      cases hpoll : TickerPollService.pollOnce config call.engine call.replies with
      | mk outcome engine => cases outcome <;> simp [Except.map]

/-- The run task is in no close handshake for an unexpected reason. -/
def StreamState.EndsExpected (s : StreamState) : Prop :=
  ∀ exit, s.runTask = .closing exit → exit.IsExpected

namespace StreamState

theorem endsExpected_leave {exit : Exit} (h : exit.IsExpected) : (s.leave exit).EndsExpected := by
  rintro _ ⟨⟩
  exact h

theorem endsExpected_fail {exit : Exit} (h : exit.IsExpected) : (s.fail exit).EndsExpected := by
  rintro _ ⟨⟩
  exact h

theorem endsExpected_loopHead : s.loopHead.EndsExpected := by
  rw [loopHead]
  split
  · exact endsExpected_leave trivial
  · intro exit hexit
    cases hexit

theorem endsExpected_checkWatchdogs {ackCheck tickerCheck : ℚ} (h : t.EndsExpected) :
    (s.checkWatchdogs config ackCheck tickerCheck t).EndsExpected := by
  rw [checkWatchdogs]
  split
  · exact endsExpected_fail trivial
  · split
    · exact endsExpected_fail trivial
    · exact h

theorem endsExpected_handlerRaised (exc : PyExc) : (s.handlerRaised exc).EndsExpected := by
  rw [handlerRaised.eq_def]
  split
  · exact endsExpected_fail trivial
  · split
    · exact endsExpected_loopHead
    · exact endsExpected_leave trivial

theorem endsExpected_receiveFrame (raw : RawJson) (noted ackCheck tickerCheck : ℚ)
    (raised : Option PyExc) :
    (s.receiveFrame config category raw noted ackCheck tickerCheck raised).2.EndsExpected := by
  rw [receiveFrame]
  dsimp only
  split
  · exact endsExpected_checkWatchdogs endsExpected_loopHead
  · exact endsExpected_handlerRaised _

/-- A task that leaves its critical section ends the connection only if a send raised. -/
theorem follow_expected (task : TaskName) (sendRun : SendRun) {exit : Exit}
    (hexit : (s.follow task sendRun).runTask = .closing exit)
    (hopen : s.runTask ≠ .closing exit) : exit.IsExpected := by
  rw [follow] at hexit
  split at hexit
  · exact absurd hexit hopen
  · rename_i outcome _
    -- only `resubscribe` of the run task can end the connection
    cases task with
    | run =>
        cases outcome with
        | ok returned => cases hexit
        | error exc =>
            exact endsExpected_leave (@Exit.isExpected_ofRaise .sendFailed exc trivial) _ hexit
    | sync =>
        rw [opReturned.eq_def] at hexit
        cases outcome with
        | error exc => exact absurd hexit hopen
        | ok returned =>
            dsimp only at hexit
            split at hexit
            · exact absurd hexit hopen
            · exact absurd hexit hopen

end StreamState

/-- A move other than the end of the callback enters the close handshake for an expected reason. -/
theorem StreamMove.exit_expected (hmove : StreamMove config category s action effects t)
    (hcallback : ∀ outcome, action ≠ .callback outcome) {exit : Exit}
    (hexit : t.runTask = .closing exit) (hopen : s.runTask ≠ .closing exit) :
    exit.IsExpected := by
  have hended (cancelled : Bool) (hclosing : (s.attemptEnded cancelled).runTask = .closing exit) :
      exit.IsExpected := by
    simp only [StreamState.attemptEnded] at hclosing
    split at hclosing <;> cases hclosing
  -- the ends of the connection, by the statement that raises or leaves the loop
  cases hmove with
  | acquire hfree henter => exact StreamState.follow_expected _ _ hexit hopen
  | sent hheld => exact StreamState.follow_expected _ _ hexit hopen
  | cancelClosing htask => exact hended _ hexit
  | cancelWaiting htask hwaits =>
      cases hexit
      trivial
  | connectFailed htask => exact hended _ hexit
  | callback htask => exact absurd rfl (hcallback _)
  | timeout htask =>
      refine StreamState.endsExpected_checkWatchdogs ?_ _ hexit
      split
      · intro exit hexit
        cases hexit
      · exact StreamState.endsExpected_loopHead
  | pinged htask => exact StreamState.endsExpected_loopHead _ hexit
  | @pingFailed exc htask =>
      exact StreamState.endsExpected_leave (@Exit.isExpected_ofRaise .sendFailed exc trivial) _
        hexit
  | receive htask hinbox => exact StreamState.endsExpected_receiveFrame _ _ _ _ _ _ hexit
  | @recvFailed exc htask =>
      exact StreamState.endsExpected_leave (@Exit.isExpected_ofRaise .recvFailed exc trivial) _
        hexit
  | closed htask => exact hended _ hexit
  | cancelBackoff htask => cases hexit
  | stopped htask hstop => cases hexit
  | connect htask hstop => cases hexit
  | connected htask => cases hexit
  | _ => exact absurd hexit hopen

/-- One step keeps the feed unless it is a failing poll. -/
theorem FeedStep.kept_iff {event : FeedEvent} {s' : StreamState}
    (hstep : FeedStep config category s event s') :
    FeedKept s event s' ↔ ¬ event.1.Fails config := by
  obtain ⟨hwired, hstream⟩ := hstep
  obtain ⟨-, t, hmove, rfl⟩ := hstream.move
  obtain ⟨action, effects⟩ := event
  -- the callback returns what the poll returns or raises
  cases action with
  | stream action =>
      -- the stream has no callback of its own
      refine iff_of_true ⟨fun exit hexit hopen => ?_, fun call hcall => nomatch hcall⟩ id
      refine hmove.exit_expected (fun outcome heq => ?_) hexit hopen
      cases heq
      cases hwired
  | reconnect call =>
      dsimp only [FeedAction.toAction] at hmove
      generalize houtcome : onConnected config call = outcome at hmove
      cases hmove with
      | callback htask =>
          cases outcome with
          | ok returned =>
              refine iff_of_true ⟨fun exit hexit _ => ?_, fun _ _ => ?_⟩ ?_
              · exact StreamState.endsExpected_loopHead _ hexit
              · change s.loopHead.runTask = .receiving ∨
                  s.loopHead.runTask = .closing .stopRequested ∨ _
                rw [StreamState.loopHead]
                cases s.stop <;> simp [StreamState.leave]
              · rintro ⟨hpolls, exc, hfailure, -⟩
                cases houtcome.symm.trans (onConnected_error_iff.mpr ⟨hpolls, hfailure⟩)
          | error exc =>
              obtain ⟨hpolls, hfailure⟩ := onConnected_error_iff.mp houtcome
              cases hexception : exc.isException with
              | true =>
                  -- the exception leaves `async with`
                  refine iff_of_false (fun hkept => ?_) (not_not_intro ⟨hpolls, exc, hfailure,
                    hexception⟩)
                  refine hkept.exit_expected (.callbackRaised exc) ?_ (by simp [htask])
                  simp [StreamState.callbackReturned, StreamState.leave, Exit.ofRaise, hexception]
              | false =>
                  have hcancelled : (s.callbackReturned (.error exc)).runTask =
                      .closing .cancelled := by
                    simp [StreamState.callbackReturned, StreamState.leave, Exit.ofRaise,
                      hexception]
                  refine iff_of_true ⟨fun exit hexit _ => ?_, fun _ _ => ?_⟩ ?_
                  · cases hcancelled.symm.trans hexit
                    trivial
                  · exact Or.inr (Or.inr hcancelled)
                  · rintro ⟨-, exc', hfailure', hexception'⟩
                    cases hfailure.symm.trans hfailure'
                    cases hexception.symm.trans hexception'

end

/-- A run of the feed keeps it in every step if and only if no poll of the run fails. -/
theorem feed_kept_iff {config : AdmittedSettings} {category : String} {clock : ℚ}
    {events : List FeedEvent} {s : StreamState} (h : FeedRun config category clock events s) :
    Trace.EveryStep (FeedStep config.toSettings category) (StreamState.start clock) events
        FeedKept ↔
      ∀ event ∈ events, ¬ event.1.Fails config.toSettings :=
  (Trace.EveryStep.congr fun _ _ _ _ _ _ hstep => hstep.kept_iff).trans (Trace.everyStep_label h)

/-- Execute actions on a fresh client. -/
def performFeed (config : AdmittedSettings) (category : String) (clock : ℚ)
    (actions : List FeedAction) : List FeedEvent × StreamState :=
  Trace.exec
    (fun s action =>
      if action.isWired then
        (s.next config.toSettings category (action.toAction config.toSettings)).map
          fun (event, s') => ((action, event.2), s')
      else none)
    (StreamState.start clock) [] actions

theorem run_performFeed (config : AdmittedSettings) (category : String) (clock : ℚ)
    (actions : List FeedAction) :
    FeedRun config category clock (performFeed config category clock actions).1
      (performFeed config category clock actions).2 := by
  refine Trace.exec_trace (fun s action event s' h => ?_) actions Trace.nil
  split at h
  · rename_i hwired
    obtain ⟨⟨streamEvent, t⟩, hnext, heq⟩ := Option.map_eq_some_iff.mp h
    cases heq
    obtain ⟨haction, hstep⟩ := StreamState.next_step hnext
    refine ⟨hwired, ?_⟩
    dsimp only
    rwa [← haction]
  · cases h

/-- A connection whose poll is answered, and which then receives a frame that is no JSON. -/
def answeredPoll : List FeedAction :=
  [.stream .connect, .stream (.connected 0 0), .stream (.acquire .run 0), .reconnect {},
    .stream (.deliver none 1), .stream (.receive 1 1 1 1 none)]

theorem feed_kept_answeredPoll :
    Trace.EveryStep (FeedStep AdmittedSettings.default.toSettings "spot") (StreamState.start 0)
        (performFeed .default "spot" 0 answeredPoll).1 FeedKept ∧
      (performFeed .default "spot" 0 answeredPoll).2.runTask = .receiving := by
  have hanswered : ∀ action ∈ answeredPoll,
      ¬ action.Fails AdmittedSettings.default.toSettings := by
    simp [answeredPoll, FeedAction.Fails, ReconnectCall.Fails, TickerPollService.firstFailure,
      failure]
  refine ⟨(feed_kept_iff (run_performFeed .default "spot" 0 answeredPoll)).mpr ?_,
    by decide +kernel⟩
  refine Trace.exec_labels (fun s action haction event s' h => ?_) (by simp)
  split at h
  · obtain ⟨result, -, heq⟩ := Option.map_eq_some_iff.mp h
    cases heq
    exact hanswered action haction
  · cases h

/-- A fresh connection whose poll meets a failing REST call. -/
def unansweredPoll : ReconnectCall := { replies := { spot := .error .bybitError } }

/-- The connection ends although its socket is healthy. -/
theorem feed_ended_by_unansweredPoll :
    ¬ ∀ config category clock events s, FeedRun config category clock events s →
      Trace.EveryStep (FeedStep config.toSettings category) (StreamState.start clock) events
        FeedKept := by
  intro hclaim
  have hrun := run_performFeed .default "spot" 0
    [.stream .connect, .stream (.connected 0 0), .stream (.acquire .run 0)]
  obtain ⟨⟨event, s'⟩, hnext⟩ : ∃ result, (performFeed .default "spot" 0
      [.stream .connect, .stream (.connected 0 0), .stream (.acquire .run 0)]).2.next
      AdmittedSettings.default.toSettings "spot"
      (.callback (onConnected AdmittedSettings.default.toSettings unansweredPoll)) = some result :=
    Option.isSome_iff_exists.mp (by decide +kernel)
  obtain ⟨haction, hstep⟩ := StreamState.next_step hnext
  have hfeed : FeedStep AdmittedSettings.default.toSettings "spot" (performFeed .default "spot" 0
      [.stream .connect, .stream (.connected 0 0), .stream (.acquire .run 0)]).2
      (.reconnect unansweredPoll, event.2) s' := by
    refine ⟨rfl, ?_⟩
    rw [FeedAction.toAction, ← haction]
    exact hstep
  have hkept := (hclaim _ _ _ _ _ (hrun.snoc hfeed)).of_append.2 _ _ hrun hfeed
  exact hfeed.kept_iff.mp hkept ⟨rfl, .bybitError, by decide +kernel, rfl⟩

end BybitMonitor
