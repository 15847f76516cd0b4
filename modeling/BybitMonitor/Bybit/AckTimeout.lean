import Mathlib
import BybitMonitor.Bybit.Subscriptions
import BybitMonitor.Bybit.Watchdog

/-!
# Acknowledgement timeouts

The listen loop judges the age of a pending request when it gets to check it. Frames wait in the
inbox meanwhile: behind other frames, and while `on_connected` runs. The check after one frame may
find a request overdue whose acknowledgement is the next frame.

* `AcksQueued`: an acknowledgement of a pending request that was delivered after the request is
  still in the inbox.
* `ackTimeout_sound`: if no check is made while every overdue request has its acknowledgement in
  the inbox, then a connection is torn down only for a request that was not acknowledged in time.
* `ackTimeout_with_queued_ack`: two batches, both acknowledged after a second, and a callback of
  eleven seconds.
-/

namespace BybitMonitor

/-- Whether a frame is handled as the acknowledgement of a request. -/
def acknowledges (raw : RawJson) (reqId : String) : Bool :=
  match raw.loads with
  | .ok (.object data) =>
      match BybitWebSocketClient.topicOf data with
      | .ok _ =>
          (Json.get data "op").isString "subscribe" && (Json.get data "req_id").isString reqId
      | .error _ => false
  | _ => false

/-- The frames that were delivered, with the times of their arrival. -/
def deliveriesOf (events : List StreamEvent) : List (RawJson × ℚ) :=
  events.filterMap fun event =>
    match event.1 with
    | .deliver raw arrival => some (raw, arrival)
    | _ => none

/-- The frame was delivered after the request was registered. -/
def DeliveredAfter (events : List StreamEvent) (request : PendingSubscription)
    (frame : RawJson × ℚ) : Prop :=
  ∃ n, request ∈ requestsOf (effectsOf (events.take n)) ∧ frame ∈ deliveriesOf (events.drop n)

/-- The frame acknowledges the request before its timeout. -/
def AcksInTime (config : AdmittedSettings) (request : PendingSubscription)
    (frame : RawJson × ℚ) : Prop :=
  acknowledges frame.1 request.reqId = true ∧
    (PyFloat.elapsed frame.2 request.sentAt).le config.wsSubscriptionAckTimeoutSeconds = true

/-- The reading of the clock at which a step checks the pending requests. -/
def Action.ackCheckAt : Action → Option ℚ
  | .timeout ackCheck _ _ _ => some ackCheck
  | .receive _ ackCheck _ _ _ => some ackCheck
  | _ => none

/-- Whether the connection is being torn down for an acknowledgement timeout. -/
def StreamState.TornDown (s : StreamState) : Prop := s.runTask = .closing .ackTimeout

instance (s : StreamState) : Decidable s.TornDown :=
  inferInstanceAs (Decidable (s.runTask = .closing .ackTimeout))

/-- A step that tears the connection down for an acknowledgement timeout does so for a request
whose acknowledgement was not delivered in time. -/
def AckTimeoutSound (config : AdmittedSettings) (events : List StreamEvent) (s : StreamState)
    (event : StreamEvent) (s' : StreamState) : Prop :=
  ¬ s.TornDown → s'.TornDown →
    ∃ now request, event.1.ackCheckAt = some now ∧ request ∈ s'.client.pendingSubscriptions ∧
      request.Overdue config now ∧
      ∀ frame, DeliveredAfter events request frame → ¬ AcksInTime config request frame

/-- Some pending request is overdue, and each that is has its acknowledgement in the inbox. -/
def AcksWaiting (config : AdmittedSettings) (client : BybitWebSocketClient)
    (inbox : List (RawJson × ℚ)) (now : ℚ) : Prop :=
  client.AckOverdue config now ∧
    ∀ request ∈ client.pendingSubscriptions, request.Overdue config now →
      ∃ frame ∈ inbox, AcksInTime config request frame

/-- The step checks the pending requests while the acknowledgements of those that are overdue wait
in the inbox. -/
def ChecksTooEarly (config : AdmittedSettings) (category : String) (s : StreamState) :
    Action → Prop
  | .timeout ackCheck _ _ _ => AcksWaiting config s.client s.inbox ackCheck
  | .receive noted ackCheck _ _ raised =>
      ∃ raw arrival inbox, s.inbox = (raw, arrival) :: inbox ∧
        let handled := s.client.handleRaw category raw noted raised
        handled.result = .ok () ∧ AcksWaiting config handled.client inbox ackCheck
  | _ => False

theorem Json.eq_of_isString {value : Json} {text : String} (h : value.isString text = true) :
    value = .string text := by
  cases value with
  | string other => rw [of_decide_eq_true h]
  | _ => cases h

namespace BybitWebSocketClient

variable {client : BybitWebSocketClient} {category : String}

/-- An acknowledgement resolves the requests that have its id. -/
theorem handleSubscribeAck_resolves {data : List (String × Json)} {text : String}
    (hreqId : Json.get data "req_id" = .string text) (hne : text ≠ "") :
    ∀ pending ∈ (client.handleSubscribeAck data).client.pendingSubscriptions,
      pending.reqId ≠ text := by
  rw [handleSubscribeAck, hreqId, lookupPending_string hne]
  cases hfind : client.pendingSubscriptions.find? (fun p => p.reqId = text) with
  | none =>
      intro pending hpending
      simpa using List.find?_eq_none.mp hfind pending hpending
  | some found =>
      have hfound : found.reqId = text := by simpa using List.find?_some hfind
      dsimp only
      -- the request is dropped whether it is confirmed or rejected
      split <;> (intro pending hpending; simpa [dropPending, hfound] using
        (List.mem_filter.mp hpending).2)

theorem handleRaw_resolves {raw : RawJson} {reqId : String}
    (hacks : acknowledges raw reqId = true) (hne : reqId ≠ "") (noted : ℚ)
    (raised : Option PyExc) :
    ∀ pending ∈ (client.handleRaw category raw noted raised).client.pendingSubscriptions,
      pending.reqId ≠ reqId := by
  rw [acknowledges] at hacks
  split at hacks
  · rename_i data hloads
    split at hacks
    · rename_i topic htopic
      obtain ⟨hop, hreqId⟩ := Bool.and_eq_true_iff.mp hacks
      rw [handleRaw, hloads]
      dsimp only
      rw [htopic]
      dsimp only
      rw [if_pos hop]
      exact handleSubscribeAck_resolves (Json.eq_of_isString hreqId) hne
    · cases hacks
  · cases hacks

/-- Handling a frame registers nothing. -/
theorem handleRaw_pending (raw : RawJson) (noted : ℚ) (raised : Option PyExc) :
    (client.handleRaw category raw noted raised).client.pendingSubscriptions ⊆
      client.pendingSubscriptions := by
  rcases @handleRaw_cases client category raw noted raised with
    ⟨noticed, data, hagrees, heq⟩ | ⟨hagrees, -⟩
  · rw [heq, handleSubscribeAck, ← hagrees.pending_eq]
    dsimp only
    split
    · exact List.Subset.refl _
    · exact List.Subset.refl _
    · split <;> exact List.filter_subset_self _
  · rw [hagrees.pending_eq]
    exact List.Subset.refl _

/-- What a batch loop leaves pending was pending before or is registered by it. -/
theorem sendNext_pending (op : TopicOp) (now : ℚ) (rounds : List (List String)) :
    (client.sendNext category op now rounds).client.pendingSubscriptions ⊆
      client.pendingSubscriptions ++
        requestsOf (client.sendNext category op now rounds).effects := by
  -- without a connection the request is withdrawn at once
  cases rounds with
  | nil => exact List.subset_append_left _ _
  | cons batch rest =>
      rw [sendNext.eq_def]
      dsimp only
      split
      · exact List.Subset.refl _
      · exact List.filter_subset_self _
      · exact List.subset_append_left _ _
      · exact List.subset_append_left _ _

theorem resumeSend_pending (sending : Sending) (outcome : Except PyExc ℚ) :
    (client.resumeSend category sending outcome).client.pendingSubscriptions ⊆
      client.pendingSubscriptions ++
        requestsOf (client.resumeSend category sending outcome).effects := by
  cases outcome with
  | ok now =>
      rw [resumeSend]
      split
      · exact sendNext_pending _ _ _
      · exact sendNext_pending _ _ _
  | error exc =>
      rw [resumeSend]
      split
      · split
        · exact fun pending hmem =>
            List.mem_append_left _ (List.mem_filter.mp hmem).1
        · exact List.subset_append_left _ _
      · exact List.subset_append_left _ _

end BybitWebSocketClient

namespace StreamState

variable {s t : StreamState}

@[simp]
theorem opReturned_inbox (task : TaskName) (outcome : Except PyExc Unit) :
    (s.opReturned task outcome).inbox = s.inbox := by
  rw [opReturned.eq_def]
  repeat' split
  all_goals rfl

@[simp]
theorem follow_inbox (task : TaskName) (sendRun : SendRun) :
    (s.follow task sendRun).inbox = s.inbox := by
  rw [follow]
  split
  · rfl
  · exact opReturned_inbox _ _

/-- The run task is connected when it goes on after a critical section, or was before. -/
theorem follow_isConnected {task : TaskName} {sendRun : SendRun}
    (hrun : task = .run → s.runTask = .resubscribing)
    (h : (s.follow task sendRun).runTask.isConnected = true) : s.runTask.isConnected = true := by
  cases task with
  -- the run task sends in `resubscribe`, on its connection
  | run => rw [hrun rfl]; rfl
  | sync =>
      have hsame : (s.follow .sync sendRun).runTask = s.runTask := by
        rw [follow]
        split
        · rfl
        · rename_i outcome _
          cases outcome with
          | error exc => rfl
          | ok returned =>
              rw [opReturned]
              split <;> rfl
      rwa [hsame] at h

theorem ofRaise_ne_ackTimeout {failed : PyExc → Exit} (hfailed : ∀ exc, failed exc ≠ .ackTimeout)
    (exc : PyExc) : Exit.ofRaise failed exc ≠ .ackTimeout := by
  rw [Exit.ofRaise]
  split
  · exact hfailed exc
  · exact Exit.noConfusion

theorem not_tornDown_leave {exit : Exit} (hexit : exit ≠ .ackTimeout) :
    ¬ (s.leave exit).TornDown :=
  fun h => hexit (RunTask.closing.inj h)

theorem not_tornDown_loopHead : ¬ s.loopHead.TornDown := by
  rw [TornDown, loopHead]
  split
  · exact not_tornDown_leave Exit.noConfusion
  · exact RunTask.noConfusion

theorem not_tornDown_handlerRaised (exc : PyExc) : ¬ (s.handlerRaised exc).TornDown := by
  rw [TornDown, handlerRaised.eq_def]
  split
  · exact fun h => Exit.noConfusion (RunTask.closing.inj h)
  · split
    · exact not_tornDown_loopHead
    · exact not_tornDown_leave Exit.noConfusion

theorem not_tornDown_callbackReturned (outcome : Except PyExc Unit) :
    ¬ (s.callbackReturned outcome).TornDown := by
  cases outcome with
  | ok returned => exact not_tornDown_loopHead
  | error exc => exact not_tornDown_leave (ofRaise_ne_ackTimeout (fun _ => Exit.noConfusion) exc)

theorem not_tornDown_attemptEnded (cancelled : Bool) : ¬ (s.attemptEnded cancelled).TornDown := by
  rw [TornDown, attemptEnded]
  dsimp only
  split <;> exact RunTask.noConfusion

/-- A task that leaves or goes on in a critical section tears nothing down. -/
theorem tornDown_of_follow {task : TaskName} {sendRun : SendRun}
    (h : (s.follow task sendRun).TornDown) : s.TornDown := by
  rw [TornDown, follow] at h
  split at h
  · exact h
  · rename_i outcome _
    -- a send that raises leaves with its own exit
    cases task with
    | run =>
        cases outcome with
        | ok returned => cases h
        | error exc =>
            exact absurd h
              (not_tornDown_leave (ofRaise_ne_ackTimeout (fun _ => Exit.noConfusion) exc))
    | sync =>
        cases outcome with
        | error exc => exact h
        | ok returned =>
            rw [opReturned] at h
            split at h <;> exact h

/-- The checks tear the connection down for an overdue request, and leave it pending. -/
theorem tornDown_of_checkWatchdogs {config : AdmittedSettings} {ackCheck tickerCheck : ℚ}
    (hhealthy : ¬ t.TornDown)
    (h : (s.checkWatchdogs config.toSettings ackCheck tickerCheck t).TornDown) :
    s.client.AckOverdue config ackCheck ∧
      (s.checkWatchdogs config.toSettings ackCheck tickerCheck t).client.pendingSubscriptions =
        s.client.pendingSubscriptions ∧
      (s.checkWatchdogs config.toSettings ackCheck tickerCheck t).inbox = s.inbox := by
  rw [TornDown, checkWatchdogs] at h
  rw [checkWatchdogs]
  split at h
  · -- the check of the requests comes before the check of the tickers
    rename_i hoverdue
    rw [if_pos hoverdue]
    exact ⟨BybitWebSocketClient.failUnackedSubscriptions_iff.mp hoverdue, rfl, rfl⟩
  · split at h
    · exact absurd (RunTask.closing.inj h) Exit.noConfusion
    · exact absurd h hhealthy

end StreamState

/-- What happens to the pending requests and to the frames in the inbox. A frame leaves it only if
it acknowledges no request that is still pending. -/
structure KeepsInbox (s : StreamState) (event : StreamEvent) (t : StreamState) : Prop where
  wasConnected : s.runTask.isConnected = true
  pending : t.client.pendingSubscriptions ⊆ s.client.pendingSubscriptions ++ requestsOf event.2
  inbox : ∀ frame ∈ s.inbox ++ deliveriesOf [event], frame ∈ t.inbox ∨
    ∀ pending ∈ t.client.pendingSubscriptions, acknowledges frame.1 pending.reqId = false

section

variable {config : Settings} {category : String} {s t : StreamState} {action : Action}
  {effects : List Effect}

/-- A move that leaves pending requests and inbox alone. -/
theorem KeepsInbox.same (hconnected : s.runTask.isConnected = true)
    (hpending : t.client.pendingSubscriptions = s.client.pendingSubscriptions)
    (hinbox : t.inbox = s.inbox) (hdeliver : deliveriesOf [(action, effects)] = []) :
    KeepsInbox s (action, effects) t where
  wasConnected := hconnected
  pending := by
    rw [hpending]
    exact List.subset_append_left _ _
  inbox := by
    rw [hdeliver, List.append_nil, hinbox]
    exact fun frame hframe => Or.inl hframe

theorem StreamState.LoopsTo.keepsInbox (h : s.LoopsTo t) (hconnected : s.runTask.isConnected = true)
    (hdeliver : deliveriesOf [(action, effects)] = []) : KeepsInbox s (action, effects) t :=
  .same hconnected h.continues.agrees.pending_eq h.inbox_eq hdeliver

/-- While a connection is open, a move either opens it or keeps the inbox for the requests that are
pending after it. -/
theorem StreamMove.keepsInbox (hmove : StreamMove config category s action effects t)
    (hs : StreamInvariant s) (hids : ∀ pending ∈ s.client.pendingSubscriptions, pending.reqId ≠ "")
    (ht : t.runTask.isConnected = true) :
    t.client.pendingSubscriptions = [] ∨ KeepsInbox s (action, effects) t := by
  cases hmove with
  | requestStop => exact Or.inr (.same ht rfl rfl rfl)
  | sync => exact Or.inr (.same ht rfl rfl rfl)
  | @acquire task now sendRun hfree henter =>
      -- the sends register what they request
      have hpending : sendRun.client.pendingSubscriptions ⊆
          s.client.pendingSubscriptions ++ requestsOf sendRun.effects := by
        rcases StreamState.enter_cases henter with ⟨rfl, -⟩ | ⟨-, symbols, rfl⟩
        · exact BybitWebSocketClient.sendNext_pending _ _ _
        · exact BybitWebSocketClient.sendNext_pending _ _ _
      have hrun : task = .run → s.runTask = .resubscribing := by
        rcases StreamState.enter_cases henter with ⟨-, hrun⟩ | ⟨rfl, -⟩
        · exact hrun
        · exact fun hsync => nomatch hsync
      refine Or.inr ⟨StreamState.follow_isConnected hrun ht, by simpa using hpending, ?_⟩
      exact fun frame hframe => Or.inl (by simpa [deliveriesOf] using hframe)
  | @sent task sending outcome hheld =>
      have hrun : task = .run → s.runTask = .resubscribing := fun hrun =>
        hs.run_holds sending (hrun ▸ hheld)
      refine Or.inr ⟨StreamState.follow_isConnected hrun ht, ?_, ?_⟩
      · rw [StreamState.follow_client]
        exact BybitWebSocketClient.resumeSend_pending _ _
      · exact fun frame hframe => Or.inl (by simpa [deliveriesOf] using hframe)
  | cancelBackoff => cases ht
  | cancelClosing =>
      rw [StreamState.attemptEnded] at ht
      dsimp only at ht
      split at ht <;> cases ht
  | cancelWaiting htask =>
      exact Or.inr ((StreamState.loopsTo_leave _).keepsInbox (by rw [htask]; rfl) rfl)
  | cancelSync => exact Or.inr (.same ht rfl rfl rfl)
  | stopped => cases ht
  | connect => cases ht
  | connectFailed =>
      rw [StreamState.attemptEnded] at ht
      dsimp only at ht
      split at ht <;> cases ht
  -- a new connection has no pending requests
  | connected => exact Or.inl rfl
  | callback htask =>
      refine Or.inr ((StreamState.loopsTo_callbackReturned _).keepsInbox ?_ rfl)
      rw [htask]
      rfl
  | deliver =>
      refine Or.inr ⟨ht, List.subset_append_left _ _, fun frame hframe => Or.inl ?_⟩
      simpa [deliveriesOf] using hframe
  | @timeout ackCheck tickerCheck pingCheck ended htask =>
      refine Or.inr ((StreamState.loopsTo_checkWatchdogs ?_).keepsInbox (by rw [htask]; rfl) rfl)
      split
      · exact .awaits rfl
      · exact StreamState.loopsTo_loopHead
  | pinged htask =>
      refine Or.inr (.same (by rw [htask]; rfl) ?_ StreamState.loopsTo_loopHead.inbox_eq rfl)
      exact StreamState.loopsTo_loopHead.continues.agrees.pending_eq
  | pingFailed htask =>
      exact Or.inr ((StreamState.loopsTo_leave _).keepsInbox (by rw [htask]; rfl) rfl)
  | @receive noted ackCheck tickerCheck ended raised raw arrival inbox htask hinbox =>
      have hloops := StreamState.loopsTo_receiveFrame config category raw noted ackCheck
        tickerCheck raised (s := { s with inbox })
      have hpending := hloops.continues.agrees.pending_eq
      refine Or.inr ⟨by rw [htask]; rfl, ?_, ?_⟩
      · rw [hpending]
        exact fun pending hmem => List.mem_append_left _
          (BybitWebSocketClient.handleRaw_pending _ _ _ hmem)
      · intro frame hframe
        rw [hinbox, deliveriesOf] at hframe
        rw [hloops.inbox_eq]
        rcases List.mem_cons.mp (by simpa using hframe) with rfl | hlater
        · -- the frame that is handled
          refine Or.inr fun pending hmem => ?_
          rw [hpending] at hmem
          refine Bool.eq_false_iff.mpr fun hacks => ?_
          have hne : pending.reqId ≠ "" :=
            hids pending (BybitWebSocketClient.handleRaw_pending _ _ _ hmem)
          exact BybitWebSocketClient.handleRaw_resolves hacks hne noted raised pending hmem rfl
        · exact Or.inl hlater
  | recvFailed htask =>
      exact Or.inr ((StreamState.loopsTo_leave _).keepsInbox (by rw [htask]; rfl) rfl)
  | closed =>
      rw [StreamState.attemptEnded] at ht
      dsimp only at ht
      split at ht <;> cases ht

end

/-! ## Runs -/

theorem deliveriesOf_append (events later : List StreamEvent) :
    deliveriesOf (events ++ later) = deliveriesOf events ++ deliveriesOf later :=
  List.filterMap_append

theorem mem_requestsOf_take {events : List StreamEvent} {n : ℕ} {request : PendingSubscription}
    (h : request ∈ requestsOf (effectsOf (events.take n))) :
    request ∈ requestsOf (effectsOf events) := by
  rw [← List.take_append_drop n events, effectsOf, List.flatMap_append, requestsOf_append]
  exact List.mem_append_left _ h

/-- A delivery after a request happened before the last step, or is the last step. -/
theorem DeliveredAfter.of_snoc {events : List StreamEvent} {event : StreamEvent}
    {request : PendingSubscription} {frame : RawJson × ℚ}
    (h : DeliveredAfter (events ++ [event]) request frame) :
    request ∈ requestsOf (effectsOf events) ∧
      (DeliveredAfter events request frame ∨ frame ∈ deliveriesOf [event]) := by
  obtain ⟨n, hrequest, hframe⟩ := h
  rcases Nat.lt_or_ge events.length n with hlt | hle
  · rw [List.drop_of_length_le (by simpa using hlt)] at hframe
    cases hframe
  · rw [List.take_append_of_le_length hle] at hrequest
    rw [List.drop_append_of_le_length hle, deliveriesOf_append] at hframe
    refine ⟨mem_requestsOf_take hrequest, ?_⟩
    rcases List.mem_append.mp hframe with hold | hnew
    · exact Or.inl ⟨n, hrequest, hold⟩
    · exact Or.inr hnew

theorem DeliveredAfter.snoc {events : List StreamEvent} {event : StreamEvent}
    {request : PendingSubscription} {frame : RawJson × ℚ}
    (h : DeliveredAfter events request frame) :
    DeliveredAfter (events ++ [event]) request frame := by
  obtain ⟨n, hrequest, hframe⟩ := h
  have hle : n ≤ events.length := by
    by_contra hlt
    rw [List.drop_of_length_le (by omega)] at hframe
    cases hframe
  refine ⟨n, ?_, ?_⟩
  · rwa [List.take_append_of_le_length hle]
  · rw [List.drop_append_of_le_length hle, deliveriesOf_append]
    exact List.mem_append_left _ hframe

/-- An acknowledgement of a pending request that was delivered after the request waits in the inbox
of the connection. -/
def AcksQueued (events : List StreamEvent) (s : StreamState) : Prop :=
  s.runTask.isConnected = true → ∀ request ∈ s.client.pendingSubscriptions, ∀ frame,
    DeliveredAfter events request frame → acknowledges frame.1 request.reqId = true →
      frame ∈ s.inbox

section

variable {config : AdmittedSettings} {category : String} {clock : ℚ} {events : List StreamEvent}
  {event : StreamEvent} {s s' : StreamState}

/-- The ids of pending requests are not empty. -/
theorem StreamRun.reqId_ne_empty (h : StreamRun config category clock events s) :
    ∀ pending ∈ s.client.pendingSubscriptions, pending.reqId ≠ "" := by
  intro pending hpending
  obtain ⟨n, -, hn⟩ := List.mem_map.mp (h.tracks.reqId_mem hpending)
  rw [← hn]
  exact fun hempty => absurd (congrArg String.toList hempty) (by simp [subscriptionReqId])

/-- A step registers no request a second time. -/
theorem StreamRun.request_fresh (h : StreamRun config category clock (events ++ [event]) s')
    {request : PendingSubscription} (hnew : request ∈ requestsOf event.2) :
    request ∉ requestsOf (effectsOf events) := by
  intro hold
  -- every request of a run has its own id
  have hnodup := reqIdsUpTo_nodup category s'.client.sequence
  rw [← h.tracks.numbered, effectsOf_append, requestsOf_append, List.map_append] at hnodup
  exact (List.nodup_append'.mp hnodup).2.2 (List.mem_map_of_mem hold) (List.mem_map_of_mem hnew)

theorem StreamRun.acksQueued (h : StreamRun config category clock events s) :
    AcksQueued events s := by
  have hstart : AcksQueued [] (StreamState.start clock) := by
    intro hconnected
    cases hconnected
  refine @Trace.invariant _ _ _ _ _ _ AcksQueued hstart
    (fun events s event s' prior hqueued hstep => ?_) h
  have hrun : StreamRun config category clock (events ++ [event]) s' := prior.snoc hstep
  have hprior : StreamRun config category clock events s := prior
  obtain ⟨-, t, hmove, rfl⟩ := StreamStep.move hstep
  intro hconnected request hpending frame hdelivered hacks
  rcases hmove.keepsInbox hprior.invariant hprior.reqId_ne_empty hconnected with hnone | hkeeps
  · have hpending' : request ∈ t.client.pendingSubscriptions := hpending
    rw [hnone] at hpending'
    cases hpending'
  · obtain ⟨hrequested, hdelivered⟩ := hdelivered.of_snoc
    -- the request was registered before, so it was pending before
    have hold : request ∈ s.client.pendingSubscriptions := by
      rcases List.mem_append.mp (hkeeps.pending hpending) with hold | hnew
      · exact hold
      · exact absurd hrequested (hrun.request_fresh hnew)
    have hframe : frame ∈ s.inbox ++ deliveriesOf [event] := by
      rcases hdelivered with hbefore | hlast
      · exact List.mem_append_left _
          (hqueued hkeeps.wasConnected request hold frame hbefore hacks)
      · exact List.mem_append_right _ hlast
    rcases hkeeps.inbox frame hframe with hinbox | hconsumed
    · exact hinbox
    · rw [hconsumed request hpending] at hacks
      cases hacks

/-- A connection is torn down for an acknowledgement timeout by the check of a frame or of a receive
timeout, which has found a request overdue. -/
theorem StreamMove.tornDown {action : Action} {effects : List Effect} {t : StreamState}
    (hmove : StreamMove config.toSettings category s action effects t)
    (hbefore : ¬ s.TornDown) (hafter : t.TornDown) :
    ∃ now, action.ackCheckAt = some now ∧ t.client.AckOverdue config now ∧
      (AcksWaiting config t.client t.inbox now → ChecksTooEarly config category s action) := by
  -- what is waiting depends on the pending requests and the inbox only
  have hwaiting {client other : BybitWebSocketClient} {inbox inbox' : List (RawJson × ℚ)} {now : ℚ}
      (hpending : client.pendingSubscriptions = other.pendingSubscriptions)
      (hinbox : inbox = inbox') :
      AcksWaiting config client inbox now → AcksWaiting config other inbox' now := by
    rw [AcksWaiting, AcksWaiting, BybitWebSocketClient.AckOverdue,
      BybitWebSocketClient.AckOverdue, hpending, hinbox]
    exact id
  have hoverdue {client other : BybitWebSocketClient} {now : ℚ}
      (hpending : client.pendingSubscriptions = other.pendingSubscriptions) :
      other.AckOverdue config now → client.AckOverdue config now := by
    rw [BybitWebSocketClient.AckOverdue, BybitWebSocketClient.AckOverdue, hpending]
    exact id
  cases hmove with
  | @timeout ackCheck tickerCheck pingCheck ended htask =>
      have hhealthy : ¬ (if s.client.pingDue config.toSettings pingCheck then
          { s with runTask := .pinging } else s.loopHead).TornDown := by
        split
        · exact RunTask.noConfusion
        · exact StreamState.not_tornDown_loopHead
      obtain ⟨hack, hpending, hinbox⟩ := StreamState.tornDown_of_checkWatchdogs hhealthy hafter
      exact ⟨ackCheck, rfl, hoverdue hpending hack, hwaiting hpending hinbox⟩
  | @receive noted ackCheck tickerCheck ended raised raw arrival inbox htask hinbox =>
      rw [StreamState.receiveFrame] at hafter ⊢
      dsimp only at hafter ⊢
      cases hresult : (s.client.handleRaw category raw noted raised).result with
      | error exc =>
          rw [hresult] at hafter
          exact absurd hafter (StreamState.not_tornDown_handlerRaised exc)
      | ok returned =>
          rw [hresult] at hafter
          obtain ⟨hack, hpending, hqueue⟩ := StreamState.tornDown_of_checkWatchdogs
            StreamState.not_tornDown_loopHead hafter
          refine ⟨ackCheck, rfl, hoverdue hpending hack, fun hwait => ?_⟩
          exact ⟨raw, arrival, inbox, hinbox, hresult, hwaiting hpending hqueue hwait⟩
  | acquire => exact absurd (StreamState.tornDown_of_follow hafter) hbefore
  | sent => exact absurd (StreamState.tornDown_of_follow hafter) hbefore
  | cancelClosing => exact absurd hafter (StreamState.not_tornDown_attemptEnded _)
  | connectFailed => exact absurd hafter (StreamState.not_tornDown_attemptEnded _)
  | closed => exact absurd hafter (StreamState.not_tornDown_attemptEnded _)
  | callback => exact absurd hafter (StreamState.not_tornDown_callbackReturned _)
  | pinged => exact absurd hafter StreamState.not_tornDown_loopHead
  | cancelWaiting => exact absurd hafter (StreamState.not_tornDown_leave Exit.noConfusion)
  | pingFailed =>
      exact absurd hafter (StreamState.not_tornDown_leave
        (StreamState.ofRaise_ne_ackTimeout (fun _ => Exit.noConfusion) _))
  | recvFailed =>
      exact absurd hafter (StreamState.not_tornDown_leave
        (StreamState.ofRaise_ne_ackTimeout (fun _ => Exit.noConfusion) _))
  | requestStop => exact absurd hafter hbefore
  | sync => exact absurd hafter hbefore
  | cancelSync => exact absurd hafter hbefore
  | deliver => exact absurd hafter hbefore
  | cancelBackoff => cases hafter
  | stopped => cases hafter
  | connect => cases hafter
  | connected => cases hafter

/-- A step that makes no check too early tears the connection down soundly. -/
theorem StreamRun.ackTimeoutSound (h : StreamRun config category clock events s)
    (hstep : StreamStep config.toSettings category s event s')
    (hchecks : ¬ ChecksTooEarly config category s event.1) :
    AckTimeoutSound config events s event s' := by
  intro hbefore hafter
  have hrun : StreamRun config category clock (events ++ [event]) s' := Trace.snoc h hstep
  obtain ⟨-, t, hmove, rfl⟩ := StreamStep.move hstep
  obtain ⟨now, hnow, hoverdue, hearly⟩ := hmove.tornDown hbefore hafter
  have hwaiting : ¬ AcksWaiting config t.client t.inbox now := fun h => hchecks (hearly h)
  -- some overdue request has no acknowledgement in the inbox
  simp only [AcksWaiting, hoverdue, true_and, not_forall] at hwaiting
  obtain ⟨request, hpending, hlate, hnone⟩ := hwaiting
  refine ⟨now, request, hnow, hpending, hlate, fun frame hdelivered hacks => hnone ?_⟩
  -- an acknowledgement in time would be in the inbox
  have hconnected : t.runTask.isConnected = true := by rw [show t.runTask = _ from hafter]; rfl
  exact ⟨frame, hrun.acksQueued hconnected request hpending frame hdelivered.snoc hacks.1, hacks⟩

end

/-- In a run that checks no request too early, a connection is torn down for an acknowledgement
timeout only because of a request whose acknowledgement was not delivered in time. -/
theorem ackTimeout_sound (config : AdmittedSettings) (category : String) (clock : ℚ)
    (events : List StreamEvent)
    (hchecks : Trace.EveryStep (StreamStep config.toSettings category) (StreamState.start clock)
      events fun s event _ => ¬ ChecksTooEarly config category s event.1) :
    Trace.EveryStepAfter (StreamStep config.toSettings category) (StreamState.start clock) events
      (AckTimeoutSound config) := by
  intro k event s s' hk hs hstep
  have hrun : StreamRun config category clock (events.take k) s := hs
  exact hrun.ackTimeoutSound hstep (hchecks k event s s' hk hs hstep)

/-- A property of every step of an execution, by a test. -/
theorem perform_everyStep {config : AdmittedSettings} {category : String} {clock : ℚ}
    {actions : List Action} {test : StreamState → StreamEvent → Bool}
    {P : StreamState → StreamEvent → StreamState → Prop}
    (htest : ∀ s event s', test s event = true → P s event s')
    (hall : Trace.execAll (StreamState.next config.toSettings category) test
      (StreamState.start clock) actions = true) :
    Trace.EveryStep (StreamStep config.toSettings category) (StreamState.start clock)
      (perform config category clock actions).1 P := by
  have hnext (s : StreamState) (action : Action) (event : StreamEvent) (s' : StreamState)
      (h : s.next config.toSettings category action = some (event, s')) :
      StreamStep config.toSettings category s event s' := (StreamState.next_step h).2
  have hdet (s : StreamState) (event : StreamEvent) (s₁ s₂ : StreamState)
      (h₁ : StreamStep config.toSettings category s event s₁)
      (h₂ : StreamStep config.toSettings category s event s₂) : s₁ = s₂ :=
    (Prod.mk.inj (Option.some.inj (h₁.symm.trans h₂))).2
  exact Trace.exec_everyStep hnext hdet htest Trace.nil (fun k e s s' hk _ _ => nomatch hk) hall

/-- The symbols of two batches. -/
def elevenSymbols : Finset String :=
  {"A", "B", "C", "D", "E", "F", "G", "H", "I", "J", "K"}

/-- The frame that confirms a request. -/
def ackFrame (reqId : String) : RawJson := some (.object
  [("op", .string "subscribe"), ("success", .bool true), ("req_id", .string reqId)])

/-- Two batches, of which the first is acknowledged after a second and the second never. -/
def missingAck : List Action :=
  [.sync elevenSymbols, .connect, .connected 0 0, .acquire .run 0, .sent (.ok 0), .sent (.ok 0),
    .callback (.ok ()), .deliver (ackFrame "sub-spot-1") 1, .receive 1 1 1 1 none,
    .timeout 5 5 5 5, .timeout 11 11 11 11]

/-- The connection is torn down for the second request. -/
theorem ackTimeout_sound_missingAck :
    (perform .default "spot" 0 missingAck).2.TornDown ∧
      (perform .default "spot" 0 missingAck).2.client.pendingSubscriptions.map
        PendingSubscription.reqId = ["sub-spot-2"] ∧
      Trace.EveryStepAfter (StreamStep AdmittedSettings.default.toSettings "spot")
        (StreamState.start 0) (perform .default "spot" 0 missingAck).1
        (AckTimeoutSound .default) := by
  refine ⟨by decide +kernel, by decide +kernel, ackTimeout_sound .default "spot" 0 _ ?_⟩
  -- the inbox is empty at each check
  have htest : Trace.execAll (StreamState.next AdmittedSettings.default.toSettings "spot")
      (fun s event => match event.1 with
        | .timeout .. => s.inbox.isEmpty
        | .receive .. => s.inbox.tail.isEmpty
        | _ => true) (StreamState.start 0) missingAck = true := by
    decide +kernel
  refine perform_everyStep (fun s event s' hempty hearly => ?_) htest
  obtain ⟨action, effects⟩ := event
  cases action with
  | timeout ackCheck tickerCheck pingCheck ended =>
      have hinbox : s.inbox = [] := List.isEmpty_iff.mp hempty
      obtain ⟨⟨request, hpending, hlate⟩, hwaiting⟩ := hearly
      obtain ⟨frame, hframe, -⟩ := hwaiting request hpending hlate
      rw [hinbox] at hframe
      cases hframe
  | receive noted ackCheck tickerCheck ended raised =>
      obtain ⟨raw, arrival, inbox, hcons, -, ⟨request, hpending, hlate⟩, hwaiting⟩ := hearly
      have htail : s.inbox.tail = [] := List.isEmpty_iff.mp hempty
      rw [hcons, List.tail_cons] at htail
      obtain ⟨frame, hframe, -⟩ := hwaiting request hpending hlate
      rw [htail] at hframe
      cases hframe
  | _ => exact hearly

/-- Two batches that are sent at once and acknowledged after a second, and a callback of eleven
seconds. -/
def slowCallback : List Action :=
  [.sync elevenSymbols, .connect, .connected 0 0, .acquire .run 0, .sent (.ok 0), .sent (.ok 0),
    .deliver (ackFrame "sub-spot-1") 1, .deliver (ackFrame "sub-spot-2") 1, .callback (.ok ())]

/-- After the first acknowledgement the connection is torn down for the second request. -/
theorem ackTimeout_with_queued_ack :
    ¬ ∀ config category clock events s, StreamRun config category clock events s →
      Trace.EveryStepAfter (StreamStep config.toSettings category) (StreamState.start clock) events
        (AckTimeoutSound config) := by
  intro hclaim
  have hrun := run_perform .default "spot" 0 slowCallback
  obtain ⟨⟨event, s'⟩, hnext⟩ : ∃ result, (perform .default "spot" 0 slowCallback).2.next
      AdmittedSettings.default.toSettings "spot" (.receive 11 11 11 11 none) = some result :=
    Option.isSome_iff_exists.mp (by decide +kernel)
  obtain ⟨-, hstep⟩ := StreamState.next_step hnext
  have hsound := (hclaim _ _ _ _ _ (hrun.snoc hstep)).last hrun hstep
  -- what the last step makes of the client
  have htorn : ((perform .default "spot" 0 slowCallback).2.next
      AdmittedSettings.default.toSettings "spot" (.receive 11 11 11 11 none)).all
        (fun result => result.2.TornDown) = true := by decide +kernel
  have hpending : ((perform .default "spot" 0 slowCallback).2.next
      AdmittedSettings.default.toSettings "spot" (.receive 11 11 11 11 none)).all
        (fun result => result.2.client.pendingSubscriptions =
          [{ reqId := "sub-spot-2", symbols := ["K"], topics := ["tickers.K"], sentAt := 0 }]) =
        true := by decide +kernel
  rw [hnext] at htorn hpending
  obtain ⟨now, request, -, hrequest, -, hmissing⟩ :=
    hsound (by decide +kernel) (of_decide_eq_true htorn)
  rw [of_decide_eq_true hpending] at hrequest
  obtain rfl := List.mem_singleton.mp hrequest
  obtain ⟨frame, hframe, hacks⟩ : ∃ frame ∈ deliveriesOf
      ((perform .default "spot" 0 slowCallback).1.drop 6),
      acknowledges frame.1 "sub-spot-2" = true ∧
        (PyFloat.elapsed frame.2 0).le
          AdmittedSettings.default.wsSubscriptionAckTimeoutSeconds = true := by decide +kernel
  exact hmissing frame ⟨6, by decide +kernel, hframe⟩ hacks

end BybitMonitor
