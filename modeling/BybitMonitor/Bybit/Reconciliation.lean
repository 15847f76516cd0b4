import Mathlib
import BybitMonitor.Bybit.SyncSubscriptions

/-!
# Reconciling the subscriptions

`WebSocketManager.sync_subscriptions` awaits `resubscribe` and then `unsubscribe` of a client, while
the run task listens, reconnects and resubscribes on its own. The two take turns under the lock.

* `Coordinated`: what the sync task does fits to what is desired.
* `Reconciling`: how far a synchronisation, or the first `resubscribe` of a connection, has come.
* `sync_reconciles`: once it is over, what is desired is requested, and the server streams nothing
  else but what was pending or confirmed since.
-/

namespace BybitMonitor

/-! ## The sync task and the lock -/

namespace SyncTask

def isResubscribing : SyncTask → Bool
  | resubscribing _ _ => true
  | _ => false

/-- What the task does fits to the desired symbols and to the lock. -/
def Fits (desired : Finset String) (lock : Option (TaskName × Sending)) : SyncTask → Prop
  | idle => ∀ sending, lock ≠ some (.sync, sending)
  | resubscribing _ wanted =>
      wanted = desired ∧ ∀ sending, lock = some (.sync, sending) → sending.reqId.isSome = true
  | unsubscribing symbols =>
      Disjoint symbols desired ∧ ∀ sending, lock = some (.sync, sending) →
        sending.reqId = none ∧ ∀ symbol ∈ sending.batch ++ sending.rest.flatten, symbol ∈ symbols

/-- The other task, or none, may hold the lock instead. -/
theorem Fits.free {desired : Finset String} {lock lock' : Option (TaskName × Sending)}
    {task : SyncTask} (h : task.Fits desired lock)
    (hfree : ∀ sending, lock' ≠ some (.sync, sending)) : task.Fits desired lock' := by
  cases task with
  | idle => exact hfree
  | resubscribing previous wanted => exact ⟨h.1, fun sending hlock => absurd hlock (hfree sending)⟩
  | unsubscribing symbols => exact ⟨h.1, fun sending hlock => absurd hlock (hfree sending)⟩

theorem Fits.detach {desired subscribed : Finset String} {lock : Option (TaskName × Sending)}
    {task : SyncTask} (h : task.Fits desired lock) :
    (task.detach subscribed).Fits desired lock := by
  unfold SyncTask.detach
  split
  · exact h
  · exact h

end SyncTask

/-- The run task only subscribes, and the sync task works for the set that is desired. -/
structure Coordinated (s : StreamState) : Prop where
  run_subscribes : ∀ sending, s.lock = some (.run, sending) → sending.reqId.isSome = true
  fits : s.syncTask.Fits s.client.desiredSymbols s.lock

namespace BybitWebSocketClient

variable {client : BybitWebSocketClient} {category : String} {now : ℚ} {next : Sending}

/-- A batch loop that awaits a send is in its next round. -/
theorem sendNext_sending {op : TopicOp} {rounds : List (List String)}
    (h : (client.sendNext category op now rounds).progress = .sending next) :
    next.batch :: next.rest = rounds ∧ (next.reqId.isSome = true ↔ op = .subscribe) ∧
      client.ws ≠ none := by
  cases rounds with
  | nil => cases h
  | cons batch rest =>
      rw [sendNext.eq_def] at h
      dsimp only at h
      split at h
      · rename_i hconnection
        cases h
        exact ⟨rfl, by simp, by simp [hconnection]⟩
      · cases h
      · rename_i hconnection
        cases h
        exact ⟨rfl, by simp, by simp [hconnection]⟩
      · cases h

/-- A batch loop that returns has sent everything, or has lost its connection. -/
theorem sendNext_returned {op : TopicOp} {rounds : List (List String)} {outcome : Except PyExc Unit}
    (h : (client.sendNext category op now rounds).progress = .returned outcome) :
    (rounds = [] ∧ (client.sendNext category op now rounds).client = client) ∨
      client.ws = none := by
  cases rounds with
  | nil => exact Or.inl ⟨rfl, rfl⟩
  | cons batch rest =>
      rw [sendNext.eq_def] at h
      dsimp only at h
      split at h
      · cases h
      · exact Or.inr ‹_›
      · cases h
      · exact Or.inr ‹_›

/-- The holder of the lock goes on with the same kind of frames. -/
theorem resumeSend_sending {sending : Sending} {outcome : Except PyExc ℚ}
    (h : (client.resumeSend category sending outcome).progress = .sending next) :
    next.batch :: next.rest = sending.rest ∧ next.reqId.isSome = sending.reqId.isSome := by
  obtain ⟨reqId, batch, rest⟩ := sending
  cases outcome with
  | ok now =>
      cases reqId with
      | some reqId =>
          obtain ⟨hrounds, hop, -⟩ := sendNext_sending h
          exact ⟨hrounds, by simpa using hop⟩
      | none =>
          obtain ⟨hrounds, hop, -⟩ := sendNext_sending h
          exact ⟨hrounds, by simpa using hop⟩
  | error exc =>
      cases reqId with
      | none => cases h
      | some reqId =>
          rw [resumeSend] at h
          dsimp only at h
          split at h
          · cases h
          · cases h

end BybitWebSocketClient

namespace StreamState

variable {config : Settings} {category : String} {s t : StreamState}

/-- The sync task enters the critical section of the method that it awaits. -/
theorem enter_sync_cases {now : ℚ} {sendRun : SendRun}
    (h : s.enter config category now .sync = some sendRun) :
    (∃ previous desired, s.syncTask = .resubscribing previous desired ∧
        sendRun = s.client.resubscribe config category now) ∨
      ∃ symbols, s.syncTask = .unsubscribing symbols ∧
        sendRun = s.client.unsubscribe config category now symbols := by
  rw [enter] at h
  split at h <;> cases h
  · exact Or.inl ⟨_, _, ‹_›, rfl⟩
  · exact Or.inr ⟨_, ‹_›, rfl⟩

theorem LoopsTo.syncTask_eq (h : s.LoopsTo t) : t.syncTask = s.syncTask := by
  cases h with
  | awaits => rfl
  | failed exit => rfl

end StreamState

namespace Coordinated

variable {config : Settings} {category : String} {s t : StreamState} {action : Action}
  {effects : List Effect}

theorem start (clock : ℚ) : Coordinated (StreamState.start clock) where
  run_subscribes := by simp [StreamState.start]
  fits := by simp [StreamState.start, SyncTask.Fits]

/-- A step around the lock and the sync task. -/
theorem congr (h : Coordinated s) (hdesired : t.client.desiredSymbols = s.client.desiredSymbols)
    (hsync : t.syncTask = s.syncTask) (hlock : t.lock = s.lock) : Coordinated t := by
  constructor
  · rw [hlock]
    exact h.run_subscribes
  · rw [hsync, hdesired, hlock]
    exact h.fits

/-- The end of `resubscribe` in the sync task. -/
theorem callUnsubscribe (h : Coordinated s) (hfree : s.lock = none) {symbols : Finset String}
    (hdisjoint : Disjoint symbols s.client.desiredSymbols) :
    Coordinated (s.callUnsubscribe symbols) := by
  refine ⟨h.run_subscribes, ?_⟩
  rw [StreamState.callUnsubscribe]
  split
  · simp [SyncTask.Fits, hfree]
  · simp [SyncTask.Fits, hfree, hdisjoint]

/-- A task in the critical section goes on. -/
theorem follow (h : Coordinated s) {task : TaskName} {sendRun : SendRun}
    (hdesired : sendRun.client.desiredSymbols = s.client.desiredSymbols)
    (hrun : task = .run → ∀ next, sendRun.progress = .sending next → next.reqId.isSome = true)
    (hsync : task = .sync → ∀ next, sendRun.progress = .sending next →
      s.syncTask.Fits s.client.desiredSymbols (some (.sync, next))) :
    Coordinated (s.follow task sendRun) := by
  rw [StreamState.follow]
  split
  · rename_i next hnext
    cases task with
    | run =>
        refine ⟨fun sending hlock => ?_, ?_⟩
        · cases hlock
          exact hrun rfl next hnext
        · have hfits : s.syncTask.Fits s.client.desiredSymbols (some (.run, next)) :=
            h.fits.free (by simp)
          exact hdesired ▸ hfits
    | sync =>
        refine ⟨fun sending hlock => ?_, ?_⟩
        · cases hlock
        · exact hdesired ▸ hsync rfl next hnext
  · rename_i outcome hnext
    have hfits : s.syncTask.Fits sendRun.client.desiredSymbols none :=
      hdesired ▸ h.fits.free (by simp)
    have hreleased : Coordinated { s with client := sendRun.client, lock := none } :=
      ⟨by simp, hfits⟩
    have hidle : Coordinated { s with client := sendRun.client, lock := none, syncTask := .idle } :=
      ⟨by simp, by simp [SyncTask.Fits]⟩
    -- the lock is released
    cases task with
    | run =>
        cases outcome with
        | ok returned => exact hreleased.congr rfl rfl rfl
        | error exc => exact hreleased.congr rfl rfl rfl
    | sync =>
        cases outcome with
        | error exc => exact hidle
        | ok returned =>
            rw [StreamState.opReturned]
            split
            · rename_i previous desired hsyncTask
              have hwanted : desired = sendRun.client.desiredSymbols := by
                have hresubscribing : s.syncTask = .resubscribing previous desired := hsyncTask
                rw [hresubscribing] at hfits
                exact hfits.1
              refine hreleased.callUnsubscribe rfl ?_
              rw [hwanted]
              exact Finset.sdiff_disjoint
            · exact hidle

theorem loopsTo (h : Coordinated s) (hloops : s.LoopsTo t) : Coordinated t :=
  h.congr hloops.bystands.same.desired_eq hloops.syncTask_eq hloops.bystands.lock_eq

/-- The call of a task that enters its critical section. -/
theorem enter (h : Coordinated s) {task : TaskName} {now : ℚ} {sendRun : SendRun}
    (henter : s.enter config category now task = some sendRun) :
    Coordinated (s.follow task sendRun) := by
  have hfits := h.fits
  cases task with
  | run =>
      rcases StreamState.enter_cases henter with ⟨rfl, -⟩ | ⟨hsync, -⟩
      · refine h.follow (BybitWebSocketClient.sendNext_desired _ _) (fun _ next hnext => ?_)
          fun hsync => ?_
        · exact (BybitWebSocketClient.sendNext_sending hnext).2.1.mpr rfl
        · cases hsync
      · cases hsync
  | sync =>
      rcases StreamState.enter_sync_cases henter with
        ⟨previous, desired, htask, rfl⟩ | ⟨symbols, htask, rfl⟩
      · refine h.follow (BybitWebSocketClient.sendNext_desired _ _) (fun hrun => ?_)
          fun _ next hnext => ?_
        · cases hrun
        · rw [htask] at hfits ⊢
          refine ⟨hfits.1, fun sending hlock => ?_⟩
          cases hlock
          exact (BybitWebSocketClient.sendNext_sending hnext).2.1.mpr rfl
      · refine h.follow (BybitWebSocketClient.sendNext_desired _ _) (fun hrun => ?_)
          fun _ next hnext => ?_
        · cases hrun
        · rw [htask] at hfits ⊢
          obtain ⟨hrounds, hop, -⟩ := BybitWebSocketClient.sendNext_sending hnext
          refine ⟨hfits.1, fun sending hlock => ?_⟩
          cases hlock
          refine ⟨by simpa using hop, fun symbol hmem => ?_⟩
          -- the batches are cut from the symbols that are still confirmed
          have hbatches : symbol ∈ (next.batch :: next.rest).flatten := hmem
          rw [hrounds] at hbatches
          have hstale := PyText.mem_sorted.mp (List.flatten_slices_prefix.subset hbatches)
          exact (Finset.mem_inter.mp hstale).1

/-- The holder of the lock goes on after its send. -/
theorem sent (h : Coordinated s) {task : TaskName} {sending : Sending}
    (hheld : s.lock = some (task, sending)) (outcome : Except PyExc ℚ) :
    Coordinated (s.follow task (s.client.resumeSend category sending outcome)) := by
  refine h.follow (BybitWebSocketClient.resumeSend_desired _ _) ?_ ?_
  · rintro rfl next hnext
    rw [(BybitWebSocketClient.resumeSend_sending hnext).2]
    exact h.run_subscribes sending hheld
  · rintro rfl next hnext
    obtain ⟨hrest, hkind⟩ := BybitWebSocketClient.resumeSend_sending hnext
    have hfits := h.fits
    rw [hheld] at hfits
    cases htask : s.syncTask with
    | idle =>
        rw [htask] at hfits
        exact absurd rfl (hfits sending)
    | resubscribing previous wanted =>
        rw [htask] at hfits
        refine ⟨hfits.1, fun later hlock => ?_⟩
        cases hlock
        rw [hkind]
        exact hfits.2 sending rfl
    | unsubscribing symbols =>
        rw [htask] at hfits
        obtain ⟨hdisjoint, hsending⟩ := hfits
        obtain ⟨hnone, hsymbols⟩ := hsending sending rfl
        refine ⟨hdisjoint, fun later hlock => ?_⟩
        cases hlock
        refine ⟨?_, fun symbol hmem => hsymbols symbol (List.mem_append_right _ ?_)⟩
        · rw [hnone] at hkind
          simpa using hkind
        · rw [← hrest]
          exact hmem

/-- Every move keeps the invariant. -/
theorem move (h : Coordinated s) (hmove : StreamMove config category s action effects t) :
    Coordinated t := by
  cases hmove with
  | requestStop => exact h.congr rfl rfl rfl
  | sync hidle =>
      have hfits := h.fits
      rw [hidle] at hfits
      refine ⟨h.run_subscribes, ?_⟩
      split
      · exact hfits
      · exact ⟨rfl, fun sending hlock => absurd hlock (hfits sending)⟩
  | acquire hfree henter => exact h.enter henter
  | sent hheld => exact h.sent hheld _
  | cancelBackoff htask => exact h.congr rfl rfl rfl
  | cancelClosing htask => exact h.congr rfl rfl rfl
  | cancelWaiting htask hwaits => exact h.congr rfl rfl rfl
  | cancelSync hwaits => exact ⟨h.run_subscribes, hwaits⟩
  | stopped htask hstop => exact h.congr rfl rfl rfl
  | connect htask hstop => exact h.congr rfl rfl rfl
  | connectFailed htask => exact h.congr rfl rfl rfl
  | connected htask => exact ⟨h.run_subscribes, h.fits.detach⟩
  | callback htask => exact h.loopsTo (StreamState.loopsTo_callbackReturned _)
  | deliver => exact h.congr rfl rfl rfl
  | timeout htask =>
      refine h.loopsTo (StreamState.loopsTo_checkWatchdogs ?_)
      split
      · exact .awaits rfl
      · exact StreamState.loopsTo_loopHead
  | @pinged sentAt ended htask =>
      have hnoted : Coordinated { s with client := { s.client with lastPingAt := sentAt } } :=
        h.congr rfl rfl rfl
      exact hnoted.loopsTo StreamState.loopsTo_loopHead
  | pingFailed htask => exact h.loopsTo (StreamState.loopsTo_leave _)
  | @receive noted ackCheck tickerCheck ended raised raw arrival inbox htask hinbox =>
      have hhandled : Coordinated
          { s with client := (s.client.handleRaw category raw noted raised).client, inbox } :=
        h.congr (BybitWebSocketClient.handleRaw_desired raw noted raised) rfl rfl
      exact hhandled.loopsTo (StreamState.loopsTo_receiveFrame config category raw noted
        ackCheck tickerCheck raised (s := { s with inbox }))
  | recvFailed htask => exact h.loopsTo (StreamState.loopsTo_leave _)
  | closed htask => exact h.congr rfl rfl rfl

end Coordinated

/-- Every run keeps the tasks coordinated. -/
theorem StreamRun.coordinated {config : AdmittedSettings} {category : String} {clock : ℚ}
    {events : List StreamEvent} {s : StreamState} (h : StreamRun config category clock events s) :
    Coordinated s := by
  refine Trace.stateInvariant (Coordinated.start clock) (fun s event s' hs hstep => ?_) h
  obtain ⟨-, t, hmove, rfl⟩ := StreamStep.move hstep
  exact (hs.move hmove).congr rfl rfl rfl

/-! ## The progress of a synchronisation -/

/-- Whether `_connect_and_listen` is past its `resubscribe`. -/
def RunTask.listens : RunTask → Bool
  | callback | receiving | pinging => true
  | _ => false

theorem RunTask.isConnected_of_listens {task : RunTask} (h : task.listens = true) :
    task.isConnected = true := by
  cases task with
  | callback | receiving | pinging => rfl
  | _ => cases h

/-- The request for the symbol on the connection was acknowledged after the effects `before`. -/
def ConfirmedSince (before later : List Effect) (connection : ℕ) (symbol : String) : Prop :=
  ∃ request, .requested (some connection) request ∈ before ++ later ∧ symbol ∈ request.symbols ∧
    .acknowledged (some connection) request.reqId true ∈ later

theorem ConfirmedSince.append {before later : List Effect} {connection : ℕ} {symbol : String}
    (h : ConfirmedSince before later connection symbol) (effects : List Effect) :
    ConfirmedSince before (later ++ effects) connection symbol := by
  obtain ⟨request, hrequest, hsymbol, hack⟩ := h
  refine ⟨request, ?_, hsymbol, List.mem_append_left _ hack⟩
  rw [← List.append_assoc]
  exact List.mem_append_left _ hrequest

namespace StreamState

/-- The sync task has called `resubscribe` and not entered it. -/
def AwaitsResubscribe (s : StreamState) : Prop :=
  s.syncTask.isResubscribing = true ∧ ∀ sending, s.lock ≠ some (.sync, sending)

/-- The sync task has still to unsubscribe from the symbol. -/
def WillLeave (s : StreamState) (symbol : String) : Prop :=
  match s.syncTask with
  | .idle => False
  | .resubscribing previous _ => previous = none
  | .unsubscribing symbols =>
      symbol ∈ symbols ∧ ∀ sending, s.lock = some (.sync, sending) →
        symbol ∈ sending.batch ++ sending.rest.flatten

/-- Whether an action calls or cancels the synchronisation, or makes a send of it raise. -/
def interruptsSync (s : StreamState) : Action → Bool
  | .sync _ | .cancel .sync => true
  | .sent (.error _) =>
      match s.lock with
      | some (.sync, _) => true
      | _ => false
  | _ => false

variable {s t : StreamState} {symbol : String}

theorem WillLeave.free (h : s.WillLeave symbol) (hsync : t.syncTask = s.syncTask)
    (hfree : ∀ sending, t.lock ≠ some (.sync, sending)) : t.WillLeave symbol := by
  unfold WillLeave at h ⊢
  rw [hsync]
  cases htask : s.syncTask with
  | idle =>
      rw [htask] at h
      exact h
  | resubscribing previous desired =>
      rw [htask] at h
      exact h
  | unsubscribing symbols =>
      rw [htask] at h
      exact ⟨h.1, fun sending hlock => absurd hlock (hfree sending)⟩

end StreamState

/-- How far a synchronisation has come, or the first `resubscribe` of a connection; `later` are the
effects since it began. -/
structure Reconciling (before later : List Effect) (s : StreamState) : Prop where
  /-- What is desired is covered or about to be requested, once the last `resubscribe` that is due
  on the connection has been entered. -/
  complete : (s.runTask.listens = true ∨ ∃ sending, s.lock = some (.run, sending)) →
    ¬ s.AwaitsResubscribe → s.client.desiredSymbols ⊆ s.client.covered ∪ s.reserved.toFinset
  /-- What is confirmed is desired, confirmed since, or about to be unsubscribed. -/
  settled : s.client.ws ≠ none → ∀ symbol ∈ s.client.subscribed,
    symbol ∈ s.client.desiredSymbols ∨ ConfirmedSince before later s.connections symbol ∨
      s.WillLeave symbol

namespace BybitWebSocketClient

variable {client : BybitWebSocketClient} {category : String} {now : ℚ} {next : Sending}

@[simp]
theorem sendNext_subscribed (op : TopicOp) (rounds : List (List String)) :
    (client.sendNext category op now rounds).client.subscribed = client.subscribed := by
  cases rounds with
  | nil => rfl
  | cons batch rest =>
      rw [sendNext.eq_def]
      dsimp only
      split <;> rfl

/-- The batch that is being sent is pending. -/
theorem sendNext_covered {rounds : List (List String)}
    (h : (client.sendNext category .subscribe now rounds).progress = .sending next) :
    (client.sendNext category .subscribe now rounds).client.covered =
      client.covered ∪ next.batch.toFinset := by
  cases rounds with
  | nil => cases h
  | cons batch rest =>
      rw [sendNext.eq_def] at h ⊢
      cases hconnection : client.ws with
      | none =>
          rw [hconnection] at h
          cases h
      | some n =>
          rw [hconnection] at h
          cases h
          ext symbol
          simp only [mem_covered, Finset.mem_union, register, nextRequest, List.mem_append,
            List.mem_singleton, List.mem_toFinset]
          constructor
          · rintro (⟨pending, hpending | rfl, hsymbol⟩ | hsymbol)
            · exact Or.inl (Or.inl ⟨pending, hpending, hsymbol⟩)
            · exact Or.inr hsymbol
            · exact Or.inl (Or.inr hsymbol)
          · rintro ((⟨pending, hpending, hsymbol⟩ | hsymbol) | hsymbol)
            · exact Or.inl ⟨pending, Or.inl hpending, hsymbol⟩
            · exact Or.inr hsymbol
            · exact Or.inl ⟨_, Or.inr rfl, hsymbol⟩

/-- What is desired is covered or missing. -/
theorem desired_subset (config : AdmittedSettings) (client : BybitWebSocketClient) :
    client.desiredSymbols ⊆ client.covered ∪ (batches config.toSettings (PyText.sorted
      ((client.desiredSymbols \ client.subscribed) \ client.pendingSymbols))).flatten.toFinset := by
  intro symbol hmem
  by_cases hcovered : symbol ∈ client.covered
  · exact Finset.mem_union_left _ hcovered
  · refine Finset.mem_union_right _ (List.mem_toFinset.mpr ?_)
    rw [(batches_spec config _).1]
    refine PyText.mem_sorted.mpr ?_
    have hunmet := unmet_eq client
    rw [unmet] at hunmet
    rw [hunmet]
    exact Finset.mem_sdiff.mpr ⟨hmem, hcovered⟩

/-- An unsubscribing batch loop leaves the subscriptions alone. -/
theorem sendNext_unsubscribe_client (rounds : List (List String)) :
    (client.sendNext category .unsubscribe now rounds).client = client := by
  cases rounds with
  | nil => rfl
  | cons batch rest =>
      rw [sendNext.eq_def]
      cases client.ws with
      | some n => rfl
      | none => rfl

/-- A request is rejected by raising `SubscriptionAckError`, and nothing is unconfirmed. -/
theorem handleRaw_rejected {raw : RawJson} {noted : ℚ} {raised : Option PyExc}
    {connection : Option ℕ} {reqId : String}
    (h : .acknowledged connection reqId false ∈
      (client.handleRaw category raw noted raised).effects) :
    (client.handleRaw category raw noted raised).client.subscribed = client.subscribed ∧
      ∃ message, (client.handleRaw category raw noted raised).result =
        .error (.subscriptionAckError message) := by
  rcases @handleRaw_cases client category raw noted raised with
    ⟨noticed, data, hagrees, heq⟩ | ⟨-, hmessages⟩
  · rw [heq] at h ⊢
    rw [handleSubscribeAck] at h ⊢
    dsimp only at h ⊢
    split at h
    · cases h
    · exact absurd (List.mem_singleton.mp h) (by simp)
    · split at h
      · exact absurd (List.mem_singleton.mp h) (by simp)
      · rename_i hfailed
        simp only [hfailed]
        exact ⟨hagrees.subscribed_eq, _, rfl⟩
  · obtain ⟨payload, heq⟩ := hmessages _ h
    cases heq

end BybitWebSocketClient

namespace Reconciling

variable {config : AdmittedSettings} {category : String}
  {history before later effects : List Effect} {s t : StreamState} {action : Action} {now : ℚ}

theorem extend (h : Reconciling before later s) (effects : List Effect) :
    Reconciling before (later ++ effects) s where
  complete := h.complete
  settled := by
    intro hws symbol hsymbol
    rcases h.settled hws symbol hsymbol with hdesired | hconfirmed | hleaves
    · exact Or.inl hdesired
    · exact Or.inr (Or.inl (hconfirmed.append effects))
    · exact Or.inr (Or.inr hleaves)

/-- A step around the lock and the sync task that leaves the subscriptions alone. -/
theorem congr (h : Reconciling before later s) (hsame : s.client.SameSubscriptions t.client)
    (hsync : t.syncTask = s.syncTask) (hlock : t.lock = s.lock)
    (hconnections : t.connections = s.connections)
    (hws : t.client.ws ≠ none → s.client.ws ≠ none)
    (hlistens : t.runTask.listens = true → s.runTask.listens = true) :
    Reconciling before later t where
  complete := by
    intro hready hentered
    rw [hsame.desired_eq, hsame.covered_eq, StreamState.reserved, hlock]
    rw [hlock] at hready
    refine h.complete (hready.imp_left hlistens) fun hawaits => hentered ?_
    rw [StreamState.AwaitsResubscribe, hsync, hlock]
    exact hawaits
  settled := by
    intro hopen symbol hsymbol
    rw [hsame.subscribed_eq] at hsymbol
    rw [hsame.desired_eq, hconnections, StreamState.WillLeave, hsync, hlock]
    exact h.settled (hws hopen) symbol hsymbol

/-- The listen loop goes on. -/
theorem loopsTo (h : Reconciling before later s) (hlistens : s.runTask.listens = true)
    (hloops : s.LoopsTo t) : Reconciling before later t := by
  refine h.congr hloops.bystands.same hloops.syncTask_eq hloops.bystands.lock_eq
    hloops.continues.connections_eq (fun hopen => ?_) fun _ => hlistens
  rwa [hloops.continues.agrees.ws_eq] at hopen

/-- A run task that does not listen and does not hold the lock leaves everything to its next
connection. -/
theorem idle (h : Reconciling before later s)
    (hsubscribed : t.client.subscribed = s.client.subscribed)
    (hdesired : t.client.desiredSymbols = s.client.desiredSymbols)
    (hws : t.client.ws ≠ none → s.client.ws ≠ none) (hconnections : t.connections = s.connections)
    (hlistens : t.runTask.listens = false) (hfree : ∀ sending, t.lock ≠ some (.run, sending))
    (hleaves : ∀ symbol, s.WillLeave symbol → t.WillLeave symbol) :
    Reconciling before later t where
  complete := by
    rintro (hready | ⟨sending, hlock⟩)
    · rw [hlistens] at hready
      cases hready
    · exact absurd hlock (hfree sending)
  settled := by
    intro hopen symbol hsymbol
    rw [hsubscribed] at hsymbol
    rw [hdesired, hconnections]
    rcases h.settled (hws hopen) symbol hsymbol with hwanted | hconfirmed | hleft
    · exact Or.inl hwanted
    · exact Or.inr (Or.inl hconfirmed)
    · exact Or.inr (Or.inr (hleaves symbol hleft))

/-- Without a connection there is nothing to reconcile. -/
theorem closed (hs : StreamInvariant t) (hws : t.client.ws = none) :
    Reconciling before later t where
  complete := by
    intro hready
    -- a run task that listens or holds the lock has a connection
    have hconnected : t.runTask.isConnected = true := by
      rcases hready with hlistens | ⟨sending, hlock⟩
      · exact RunTask.isConnected_of_listens hlistens
      · rw [hs.run_holds sending hlock]
        rfl
    rw [hs.ws_connected hconnected] at hws
    cases hws
  settled := fun hopen => absurd hws hopen

/-! ### Critical sections -/

/-- The run task goes on in its `resubscribe`. -/
theorem follow_run {rounds : List (List String)} (h : Reconciling before later s)
    (hs : StreamInvariant s) (htask : s.runTask = .resubscribing)
    (hcover : s.syncTask.isResubscribing = false →
      s.client.desiredSymbols ⊆ s.client.covered ∪ rounds.flatten.toFinset) :
    Reconciling before later
      (s.follow .run (s.client.sendNext category .subscribe now rounds)) := by
  have hopen : s.client.ws = some s.connections := hs.ws_connected (by rw [htask]; rfl)
  set sendRun := s.client.sendNext category .subscribe now rounds with hsendRun
  have hlock : ∀ sending, (s.follow .run sendRun).lock ≠ some (.sync, sending) := by
    intro sending
    rw [StreamState.follow]
    split
    · simp
    · rw [StreamState.opReturned_lock]
      simp
  have hsync : (s.follow .run sendRun).syncTask = s.syncTask := by
    rw [StreamState.follow]
    split
    · rfl
    · rename_i outcome _
      cases outcome with
      | ok returned => rfl
      | error exc => rfl
  constructor
  · intro _ hentered
    have hother : s.syncTask.isResubscribing = false := by
      by_contra hresubscribing
      exact hentered ⟨hsync ▸ Bool.eq_true_of_not_eq_false hresubscribing, hlock⟩
    rw [StreamState.follow_client, StreamState.follow_reserved,
      BybitWebSocketClient.sendNext_desired]
    refine (hcover hother).trans ?_
    cases hprogress : sendRun.progress with
    | sending next =>
        -- the first batch is pending, the others stay reserved
        obtain ⟨hrounds, hkind, -⟩ := BybitWebSocketClient.sendNext_sending hprogress
        rw [BybitWebSocketClient.sendNext_covered hprogress, SendProgress.reserved,
          Sending.reserved, if_pos (hkind.mpr rfl), ← hrounds, List.flatten_cons,
          List.toFinset_append, Finset.union_assoc]
    | returned outcome =>
        rcases BybitWebSocketClient.sendNext_returned hprogress with ⟨hrounds, hclient⟩ | hclosed
        · rw [hclient, hrounds]
          exact Finset.Subset.refl _
        · rw [hopen] at hclosed
          cases hclosed
  · intro _ symbol hsymbol
    rw [StreamState.follow_client] at hsymbol ⊢
    rw [BybitWebSocketClient.sendNext_subscribed] at hsymbol
    rw [BybitWebSocketClient.sendNext_desired, StreamState.follow_connections]
    rcases h.settled (by simp [hopen]) symbol hsymbol with hwanted | hconfirmed | hleft
    · exact Or.inl hwanted
    · exact Or.inr (Or.inl hconfirmed)
    · exact Or.inr (Or.inr (hleft.free hsync hlock))

/-- The sync task goes on to `unsubscribe`. -/
theorem callUnsubscribe {previous : Option (Finset String)} (h : Reconciling before later s)
    (htask : s.syncTask = .resubscribing previous s.client.desiredSymbols)
    (hcovered : s.runTask.listens = true → s.client.desiredSymbols ⊆ s.client.covered) :
    Reconciling before later ({ s with lock := none }.callUnsubscribe
      (previous.getD s.client.subscribed \ s.client.desiredSymbols)) where
  complete := by
    rintro (hlistens | ⟨sending, hlock⟩) _
    · exact (hcovered hlistens).trans Finset.subset_union_left
    · cases hlock
  settled := by
    intro hopen symbol hsymbol
    have hcases := h.settled hopen symbol hsymbol
    rw [StreamState.WillLeave, htask] at hcases
    rcases hcases with hwanted | hconfirmed | rfl
    · exact Or.inl hwanted
    · exact Or.inr (Or.inl hconfirmed)
    · by_cases hwanted : symbol ∈ s.client.desiredSymbols
      · exact Or.inl hwanted
      · -- the set object `previous` is still the one with the confirmed symbols
        have hconnected : s.client.ws ≠ none := hopen
        refine Or.inr (Or.inr ?_)
        simp only [StreamState.WillLeave, StreamState.callUnsubscribe, if_neg hconnected]
        exact ⟨Finset.mem_sdiff.mpr ⟨hsymbol, hwanted⟩, by simp⟩

/-- The sync task goes on in its `resubscribe`. -/
theorem follow_resubscribe {rounds : List (List String)} {previous : Option (Finset String)}
    (h : Reconciling before later s) (hs : StreamInvariant s)
    (htask : s.syncTask = .resubscribing previous s.client.desiredSymbols)
    (hcover : s.runTask.listens = true →
      s.client.desiredSymbols ⊆ s.client.covered ∪ rounds.flatten.toFinset) :
    Reconciling before later
      (s.follow .sync (s.client.sendNext category .subscribe now rounds)) := by
  have hws := @BybitWebSocketClient.sendNext_ws s.client category .subscribe now rounds
  have hinvariant : StreamInvariant
      (s.follow .sync (s.client.sendNext category .subscribe now rounds)) :=
    hs.follow hws fun hrun => TaskName.noConfusion hrun
  cases hprogress : (s.client.sendNext category .subscribe now rounds).progress with
  | sending next =>
      obtain ⟨hrounds, hkind, -⟩ := BybitWebSocketClient.sendNext_sending hprogress
      constructor
      · rw [StreamState.follow_client, StreamState.follow_reserved, hprogress,
          BybitWebSocketClient.sendNext_desired, BybitWebSocketClient.sendNext_covered hprogress]
        rw [StreamState.follow, hprogress]
        rintro (hlistens | ⟨sending, hlock⟩) _
        · rw [SendProgress.reserved, Sending.reserved, if_pos (hkind.mpr rfl),
            Finset.union_assoc, ← List.toFinset_append, ← List.flatten_cons, hrounds]
          exact hcover hlistens
        · cases hlock
      · rw [StreamState.follow_client, StreamState.follow_connections, hws,
          BybitWebSocketClient.sendNext_desired, BybitWebSocketClient.sendNext_subscribed]
        intro hopen symbol hsymbol
        have hcases := h.settled hopen symbol hsymbol
        rw [StreamState.WillLeave, htask] at hcases
        rw [StreamState.WillLeave, StreamState.follow, hprogress]
        dsimp only
        rw [htask]
        exact hcases
  | returned outcome =>
      rcases BybitWebSocketClient.sendNext_returned hprogress with ⟨rfl, -⟩ | hclosed
      · have hreturned : s.follow .sync (s.client.sendNext category .subscribe now []) =
            { s with lock := none }.callUnsubscribe
              (previous.getD s.client.subscribed \ s.client.desiredSymbols) := by
          simp only [StreamState.follow, BybitWebSocketClient.sendNext, StreamState.opReturned,
            htask]
        rw [hreturned]
        refine h.callUnsubscribe htask fun hlistens => ?_
        simpa using hcover hlistens
      · -- the connection is gone
        refine closed hinvariant ?_
        rw [StreamState.follow_client, hws, hclosed]

/-- The sync task goes on in its `unsubscribe`; `client` has forgotten what was unsubscribed. -/
theorem follow_unsubscribe {client : BybitWebSocketClient} {rounds : List (List String)}
    {symbols : Finset String} (hs : StreamInvariant s) (hws : client.ws = s.client.ws)
    (hdesired : client.desiredSymbols = s.client.desiredSymbols)
    (htask : s.syncTask = .unsubscribing symbols)
    (hcovered : s.runTask.listens = true → s.client.desiredSymbols ⊆ client.covered)
    (hsettled : s.client.ws ≠ none → ∀ symbol ∈ client.subscribed,
      symbol ∈ s.client.desiredSymbols ∨ ConfirmedSince before later s.connections symbol ∨
        symbol ∈ symbols ∧ symbol ∈ rounds.flatten) :
    Reconciling before later
      (s.follow .sync (client.sendNext category .unsubscribe now rounds)) := by
  have hclient := @BybitWebSocketClient.sendNext_unsubscribe_client client category now rounds
  have hinvariant : StreamInvariant
      (s.follow .sync (client.sendNext category .unsubscribe now rounds)) :=
    hs.follow (by rw [hclient, hws]) fun hrun => TaskName.noConfusion hrun
  cases hprogress : (client.sendNext category .unsubscribe now rounds).progress with
  | sending next =>
      obtain ⟨hrounds, -, -⟩ := BybitWebSocketClient.sendNext_sending hprogress
      constructor
      · rw [StreamState.follow_client, hclient, hdesired]
        rw [StreamState.follow, hprogress]
        rintro (hlistens | ⟨sending, hlock⟩) _
        · exact (hcovered hlistens).trans Finset.subset_union_left
        · cases hlock
      · rw [StreamState.follow_client, StreamState.follow_connections, hclient, hdesired, hws]
        intro hopen symbol hsymbol
        rw [StreamState.WillLeave, StreamState.follow, hprogress]
        dsimp only
        rw [htask]
        refine (hsettled hopen symbol hsymbol).imp_right (Or.imp_right fun hleaving => ?_)
        refine ⟨hleaving.1, fun sending hlock => ?_⟩
        cases hlock
        have hmem := hleaving.2
        rwa [← hrounds] at hmem
  | returned outcome =>
      rcases BybitWebSocketClient.sendNext_returned hprogress with ⟨rfl, -⟩ | hclosed
      · -- nothing is left to unsubscribe
        have hreturned : s.follow .sync (client.sendNext category .unsubscribe now []) =
            { s with client := client, lock := none, syncTask := .idle } := by
          simp only [StreamState.follow, BybitWebSocketClient.sendNext, StreamState.opReturned,
            htask]
        rw [hreturned]
        constructor
        · rintro (hlistens | ⟨sending, hlock⟩) _
          · exact hdesired ▸ (hcovered hlistens).trans Finset.subset_union_left
          · cases hlock
        · intro hopen symbol hsymbol
          rw [hdesired]
          refine (hsettled (hws ▸ hopen) symbol hsymbol).imp_right (Or.imp_right ?_)
          simp
      · refine closed hinvariant ?_
        rw [StreamState.follow_client, hclient, hclosed]

/-- A task enters its critical section. -/
theorem enter (h : Reconciling before later s) (hs : StreamInvariant s) (hcoord : Coordinated s)
    (hfree : s.lock = none) {task : TaskName} {sendRun : SendRun}
    (henter : s.enter config.toSettings category now task = some sendRun) :
    Reconciling before later (s.follow task sendRun) := by
  have hmissing := BybitWebSocketClient.desired_subset config s.client
  cases task with
  | run =>
      rcases StreamState.enter_cases henter with ⟨rfl, hrun⟩ | ⟨hsync, -⟩
      · exact h.follow_run hs (hrun rfl) fun _ => hmissing
      · cases hsync
  | sync =>
      rcases StreamState.enter_sync_cases henter with
        ⟨previous, desired, htask, rfl⟩ | ⟨symbols, htask, rfl⟩
      · have hfits := hcoord.fits
        rw [htask] at hfits
        obtain ⟨rfl, -⟩ := hfits
        exact h.follow_resubscribe hs htask fun _ => hmissing
      · refine follow_unsubscribe hs rfl rfl htask (fun hlistens => ?_) fun hopen symbol hmem => ?_
        · have hentered : ¬ s.AwaitsResubscribe := by
            rw [StreamState.AwaitsResubscribe, htask]
            simp [SyncTask.isResubscribing]
          have hcovered := h.complete (Or.inl hlistens) hentered
          rwa [StreamState.reserved, hfree, List.toFinset_nil, Finset.union_empty] at hcovered
        · have hcases := h.settled hopen symbol hmem
          rw [StreamState.WillLeave, htask] at hcases
          refine hcases.imp_right (Or.imp_right fun hleaving => ⟨hleaving.1, ?_⟩)
          rw [(BybitWebSocketClient.batches_spec config _).1]
          exact PyText.mem_sorted.mpr (Finset.mem_inter.mpr ⟨hleaving.1, hmem⟩)

/-- The run task goes on after its send. -/
theorem sent_run (h : Reconciling before later s) (hs : StreamInvariant s) (hcoord : Coordinated s)
    {sending : Sending} (hheld : s.lock = some (.run, sending)) (outcome : Except PyExc ℚ) :
    Reconciling before later
      (s.follow .run (s.client.resumeSend category sending outcome)) := by
  have hsome := hcoord.run_subscribes sending hheld
  obtain ⟨reqId, batch, rest⟩ := sending
  obtain ⟨reqId, rfl⟩ := Option.isSome_iff_exists.mp hsome
  cases outcome with
  | ok now =>
      refine h.follow_run hs (hs.run_holds _ hheld) fun hother => ?_
      have hentered : ¬ s.AwaitsResubscribe := fun hawaits => by
        rw [hawaits.1] at hother
        cases hother
      have hcovered := h.complete (Or.inr ⟨_, hheld⟩) hentered
      rwa [StreamState.reserved, hheld] at hcovered
  | error exc =>
      -- the connection is left, and the next one subscribes anew
      have hreturned : ∃ client, s.follow .run (s.client.resumeSend category
            ⟨some reqId, batch, rest⟩ (.error exc)) =
          { s with client := client, lock := none }.leave (Exit.ofRaise .sendFailed exc) ∧
            client.subscribed = s.client.subscribed ∧
            client.desiredSymbols = s.client.desiredSymbols ∧ client.ws = s.client.ws := by
        rw [BybitWebSocketClient.resumeSend]
        dsimp only
        split
        · exact ⟨_, rfl, rfl, rfl, rfl⟩
        · exact ⟨_, rfl, rfl, rfl, rfl⟩
      obtain ⟨client, hfollow, hsubscribed, hdesired, hws⟩ := hreturned
      rw [hfollow]
      have hreleased (holder : TaskName) (sending : Sending) :
          ({ s with client := client, lock := none }.leave
            (Exit.ofRaise .sendFailed exc)).lock ≠ some (holder, sending) := by
        simp [StreamState.leave]
      exact h.idle hsubscribed hdesired (fun hopen => hws ▸ hopen) rfl rfl (hreleased .run)
        fun symbol hleft => hleft.free rfl (hreleased .sync)

/-- The sync task goes on after its send, which has returned. -/
theorem sent_sync (h : Reconciling before later s) (hs : StreamInvariant s)
    (hcoord : Coordinated s) {sending : Sending} (hheld : s.lock = some (.sync, sending)) :
    Reconciling before later
      (s.follow .sync (s.client.resumeSend category sending (.ok now))) := by
  have hfits := hcoord.fits
  rw [hheld] at hfits
  have hentered : ¬ s.AwaitsResubscribe := fun hawaits => hawaits.2 sending hheld
  obtain ⟨reqId, batch, rest⟩ := sending
  cases htask : s.syncTask with
  | idle =>
      rw [htask] at hfits
      exact absurd rfl (hfits _)
  | resubscribing previous wanted =>
      rw [htask] at hfits
      obtain ⟨rfl, hsome⟩ := hfits
      obtain ⟨reqId, rfl⟩ := Option.isSome_iff_exists.mp (hsome _ rfl)
      refine h.follow_resubscribe hs htask fun hlistens => ?_
      have hcovered := h.complete (Or.inl hlistens) hentered
      rwa [StreamState.reserved, hheld] at hcovered
  | unsubscribing symbols =>
      rw [htask] at hfits
      obtain ⟨hdisjoint, hsending⟩ := hfits
      obtain ⟨rfl, hsymbols⟩ := hsending _ rfl
      refine follow_unsubscribe hs rfl rfl htask (fun hlistens symbol hwanted => ?_)
        fun hopen symbol hmem => ?_
      · -- a desired symbol is in no batch of an unsubscribing loop
        have hcovered := h.complete (Or.inl hlistens) hentered hwanted
        have hreserved : s.reserved = [] := by
          rw [StreamState.reserved, hheld]
          rfl
        rw [hreserved, List.toFinset_nil, Finset.union_empty] at hcovered
        rcases BybitWebSocketClient.mem_covered.mp hcovered with hpending | hsubscribed
        · exact BybitWebSocketClient.mem_covered.mpr (Or.inl hpending)
        · refine BybitWebSocketClient.mem_covered.mpr (Or.inr (Finset.mem_sdiff.mpr
            ⟨hsubscribed, fun hbatch => ?_⟩))
          have hleaves := hsymbols symbol (List.mem_append_left _ (List.mem_toFinset.mp hbatch))
          exact Finset.disjoint_left.mp hdisjoint hleaves hwanted
      · obtain ⟨hsubscribed, hbatch⟩ := Finset.mem_sdiff.mp hmem
        have hcases := h.settled hopen symbol hsubscribed
        rw [StreamState.WillLeave, htask] at hcases
        refine hcases.imp_right (Or.imp_right fun hleaving => ⟨hleaving.1, ?_⟩)
        rcases List.mem_append.mp (hleaving.2 _ hheld) with hin | hin
        · exact absurd (List.mem_toFinset.mpr hin) hbatch
        · exact hin

/-- A request is confirmed. -/
theorem confirm (h : Reconciling before later s) {pending : PendingSubscription}
    (hnumbered : s.client.Numbered category) (hmem : pending ∈ s.client.pendingSubscriptions)
    (hrequest : .requested (some s.connections) pending ∈ before ++ later)
    (hsame : (s.client.confirm pending).SameSubscriptions t.client)
    (hsync : t.syncTask = s.syncTask) (hlock : t.lock = s.lock)
    (hconnections : t.connections = s.connections) (hws : t.client.ws = s.client.ws)
    (htask : t.runTask = s.runTask) :
    Reconciling before (later ++ [.acknowledged (some s.connections) pending.reqId true]) t where
  complete := by
    intro hready hentered
    rw [hsame.desired_eq, hsame.covered_eq, hnumbered.covered_confirm hmem, StreamState.reserved,
      hlock]
    rw [htask, hlock] at hready
    refine h.complete hready fun hawaits => hentered ?_
    rw [StreamState.AwaitsResubscribe, hsync, hlock]
    exact hawaits
  settled := by
    intro hopen symbol hsymbol
    rw [hsame.subscribed_eq] at hsymbol
    rw [hsame.desired_eq, hconnections, StreamState.WillLeave, hsync, hlock]
    rcases Finset.mem_union.mp hsymbol with hold | hnew
    · exact (h.extend _).settled (hws ▸ hopen) symbol hold
    · refine Or.inr (Or.inl ⟨pending, ?_, List.mem_toFinset.mp hnew, ?_⟩)
      · rw [← List.append_assoc]
        exact List.mem_append_left _ hrequest
      · exact List.mem_append_right _ (List.mem_singleton_self _)

/-- The listen loop handles a frame. -/
theorem receive (h : Reconciling before later s) (hs : StreamInvariant s)
    (htracks : s.Tracked category (before ++ later)) (htask : s.runTask = .receiving)
    (raw : RawJson) (inbox : List (RawJson × ℚ)) (noted ackCheck tickerCheck : ℚ)
    (raised : Option PyExc) :
    Reconciling before
      (later ++ ({ s with inbox }.receiveFrame config.toSettings category raw noted ackCheck
        tickerCheck raised).1)
      ({ s with inbox }.receiveFrame config.toSettings category raw noted ackCheck tickerCheck
        raised).2 := by
  have hopen : s.client.ws = some s.connections := hs.ws_connected (by rw [htask]; rfl)
  have hlistens : s.runTask.listens = true := by rw [htask]; rfl
  have hloops := @StreamState.loopsTo_receiveFrame { s with inbox } config.toSettings category raw
    noted ackCheck tickerCheck raised
  have hws := @BybitWebSocketClient.handleRaw_ws s.client category raw noted raised
  rcases BybitWebSocketClient.handleRaw_subscriptions s.client category raw noted raised with
    ⟨hsame, -, -⟩ | ⟨pending, hmem, hsame, heffects⟩ | ⟨connection, reqId, hrejected⟩
  · have hhandled : Reconciling before
        (later ++ (s.client.handleRaw category raw noted raised).effects)
        { s with client := (s.client.handleRaw category raw noted raised).client, inbox } :=
      (h.extend _).congr hsame rfl rfl rfl (fun hopen' => hws ▸ hopen') fun _ => hlistens
    exact hhandled.loopsTo hlistens hloops
  · have hrequest : .requested (some s.connections) pending ∈ before ++ later :=
      mem_requestsOn.mp (htracks.pending_sublist.subset hmem)
    have hhandled : Reconciling before
        (later ++ (s.client.handleRaw category raw noted raised).effects)
        { s with client := (s.client.handleRaw category raw noted raised).client, inbox } := by
      rw [heffects, hopen]
      exact h.confirm htracks.numbered_client hmem hrequest hsame rfl rfl rfl hws rfl
    exact hhandled.loopsTo hlistens hloops
  · -- a rejection ends the connection
    obtain ⟨hsubscribed, message, hresult⟩ :=
      BybitWebSocketClient.handleRaw_rejected hrejected
    have hended : ({ s with inbox }.receiveFrame config.toSettings category raw noted ackCheck
        tickerCheck raised).2 =
        { s with client := (s.client.handleRaw category raw noted raised).client, inbox }.fail
          .subscribeRejected := by
      rw [StreamState.receiveFrame]
      dsimp only
      rw [hresult]
      rfl
    rw [hended]
    refine (h.extend _).idle hsubscribed (BybitWebSocketClient.handleRaw_desired raw noted raised)
      (fun hopen' => hws ▸ hopen') rfl rfl ?_ fun symbol hleft => hleft
    exact hs.not_run_holds (by simp [htask])

/-- A new connection begins with nothing confirmed. -/
theorem connected (hs : StreamInvariant s) (htask : s.runTask = .connecting)
    (connectedAt pingAt : ℚ) :
    Reconciling before later { s with
      client := s.client.established (s.connections + 1) connectedAt pingAt
      runTask := .resubscribing
      syncTask := s.syncTask.detach s.client.subscribed
      connections := s.connections + 1 } where
  complete := by
    rintro (hlistens | ⟨sending, hlock⟩)
    · cases hlistens
    · exact absurd hlock (hs.not_run_holds (by simp [htask]) sending)
  settled := by simp [BybitWebSocketClient.established]

/-- A synchronisation begins. -/
theorem called (hs : StreamInvariant s) (hcoord : Coordinated s) (hidle : s.syncTask = .idle)
    (symbols : Finset String) :
    Reconciling before later { s with
      client := s.client.setSymbols symbols
      syncTask := if s.client.ws = none then .idle else .resubscribing none symbols } := by
  have hinvariant : StreamInvariant { s with
      client := s.client.setSymbols symbols
      syncTask := if s.client.ws = none then .idle else .resubscribing none symbols } :=
    ⟨hs.ws_eq, hs.run_holds⟩
  by_cases hopen : s.client.ws = none
  · exact closed hinvariant hopen
  · have hfits := hcoord.fits
    rw [hidle] at hfits
    constructor
    · intro _ hentered
      -- the lock is not held by the sync task, which was idle
      refine absurd ⟨?_, hfits⟩ hentered
      simp [SyncTask.isResubscribing, hopen]
    · intro _ symbol _
      refine Or.inr (Or.inr ?_)
      simp [StreamState.WillLeave, hopen]

theorem begins (hs : StreamInvariant s) (hcoord : Coordinated s)
    (hbegins : (∃ symbols, action = .sync symbols) ∨
      ∃ connectedAt pingAt, action = .connected connectedAt pingAt)
    (hmove : StreamMove config.toSettings category s action effects t) :
    Reconciling before later t := by
  rcases hbegins with ⟨symbols, rfl⟩ | ⟨connectedAt, pingAt, rfl⟩
  · cases hmove with
    | sync hidle => exact called hs hcoord hidle symbols
  · cases hmove with
    | connected htask => exact connected hs htask connectedAt pingAt

/-- Every move that does not interrupt the sync task keeps the progress. -/
theorem move (h : Reconciling before later s) (hs : StreamInvariant s) (hcoord : Coordinated s)
    (htracks : s.Tracked category (before ++ later))
    (hundisturbed : s.interruptsSync action = false)
    (hmove : StreamMove config.toSettings category s action effects t) :
    Reconciling before (later ++ effects) t := by
  have hinvariant := hs.move hmove
  have hquiet : Reconciling before (later ++ []) s := (List.append_nil later).symm ▸ h
  have hloops (task : RunTask) (htask : s.runTask = task) (hlistens : task.listens = true)
      (hto : s.LoopsTo t) : Reconciling before (later ++ []) t :=
    hquiet.loopsTo (htask ▸ hlistens) hto
  -- a run task that does not listen is not yet past its next `resubscribe`
  have hwaits (client : BybitWebSocketClient) (hsame : s.client.SameSubscriptions client)
      (hws : client.ws = s.client.ws) (task : RunTask) (hlistens : task.listens = false)
      (inbox : List (RawJson × ℚ)) :
      Reconciling before (later ++ []) { s with client, runTask := task, inbox } := by
    refine hquiet.congr hsame rfl rfl rfl (fun hopen => hws ▸ hopen) fun hlater => ?_
    rw [hlistens] at hlater
    cases hlater
  have hsame := BybitWebSocketClient.SameSubscriptions.refl s.client
  cases hmove with
  | requestStop => exact hquiet.congr hsame rfl rfl rfl id id
  | sync hidle => cases hundisturbed
  | acquire hfree henter => exact (h.enter hs hcoord hfree henter).extend _
  | @sent task sending outcome hheld =>
      cases task with
      | run => exact (h.sent_run hs hcoord hheld outcome).extend _
      | sync =>
          cases outcome with
          | ok now => exact (h.sent_sync hs hcoord hheld).extend _
          | error exc =>
              rw [StreamState.interruptsSync, hheld] at hundisturbed
              cases hundisturbed
  | cancelBackoff htask => exact hwaits _ hsame rfl _ rfl _
  | cancelClosing htask => exact closed hinvariant rfl
  | cancelWaiting htask hheld => exact hwaits _ hsame rfl _ rfl _
  | cancelSync hheld => cases hundisturbed
  | stopped htask hstop => exact hwaits _ hsame rfl _ rfl _
  | connect htask hstop => exact hwaits (s.client.setStatus false) ⟨rfl, rfl, rfl, rfl⟩ rfl _ rfl _
  | connectFailed htask => exact closed hinvariant rfl
  | connected htask => exact connected hs htask _ _
  | callback htask => exact hloops _ htask rfl (StreamState.loopsTo_callbackReturned _)
  | deliver => exact hquiet.congr hsame rfl rfl rfl id id
  | timeout htask =>
      refine hloops _ htask rfl (StreamState.loopsTo_checkWatchdogs ?_)
      split
      · exact .awaits rfl
      · exact StreamState.loopsTo_loopHead
  | @pinged sentAt ended htask =>
      have hnoted : Reconciling before (later ++ [])
          { s with client := { s.client with lastPingAt := sentAt } } :=
        hquiet.congr ⟨rfl, rfl, rfl, rfl⟩ rfl rfl rfl id id
      have hlistens : s.runTask.listens = true := by rw [htask]; rfl
      exact hnoted.loopsTo hlistens StreamState.loopsTo_loopHead
  | pingFailed htask => exact hloops _ htask rfl (StreamState.loopsTo_leave _)
  | receive htask hinbox => exact h.receive hs htracks htask _ _ _ _ _ _
  | recvFailed htask => exact hloops _ htask rfl (StreamState.loopsTo_leave _)
  | closed htask => exact closed hinvariant rfl

end Reconciling

/-! ## Synchronisations -/

/-- A step that does not interrupt the sync task. -/
def SyncStep (config : Settings) (category : String) (s : StreamState) (event : StreamEvent)
    (t : StreamState) : Prop :=
  StreamStep config category s event t ∧ s.interruptsSync event.1 = false

/-- What holds when the subscriptions of a connection are reconciled; `later` are the effects since
the synchronisation or the connection began. -/
structure Reconciled (before later : List Effect) (s : StreamState) : Prop where
  complete : s.client.desiredSymbols ⊆ s.client.covered
  settled : ∀ symbol ∈ s.client.subscribed,
    symbol ∈ s.client.desiredSymbols ∨ ConfirmedSince before later s.connections symbol
  /-- What the server may stream besides is pending or was confirmed since. -/
  streamed : ∀ entry ∈ heldOn s.connections (before ++ later),
    (∃ symbol, entry.2 = tickerTopic symbol ∧ (symbol ∈ s.client.desiredSymbols ∨
      ConfirmedSince before later s.connections symbol)) ∨
    ∃ pending ∈ s.client.pendingSubscriptions, pending.reqId = entry.1 ∧ entry.2 ∈ pending.topics

/-- Once the sync task is idle and the run task listens, a synchronisation is over. -/
theorem Reconciling.reconciled {before later : List Effect} {s : StreamState}
    (h : Reconciling before later s) (hs : StreamInvariant s) (hcoord : Coordinated s)
    (hknown : s.KnowsTopics (before ++ later)) (hidle : s.syncTask = .idle)
    (hlistens : s.runTask.listens = true) : Reconciled before later s := by
  have hopen := hs.ws_connected (RunTask.isConnected_of_listens hlistens)
  have hfits := hcoord.fits
  rw [hidle] at hfits
  have hfree : s.lock = none := by
    -- neither task is in a critical section
    cases hlock : s.lock with
    | none => rfl
    | some held =>
        obtain ⟨task, sending⟩ := held
        cases task with
        | run =>
            rw [hs.run_holds sending hlock] at hlistens
            cases hlistens
        | sync => exact absurd hlock (hfits sending)
  have hsettled : ∀ symbol ∈ s.client.subscribed,
      symbol ∈ s.client.desiredSymbols ∨ ConfirmedSince before later s.connections symbol := by
    intro symbol hsymbol
    have hcases := h.settled (by simp [hopen]) symbol hsymbol
    rw [StreamState.WillLeave, hidle] at hcases
    exact hcases.imp_right fun hother => hother.resolve_right id
  refine ⟨?_, hsettled, fun entry hentry => ?_⟩
  · have hcovered := h.complete (Or.inl hlistens) fun hawaits => by
      rw [StreamState.AwaitsResubscribe, hidle] at hawaits
      cases hawaits.1
    rwa [StreamState.reserved, hfree, List.toFinset_nil, Finset.union_empty] at hcovered
  · rcases hknown.known entry hentry with hpending | ⟨symbol, hsymbol, htopic⟩
    · exact Or.inr hpending
    · exact Or.inl ⟨symbol, htopic, hsettled symbol hsymbol⟩

/-- As long as the sync task is not interrupted, the run and the progress go on. -/
theorem Reconciling.runs {config : AdmittedSettings} {category : String} {clock : ℚ}
    {prior later : List StreamEvent} {s₁ s : StreamState}
    (hprior : StreamRun config category clock prior s₁)
    (hbegun : Reconciling (effectsOf prior) [] s₁)
    (hlater : Trace (SyncStep config.toSettings category) s₁ later s) :
    StreamRun config category clock (prior ++ later) s ∧
      s.client.desiredSymbols = s₁.client.desiredSymbols ∧
      Reconciling (effectsOf prior) (effectsOf later) s := by
  induction hlater with
  | nil => exact ⟨by rwa [List.append_nil], rfl, hbegun⟩
  | @snoc events u event u' _ hstep ih =>
      obtain ⟨hrun, hdesired, hreconciling⟩ := ih
      obtain ⟨-, t, hmove, rfl⟩ := StreamStep.move hstep.1
      have htracks := hrun.tracks
      rw [effectsOf, List.flatMap_append] at htracks
      have hmoved := hreconciling.move hrun.invariant hrun.coordinated htracks hstep.2 hmove
      refine ⟨?_, (hmove.desired_eq fun symbols heq => ?_).trans hdesired, ?_⟩
      · rw [← List.append_assoc]
        exact hrun.snoc hstep.1
      · have hcalled := hstep.2
        rw [heq] at hcalled
        cases hcalled
      · rw [effectsOf_append events]
        exact ⟨hmoved.complete, hmoved.settled⟩

/-- From the call of a synchronisation, or from the start of a connection, the subscriptions are
reconciled as soon as the sync task is idle and the run task listens, unless the sync task was
called again, was cancelled, or failed to send. -/
theorem sync_reconciles {config : AdmittedSettings} {category : String} {clock : ℚ}
    {prior later : List StreamEvent} {event : StreamEvent} {s₀ s₁ s : StreamState}
    (hprior : StreamRun config category clock prior s₀)
    (hstart : StreamStep config.toSettings category s₀ event s₁)
    (hbegins : (∃ symbols, event.1 = .sync symbols) ∨
      ∃ connectedAt pingAt, event.1 = .connected connectedAt pingAt)
    (hlater : Trace (SyncStep config.toSettings category) s₁ later s) (hidle : s.syncTask = .idle)
    (hlistens : s.runTask.listens = true) :
    s.client.desiredSymbols = s₁.client.desiredSymbols ∧
      Reconciled (effectsOf (prior ++ [event])) (effectsOf later) s := by
  have hbegun : Reconciling (effectsOf (prior ++ [event])) [] s₁ := by
    obtain ⟨-, t, hmove, ht⟩ := StreamStep.move hstart
    have hmoved : Reconciling (effectsOf (prior ++ [event])) [] t :=
      .begins hprior.invariant hprior.coordinated hbegins hmove
    rw [ht]
    exact ⟨hmoved.complete, hmoved.settled⟩
  obtain ⟨hrun, hdesired, hreconciling⟩ := Reconciling.runs (hprior.snoc hstart) hbegun hlater
  have hknown := hrun.knowsTopics
  rw [effectsOf, List.flatMap_append] at hknown
  exact ⟨hdesired,
    hreconciling.reconciled hrun.invariant hrun.coordinated hknown hidle hlistens⟩

/-- Execute actions that do not interrupt the sync task. -/
def performSync (config : AdmittedSettings) (category : String) (s : StreamState)
    (actions : List Action) : List StreamEvent × StreamState :=
  Trace.exec (fun s action =>
    if s.interruptsSync action then none else s.next config.toSettings category action) s [] actions

theorem run_performSync (config : AdmittedSettings) (category : String) (s : StreamState)
    (actions : List Action) :
    Trace (SyncStep config.toSettings category) s (performSync config category s actions).1
      (performSync config category s actions).2 := by
  refine Trace.exec_trace (fun s action event s' h => ?_) actions Trace.nil
  split at h
  · cases h
  · rename_i hquiet
    obtain ⟨haction, hstep⟩ := StreamState.next_step h
    rw [← haction] at hquiet
    exact ⟨hstep, Bool.eq_false_iff.mpr hquiet⟩

/-- In `replaceSymbol` a second synchronisation is called. -/
theorem replaceSymbol_syncs : ((perform .default "spot" 0 (replaceSymbol.take 10)).2.next
    AdmittedSettings.default.toSettings "spot" (.sync {"ETHUSDT"})).isSome = true := by
  decide +kernel

/-- With its last send the second synchronisation is over. -/
theorem sync_reconciles_replaceSymbol : ∃ before later s,
    Reconciled before later s ∧ s.client.desiredSymbols = {"ETHUSDT"} ∧
      s.client.subscribed = ∅ ∧
      heldOn 1 (before ++ later) = [("sub-spot-2", "tickers.ETHUSDT")] := by
  obtain ⟨haction, hstep⟩ := StreamState.next_step (Option.some_get replaceSymbol_syncs).symm
  have hlater := run_performSync .default "spot" (Option.get _ replaceSymbol_syncs).2
    (replaceSymbol.drop 11 ++ [.sent (.ok 3)])
  exact ⟨_, _, _, (sync_reconciles (run_perform .default "spot" 0 (replaceSymbol.take 10)) hstep
    (Or.inl ⟨_, haction⟩) hlater (by decide +kernel) (by decide +kernel)).2, by decide +kernel,
    by decide +kernel, by decide +kernel⟩

end BybitMonitor
