import Mathlib
import BybitMonitor.Alerts.Flush
import BybitMonitor.Health.Monitor
import BybitMonitor.ToMathlib.Streak

/-!
# The supervised worker

`_run` catches what an iteration raises, counts it and sleeps before the next one, so that delivery
ends only with a cancellation or with `stop`. Which iterations fail depends on the replies alone: an
error of the database fails the iteration unless it is raised by the bookkeeping after a delivery,
and so does a delay that is no number.

* `AlertDispatcher.loopBody_supervised`: the loop body counts an iteration as failed exactly if a
  reply has broken it, then sleeps, and returns.
* `worker_supervised`: what this means in every run for the worker and for its health, up to the
  return of `stop` and after it.
-/

namespace BybitMonitor

/-! ## The replies that matter -/

/-- A reply that cancels the worker. -/
def Exchange.cancels : Exchange → Bool
  | ⟨.store _, .error exc⟩ => !exc.isException
  | ⟨.post _, .raised exc⟩ => !exc.isException
  | _ => false

/-- A reply that makes the iteration fail. -/
def Exchange.breaks : Exchange → Bool
  -- the handler of `_deliver` catches what these raise
  | ⟨.store (.markNotificationSent _ _), _⟩ | ⟨.store (.confirmListing _ _ _), _⟩ => false
  | ⟨.store _, reply⟩ => !reply.isOk
  | exchange => exchange.floods

theorem Exchange.breaks_ok (op : StoreOp) (result : op.Result) :
    Exchange.breaks ⟨.store op, .ok result⟩ = false := by
  cases op <;> rfl

/-- The worker counts an iteration. -/
def Await.isVerdict : Await → Bool
  | .remember (.loopFailed _) | .remember (.loopCompleted _) => true
  | _ => false

/-- Where the worker stands in its loop. -/
inductive LoopStage
  /-- In an iteration that a reply has broken or not. -/
  | iterating (broken : Bool)
  /-- A failed iteration was counted. -/
  | failed
  deriving DecidableEq

namespace LoopStage

/-- What the worker may ask. -/
def Allows : LoopStage → Await → Prop
  | iterating broken, .remember (.loopFailed _) => broken = true
  | iterating broken, .remember (.loopCompleted _) => broken = false
  | iterating _, _ => True
  | failed, question => question = .sleep

/-- Where a reply leads. -/
def after : LoopStage → (question : Await) → question.Reply → LoopStage
  | iterating _, .remember (.loopFailed _), _ => failed
  | iterating _, .remember (.loopCompleted _), _ => iterating false
  | iterating broken, question, reply => iterating (broken || Exchange.breaks ⟨question, reply⟩)
  | failed, _, _ => iterating false

/-- Whether the iteration that is counted was broken. -/
def verdict : LoopStage → Await → Option Bool
  | iterating broken, .remember (.loopFailed _) | iterating broken, .remember (.loopCompleted _) =>
      some broken
  | _, _ => none

/-- The protocol of a worker that is not cancelled. -/
def protocol : Program.Protocol Await Await.Reply LoopStage where
  Allows := Allows
  Moves stage question reply stage' :=
    stage' = stage.after question reply ∧ Exchange.cancels ⟨question, reply⟩ = false

theorem allows_iterating {question : Await} (hverdict : question.isVerdict = false)
    (broken : Bool) : (iterating broken).Allows question := by
  cases question with
  | remember fact =>
      cases fact with
      | loopFailed time => cases hverdict
      | loopCompleted time => cases hverdict
      | _ => trivial
  | _ => trivial

theorem after_iterating {question : Await} (hverdict : question.isVerdict = false) (broken : Bool)
    (reply : question.Reply) : (iterating broken).after question reply =
      iterating (broken || Exchange.breaks ⟨question, reply⟩) := by
  cases question with
  | remember fact =>
      cases fact with
      | loopFailed time => cases hverdict
      | loopCompleted time => cases hverdict
      | _ => rfl
  | _ => rfl

/-- How a part of an iteration ends: what it raises has broken the iteration, and is caught. -/
def Tells {α : Type} (outcome : Except Raised α) (stage : LoopStage) : Prop :=
  match outcome with
  | .ok _ => stage = .iterating false
  | .error e => e.isException = true ∧ stage = .iterating true

/-- An exception that is passed on. -/
theorem Tells.raised {α β : Type} {e : Raised} {stage : LoopStage}
    (h : Tells (.error e : Except Raised α) stage) : Tells (.error e : Except Raised β) stage :=
  h

end LoopStage

/-! ## The worker in its loop -/

namespace AlertDispatcher

open Program LoopStage

variable {broken : Bool} {row : OutgoingNotification}

/-- A question in an iteration. -/
theorem ask_supervised {question : Await} {post : Except Raised question.Reply → LoopStage → Prop}
    (hverdict : question.isVerdict = false)
    (hpost : ∀ reply, Exchange.cancels ⟨question, reply⟩ = false →
      post (.ok reply) (.iterating (broken || Exchange.breaks ⟨question, reply⟩))) :
    (Coroutine.ask question).Meets protocol (.iterating broken) post := by
  refine ⟨allows_iterating hverdict broken, fun reply stage hmove => ?_⟩
  obtain ⟨rfl, hcancels⟩ := hmove
  rw [after_iterating hverdict]
  exact hpost reply hcancels

/-- A question whose reply cannot break the iteration. -/
theorem pass_supervised {question : Await} {post : Except Raised question.Reply → LoopStage → Prop}
    (hverdict : question.isVerdict = false)
    (hpasses : ∀ reply, Exchange.breaks ⟨question, reply⟩ = false)
    (hpost : ∀ reply, post (.ok reply) (.iterating broken)) :
    (Coroutine.ask question).Meets protocol (.iterating broken) post := by
  refine ask_supervised hverdict fun reply _ => ?_
  rw [hpasses reply, Bool.or_false]
  exact hpost reply

/-- An operation of the database. -/
theorem store_supervised {op : StoreOp} {post : Except Raised op.Result → LoopStage → Prop}
    (hok : ∀ result, post (.ok result) (.iterating broken))
    (herror : ∀ exc, exc.isException = true →
      post (.error (.python exc))
        (.iterating (broken || Exchange.breaks ⟨.store op, .error exc⟩))) :
    (Coroutine.store op).Meets protocol (.iterating broken) post := by
  refine meets_bind.mpr (ask_supervised rfl fun reply hcancels => ?_)
  cases reply with
  | ok result =>
      rw [Exchange.breaks_ok, Bool.or_false]
      exact hok result
  | error exc =>
      rw [Exchange.cancels, Bool.not_eq_false'] at hcancels
      exact herror exc hcancels

/-- What `send_message` asks is no verdict about an iteration. -/
theorem sendMessage_asks (config : Settings) (text : String) :
    (TelegramClient.sendMessage config text).Asks fun question => question.isVerdict = false := by
  have hfailure (errorType : String) : (TelegramClient.recordFailure errorType).Asks
      fun question => question.isVerdict = false :=
    asks_bind (asks_ask rfl) fun _ => asks_ask rfl
  have hresponse (response : HttpResponse) : (TelegramClient.handleResponse response).Asks
      fun question => question.isVerdict = false := by
    rw [TelegramClient.handleResponse]
    split_ifs
    · exact asks_bind (asks_ofExcept _) fun _ => asks_bind (hfailure _) fun _ => trivial
    · trivial
    · exact asks_bind (hfailure _) fun _ => trivial
    · refine asks_bind (asks_ofExcept _) fun body => ?_
      cases body with
      | object fields =>
          dsimp only
          split_ifs
          · exact asks_bind (asks_ask rfl) fun _ => asks_bind (asks_ask rfl) fun _ => trivial
          · exact asks_bind (hfailure _) fun _ => trivial
      | _ => exact asks_ofExcept _
  have hrequest (text : String) : (TelegramClient.requestChunk text).Asks
      fun question => question.isVerdict = false := by
    refine asks_bind (asks_ask rfl) fun reply => ?_
    cases reply with
    | response response => exact hresponse response
    | _ => trivial
  have hchunk (text : String) (left : ℕ) (attempt : ℕ) :
      (TelegramClient.sendChunkFrom text attempt left).Asks
        fun question => question.isVerdict = false := by
    -- by induction on the retries that are left
    induction left generalizing attempt with
    | zero =>
        refine asks_bind (hrequest text) fun failure => ?_
        cases failure with
        | none => trivial
        | some name =>
            refine asks_bind (hfailure _) fun _ => ?_
            exact asks_bind (hfailure _) fun _ => trivial
    | succ left ih =>
        refine asks_bind (hrequest text) fun failure => ?_
        cases failure with
        | none => trivial
        | some name =>
            refine asks_bind (hfailure _) fun _ => asks_bind (asks_ofExcept _) fun _ => ?_
            exact asks_bind (asks_ask rfl) fun _ => ih (attempt + 1)
  exact asks_forM (fun chunk => hchunk chunk _ 0) _

/-- A message is sent, or raises; the iteration is broken if the delay cannot be used. -/
theorem sendMessage_supervised (config : Settings) (text : String) :
    (TelegramClient.sendMessage config text).Meets protocol (.iterating false)
      fun outcome stage =>
        match outcome with
        | .ok _ => stage = .iterating false
        | .error e => e.isException = true ∧ stage = .iterating e.unschedulable := by
  refine ((TelegramClient.sendMessage_telegram config text).prod
    (sendMessage_asks config text).asking).along
    (S := fun replies stage => stage = .iterating replies.1) rfl ?_ ?_ ?_
  · rintro replies stage question rfl ⟨-, hverdict⟩
    exact allows_iterating hverdict replies.1
  · rintro replies stage question reply stage' rfl ⟨hstore, hverdict⟩ ⟨rfl, hcancels⟩
    refine ⟨(replies.1 || Exchange.floods ⟨question, reply⟩, ()), ⟨⟨?_, rfl⟩, trivial⟩, ?_⟩
    · cases question with
      | store op => exact absurd rfl (hstore op)
      | post text =>
          intro exc hreply
          rw [hreply, Exchange.cancels, Bool.not_eq_false'] at hcancels
          exact hcancels
      | _ => trivial
    · rw [after_iterating hverdict]
      cases question with
      | store op => exact absurd rfl (hstore op)
      | _ => rfl
  · rintro outcome replies stage rfl ⟨hreports, -⟩
    cases outcome with
    | ok _ => exact congrArg _ hreports
    | error e => exact ⟨hreports.1, congrArg _ hreports.2.symm⟩

/-- The bookkeeping after a delivery returns, or raises what can be booked. -/
theorem confirm_supervised :
    (confirm row).Meets protocol (.iterating false) fun outcome stage =>
      match outcome with
      | .ok _ => stage = .iterating false
      | .error e => e.isException = true ∧ stage = .iterating e.unschedulable := by
  rw [confirm]
  split
  · refine meets_bind.mpr (pass_supervised rfl (fun _ => rfl) fun now => ?_)
    exact store_supervised (fun _ => rfl) fun exc hexception => ⟨hexception, rfl⟩
  · refine meets_bind.mpr (pass_supervised rfl (fun _ => rfl) fun now => ?_)
    exact store_supervised (fun _ => rfl) fun exc hexception => ⟨hexception, rfl⟩

theorem bury_supervised (exc : Raised) :
    (bury row exc).Meets protocol (.iterating false) Tells := by
  refine meets_bind.mpr (pass_supervised rfl (fun _ => rfl) fun _ => ?_)
  exact store_supervised (fun _ => rfl) fun exc hexception => ⟨hexception, rfl⟩

theorem reschedule_supervised (exc : Raised) :
    (reschedule row exc).Meets protocol (.iterating exc.unschedulable) Tells := by
  refine meets_bind.mpr (pass_supervised rfl (fun _ => rfl) fun _ => meets_bind.mpr ?_)
  rcases retryDelay_cases row exc with ⟨hbad, error, herror, hexception⟩ | ⟨hgood, delay, hdelay, -⟩
  · rw [hbad, herror]
    exact ⟨hexception, rfl⟩
  · rw [hgood, hdelay]
    refine meets_bind.mpr (pass_supervised rfl (fun _ => rfl) fun now => ?_)
    refine meets_bind.mpr (pass_supervised rfl (fun _ => rfl) fun attemptAt => ?_)
    exact store_supervised (fun _ => rfl) fun exc hexception => ⟨hexception, rfl⟩

/-- A delivery returns, unless the iteration is broken. -/
theorem deliver_supervised (config : Settings) (row : OutgoingNotification) :
    (deliver config row).Meets protocol (.iterating false) Tells := by
  refine meets_tryCatch.mpr (Meets.mono (show Meets _ _ _ fun outcome stage =>
    match outcome with
    | .ok _ => stage = .iterating false
    | .error e => e.isException = true ∧ stage = .iterating e.unschedulable from ?_) ?_)
  · refine meets_bind.mpr (pass_supervised rfl (fun _ => rfl) fun _ => meets_bind.mpr
      ((sendMessage_supervised config row.message).mono fun outcome stage hsent => ?_))
    cases outcome with
    | error e => exact hsent
    | ok _ =>
        obtain rfl : stage = .iterating false := hsent
        exact meets_bind.mpr (pass_supervised rfl (fun _ => rfl) fun _ => confirm_supervised)
  · intro outcome stage hend
    cases outcome with
    | ok _ => exact hend
    | error e =>
        obtain ⟨hexception, rfl⟩ := hend
        cases e with
        | telegramPermanentError message => exact bury_supervised _
        | telegramSendError message retryAfter => exact reschedule_supervised _
        | python exc =>
            show (ite _ _ _ : Coroutine Unit).Meets _ _ _
            rw [if_pos hexception]
            exact reschedule_supervised _

theorem processDue_supervised (config : Settings) :
    (processDue config).Meets protocol (.iterating false) Tells := by
  refine meets_bind.mpr (pass_supervised rfl (fun _ => rfl) fun now => ?_)
  refine meets_bind.mpr (store_supervised (fun rows => ?_) fun exc hexception => ?_)
  · refine meets_bind.mpr (meets_forM (fun _ stage => stage = .iterating false) ?_ ?_ rfl)
    · rintro row rest stage rfl
      refine (deliver_supervised config row).mono fun outcome stage htells => ?_
      cases outcome with
      | ok _ => exact htells
      | error e => exact htells.raised
    · rintro stage rfl
      rfl
  · exact ⟨hexception, rfl⟩

theorem iteration_supervised (config : AdmittedSettings) :
    (iteration config.toSettings).Meets protocol (.iterating false) Tells := by
  obtain ⟨halert, -⟩ := config.toInt_of_nonNegative
    (show ("notification_max_age_seconds", Settings.notificationMaxAgeSeconds) ∈ _ by
      simp [Settings.numericNonNegative])
  obtain ⟨hlisting, -⟩ := config.toInt_of_nonNegative
    (show ("listing_notification_max_age_seconds", Settings.listingNotificationMaxAgeSeconds) ∈ _ by
      simp [Settings.numericNonNegative])
  rw [iteration, show config.notificationMaxAgeSeconds.toInt = _ from halert,
    show config.listingNotificationMaxAgeSeconds.toInt = _ from hlisting]
  refine Coroutine.meets_ok_bind.mpr (Coroutine.meets_ok_bind.mpr ?_)
  refine meets_bind.mpr (pass_supervised rfl (fun _ => rfl) fun now => ?_)
  refine meets_bind.mpr (store_supervised (fun _ => ?_) fun exc hexception => ⟨hexception, rfl⟩)
  have hbatch := processDue_supervised config.toSettings
  refine meets_bind.mpr (hbatch.mono fun outcome stage hend => ?_)
  cases outcome with
  | error e => exact hend.raised
  | ok processed =>
      obtain rfl : stage = .iterating false := hend
      cases processed with
      | true => rfl
      | false =>
          refine meets_bind.mpr (pass_supervised rfl (fun _ => rfl) fun stopping => ?_)
          cases stopping with
          | true => rfl
          | false => exact pass_supervised rfl (fun _ => rfl) fun _ => rfl

/-- The loop body returns, having counted the iteration. -/
theorem loopBody_supervised (config : AdmittedSettings) :
    (loopBody config.toSettings).Meets protocol (.iterating false) fun outcome stage =>
      outcome = .ok () ∧ stage = .iterating false := by
  refine meets_tryCatch.mpr (meets_bind.mpr ((iteration_supervised config).mono ?_))
  intro outcome stage htells
  cases outcome with
  | ok _ =>
      obtain rfl : stage = .iterating false := htells
      refine meets_bind.mpr (pass_supervised rfl (fun _ => rfl) fun now => ?_)
      refine ⟨rfl, fun _ stage hmove => ?_⟩
      exact ⟨rfl, hmove.1⟩
  | error e =>
      obtain ⟨hexception, rfl⟩ := htells
      show (ite _ _ _ : Coroutine Unit).Meets _ _ _
      rw [if_pos hexception]
      refine meets_bind.mpr (pass_supervised rfl (fun _ => rfl) fun now => ?_)
      -- the failure is counted before the worker sleeps
      refine meets_bind.mpr ⟨rfl, fun _ stage hmove => ?_⟩
      obtain rfl : stage = .failed := hmove.1
      exact ⟨rfl, fun _ stage hmove => ⟨rfl, hmove.1⟩⟩

end AlertDispatcher

/-! ## The loop over a run -/

/-- The loop of the worker since the process began: its stage, and for each finished iteration
whether it was broken. -/
structure WorkerLoop where
  stage : LoopStage := .iterating false
  finished : List Bool := []

/-- The loop after a step. -/
def AppEvent.loopAfter (loop : WorkerLoop) : AppEvent → WorkerLoop
  | .restarted _ => {}
  | .workerAsked question reply =>
      { stage := loop.stage.after question reply
        finished := loop.finished ++ (loop.stage.verdict question).toList }
  | _ => loop

/-- The loop that a history has led to. -/
def WorkerLoop.of (events : List AppEvent) : WorkerLoop := events.foldl AppEvent.loopAfter {}

theorem WorkerLoop.of_append (events : List AppEvent) (event : AppEvent) :
    WorkerLoop.of (events ++ [event]) = event.loopAfter (.of events) :=
  List.foldl_append

/-- The steps since the process began. -/
def processOf (events : List AppEvent) : List AppEvent :=
  events.rtakeWhile fun event => !event.restarts

theorem processOf_append (events : List AppEvent) (event : AppEvent) :
    processOf (events ++ [event]) = if event.restarts then [] else processOf events ++ [event] := by
  rw [processOf, List.rtakeWhile_concat]
  cases event.restarts <;> rfl

/-- A reply cancels the worker in the step. -/
def AppEvent.cancels : AppEvent → Bool
  | .workerAsked question reply => Exchange.cancels ⟨question, reply⟩
  | _ => false

/-- The loop does not depend on what was before the process. -/
theorem WorkerLoop.of_processOf (events : List AppEvent) :
    WorkerLoop.of (processOf events) = WorkerLoop.of events := by
  induction events using List.reverseRecOn with
  | nil => rfl
  | append_singleton events event ih =>
      rw [processOf_append, WorkerLoop.of_append]
      cases event with
      | restarted config => rfl
      | _ =>
          show WorkerLoop.of (processOf events ++ [_]) = _
          rw [WorkerLoop.of_append, ih]

/-! ## The counts -/

/-- Only the worker and the client of Telegram write the health of deliveries. -/
theorem World.Serves.health_eq {world world' : World} {question : Await} {reply : question.Reply}
    (h : world.Serves question reply world') (hquestion : ∀ fact, question ≠ .remember fact) :
    world'.health = world.health := by
  cases question with
  | remember fact => exact absurd rfl (hquestion fact)
  | stopIsSet => exact congrArg World.health h.2
  | store op =>
      obtain ⟨faults, store, hrun, rfl⟩ := h
      rfl
  | clock => exact congrArg World.health h
  | note note => exact congrArg World.health h
  | post text => exact congrArg World.health h
  | sleep => exact congrArg World.health h
  | wake => exact congrArg World.health h

/-- No question sets the flag of `stop`. -/
theorem World.Serves.stopping_eq {world world' : World} {question : Await} {reply : question.Reply}
    (h : world.Serves question reply world') : world'.stopping = world.stopping := by
  cases question with
  | stopIsSet => exact congrArg World.stopping h.2
  | store op =>
      obtain ⟨faults, store, hrun, rfl⟩ := h
      rfl
  | remember fact =>
      obtain rfl : world' = { world with health := world.health.after fact } := h
      rfl
  | clock => exact congrArg World.stopping h
  | note note => exact congrArg World.stopping h
  | post text => exact congrArg World.stopping h
  | sleep => exact congrArg World.stopping h
  | wake => exact congrArg World.stopping h

/-- The health counts the broken iterations. -/
structure WorkerLoop.Counted (loop : WorkerLoop) (health : DeliveryHealth) : Prop where
  errors : health.workerErrorCount = loop.finished.count true
  consecutive : health.consecutiveFailures = Streak.length (· = true) loop.finished

/-- A fact of the worker is counted as what it is. -/
theorem WorkerLoop.Counted.remember {loop : WorkerLoop} {health : DeliveryHealth}
    (h : loop.Counted health) {fact : DeliveryFact} (hallows : loop.stage.Allows (.remember fact)) :
    (AppEvent.loopAfter loop (.workerAsked (.remember fact) ())).Counted (health.after fact) := by
  obtain ⟨stage, finished⟩ := loop
  obtain ⟨herrors, hconsecutive⟩ := h
  cases stage with
  | failed => cases (show Await.remember fact = .sleep from hallows)
  | iterating broken =>
      cases fact with
      | loopFailed time =>
          obtain rfl : broken = true := hallows
          constructor
          · show health.workerErrorCount + 1 = (finished ++ [true]).count true
            rw [herrors, List.count_append, List.count_singleton_self]
          · show health.consecutiveFailures + 1 = Streak.length _ (finished ++ [true])
            rw [hconsecutive, Streak.length_snoc, if_pos rfl]
      | loopCompleted time =>
          obtain rfl : broken = false := hallows
          constructor
          · show health.workerErrorCount = (finished ++ [false]).count true
            rw [herrors, List.count_append]
            rfl
          · show 0 = Streak.length _ (finished ++ [false])
            rw [Streak.length_snoc, if_neg Bool.false_ne_true]
      -- the facts of the client leave the counts
      | sendSucceeded time =>
          exact ⟨herrors.trans (congrArg _ (List.append_nil _).symm),
            hconsecutive.trans (congrArg _ (List.append_nil _).symm)⟩
      | sendFailed time errorType =>
          exact ⟨herrors.trans (congrArg _ (List.append_nil _).symm),
            hconsecutive.trans (congrArg _ (List.append_nil _).symm)⟩

/-- A question of the worker leaves the counts right. -/
theorem WorkerLoop.Counted.ask {loop : WorkerLoop} {world world' : World} {question : Await}
    {reply : question.Reply} (h : loop.Counted world.health)
    (hallows : loop.stage.Allows question) (hserves : world.Serves question reply world') :
    (AppEvent.loopAfter loop (.workerAsked question reply)).Counted world'.health := by
  by_cases hfact : ∃ fact, question = .remember fact
  · obtain ⟨fact, rfl⟩ := hfact
    rw [show world' = { world with health := world.health.after fact } from hserves]
    exact h.remember hallows
  · have hnone : loop.stage.verdict question = none := by
      unfold LoopStage.verdict
      split
      · exact absurd ⟨_, rfl⟩ hfact
      · exact absurd ⟨_, rfl⟩ hfact
      · rfl
    rw [hserves.health_eq fun fact heq => hfact ⟨fact, heq⟩, AppEvent.loopAfter, hnone,
      Option.toList_none, List.append_nil]
    exact ⟨h.errors, h.consecutive⟩

/-! ## The supervised run -/

/-- What holds as long as the worker of the process was not cancelled. -/
structure Supervised (events : List AppEvent) (s : Application) : Prop where
  counted : (WorkerLoop.of events).Counted s.world.health
  worker : ∀ worker ∈ s.worker,
    worker.Meets LoopStage.protocol (WorkerLoop.of events).stage fun outcome stage =>
      outcome = .ok () ∧ stage = .iterating false
  ended : s.worker = none → s.world.stopping = true
  calls : ∀ call ∈ s.calls, call.2.Asks fun question => ∀ fact, question ≠ .remember fact
  sleeps : Trace.EveryLabel (processOf events) fun before event =>
    ∀ question reply, event = .workerAsked question reply →
      (WorkerLoop.of before).stage = .failed → question = .sleep

namespace Supervised

variable {config : AdmittedSettings} {events : List AppEvent} {event : AppEvent}
  {s s' : Application}

theorem start (config : AdmittedSettings) (store : Store) (begun : ℕ)
    (hloop : WorkerLoop.of events = {}) (hprocess : processOf events = []) :
    Supervised events (Application.start config store begun) where
  counted := by
    rw [hloop]
    exact ⟨rfl, rfl⟩
  worker worker hworker := by
    rw [← Option.some.inj hworker, hloop]
    exact AlertDispatcher.loopBody_supervised config
  ended hended := by cases hended
  calls call hcall := by cases hcall
  sleeps := by
    rw [hprocess]
    exact Trace.everyLabel_nil

/-- The steps of a process are looked at one by one. -/
theorem sleeps_snoc (h : Supervised events s) (hprocess : event.restarts = false)
    (hlast : ∀ question reply, event = .workerAsked question reply →
      (WorkerLoop.of events).stage = .failed → question = .sleep) :
    Trace.EveryLabel (processOf (events ++ [event])) fun before event =>
      ∀ question reply, event = .workerAsked question reply →
        (WorkerLoop.of before).stage = .failed → question = .sleep := by
  rw [processOf_append, hprocess, if_neg Bool.false_ne_true, Trace.everyLabel_snoc]
  refine ⟨h.sleeps, ?_⟩
  rw [WorkerLoop.of_processOf]
  exact hlast

/-- A step of the others leaves the worker. -/
theorem kept (h : Supervised events s) (hprocess : event.restarts = false)
    (hasks : ∀ question reply, event ≠ .workerAsked question reply)
    (hworker : s'.worker = s.worker) (hhealth : s'.world.health = s.world.health)
    (hstopping : s.world.stopping = true → s'.world.stopping = true)
    (hcalls : ∀ call ∈ s'.calls, call.2.Asks fun question => ∀ fact, question ≠ .remember fact) :
    Supervised (events ++ [event]) s' := by
  have hloop : WorkerLoop.of (events ++ [event]) = WorkerLoop.of events := by
    rw [WorkerLoop.of_append]
    cases event with
    | restarted config => cases hprocess
    | workerAsked question reply => exact absurd rfl (hasks question reply)
    | _ => rfl
  refine ⟨?_, ?_, fun hended => hstopping (h.ended (hworker ▸ hended)), hcalls, ?_⟩
  · rw [hloop, hhealth]
    exact h.counted
  · rw [hloop, hworker]
    exact h.worker
  · exact h.sleeps_snoc hprocess fun question reply heq => absurd heq (hasks question reply)

/-- A step that does not cancel the worker keeps it supervised. -/
theorem step (h : Supervised events s) (hcancel : event.cancels = false)
    (hprocess : event.restarts = false) (hstep : AppStep s event s') :
    Supervised (events ++ [event]) s' := by
  cases hstep with
  | restarted config => cases hprocess
  | cycled hcycle => exact h.kept rfl (by rintro _ _ ⟨⟩) rfl rfl id h.calls
  | stopRequested => exact h.kept rfl (by rintro _ _ ⟨⟩) rfl rfl (fun _ => rfl) h.calls
  | began entry =>
      refine h.kept rfl (by rintro _ _ ⟨⟩) rfl rfl id fun call hcall => ?_
      rcases List.mem_append.mp hcall with hold | hnew
      · exact h.calls call hold
      · rw [List.mem_singleton.mp hnew]
        exact entry.asks_of nofun (fun _ _ => nofun) s.tracker
  | @callAsked number before rest question next reply world' hcalls hserves =>
      have hasked := h.calls (number, Program.ask question next)
        (hcalls ▸ mem_middle.mpr (Or.inl rfl))
      refine h.kept rfl (by rintro _ _ ⟨⟩) rfl (hserves.health_eq hasked.1)
        (fun hstopping => hserves.stopping_eq.trans hstopping) fun call hcall => ?_
      rcases mem_middle.mp hcall with rfl | hother
      · exact hasked.2 reply
      · exact h.calls call (hcalls ▸ mem_middle.mpr (Or.inr hother))
  | callEnded hcalls =>
      refine h.kept rfl (by rintro _ _ ⟨⟩) rfl rfl id fun call hcall => ?_
      exact h.calls call (hcalls ▸ mem_middle.mpr (Or.inr hcall))
  | @workerAsked question next reply world' hworker hserves =>
      obtain ⟨hallows, hmoves⟩ := h.worker _ hworker
      refine ⟨?_, ?_, fun hended => (nomatch hended), h.calls, ?_⟩
      · rw [WorkerLoop.of_append]
        exact h.counted.ask hallows hserves
      · intro worker hmem
        rw [← Option.some.inj hmem, WorkerLoop.of_append]
        exact hmoves reply _ ⟨rfl, hcancel⟩
      · refine h.sleeps_snoc rfl fun question' reply' heq hfailed => ?_
        cases heq
        rw [hfailed] at hallows
        exact hallows
  | @looped outcome hworker =>
      -- the body has counted its iteration and returned
      obtain ⟨rfl, hstage⟩ := h.worker _ hworker
      have hloop : WorkerLoop.of (events ++ [.looped (.ok ())]) = WorkerLoop.of events :=
        WorkerLoop.of_append _ _
      refine ⟨?_, ?_, fun hended => ?_, h.calls, ?_⟩
      · rw [hloop]
        exact h.counted
      · intro worker hmem
        change worker ∈ (ite _ _ _ : Option (Coroutine Unit)) at hmem
        split at hmem
        · cases hmem
        · rw [← Option.some.inj hmem, hloop, hstage]
          exact AlertDispatcher.loopBody_supervised s.config
      · change (ite _ _ _ : Option (Coroutine Unit)) = none at hended
        split at hended
        · rename_i hstops
          exact ((Bool.or_eq_true _ _).mp hstops).resolve_right Bool.false_ne_true
        · cases hended
      · exact h.sleeps_snoc rfl (by rintro _ _ ⟨⟩)

end Supervised

/-- The worker of a process that was not cancelled is supervised. -/
theorem AppRun.supervised {config : AdmittedSettings} {events : List AppEvent} {s : Application}
    (h : AppRun config events s) (hcancel : ∀ event ∈ processOf events, event.cancels = false) :
    Supervised events s := by
  induction h with
  | nil => exact .start config {} 0 rfl rfl
  | @snoc events s event s' prior last ih =>
      cases hprocess : event.restarts with
      | true =>
          cases last with
          | restarted config =>
              exact .start config s.store s.begun (WorkerLoop.of_append _ _) (processOf_append _ _)
          | _ => cases hprocess
      | false =>
          rw [processOf_append, hprocess, if_neg Bool.false_ne_true] at hcancel
          refine (ih fun event hmem => hcancel event (List.mem_append_left _ hmem)).step ?_ hprocess
            last
          exact hcancel event (List.mem_append_right _ (List.mem_singleton_self event))

/-! ## The end of `stop` -/

/-- The application with the task of the worker: how it has ended, and whether `stop`, which waits
for its end, has cleared `self._worker`. -/
structure Supervision where
  application : Application
  ended : Option (Except Raised Unit) := none
  cleared : Bool := false

/-- A step of the application, or the return of `stop`. -/
inductive SupervisionEvent
  | app (event : AppEvent)
  | stopReturned

/-- The steps of the application. -/
def appEvents (events : List SupervisionEvent) : List AppEvent :=
  events.filterMap fun
    | .app event => some event
    | .stopReturned => none

namespace Supervision

/-- The process has just started. -/
def start (config : AdmittedSettings) : Supervision where
  application := Application.start config {} 0

/-- After a step of the application. A new process has a task of its own. -/
def after (self : Supervision) (event : AppEvent) (application : Application) : Supervision where
  application := application
  ended :=
    match event with
    | .restarted _ => none
    | .looped outcome => if application.worker.isNone then some outcome else none
    | _ => self.ended
  cleared := self.cleared && !event.restarts

/-- What the health monitor reads of the dispatcher; the counts come from the database. -/
def dispatcherReading (self : Supervision) (depth countDead : Except PyExc ℕ) :
    DispatcherReading where
  workerDone := if self.cleared then none else some self.application.worker.isNone
  consecutiveFailures := self.application.world.health.consecutiveFailures
  depth := depth
  countDead := countDead

end Supervision

/-- One step. `stop` returns once the task has ended; what the task raises passes through it. -/
inductive SupervisionStep (s : Supervision) : SupervisionEvent → Supervision → Prop
  | app {event : AppEvent} {application : Application}
      (hstep : AppStep s.application event application) :
      SupervisionStep s (.app event) (s.after event application)
  | stopReturned (hstop : s.application.world.stopping = true) (hended : s.ended = some (.ok ())) :
      SupervisionStep s .stopReturned { s with cleared := true }

/-- A run from an empty database. -/
def SupervisionRun (config : AdmittedSettings) (events : List SupervisionEvent) (s : Supervision) :
    Prop :=
  Trace SupervisionStep (Supervision.start config) events s

/-- The application does not see `stop` return. -/
theorem SupervisionRun.appRun {config : AdmittedSettings} {events : List SupervisionEvent}
    {s : Supervision} (h : SupervisionRun config events s) :
    AppRun config (appEvents events) s.application := by
  induction h with
  | nil => exact Trace.nil
  | snoc prior last ih =>
      rw [appEvents, List.filterMap_append]
      cases last with
      | app hstep => exact ih.snoc hstep
      | stopReturned => simpa [appEvents] using ih

/-- As long as no reply cancels the worker, it ends only when the application stops, it counts the
iterations that a reply has broken and sleeps after each of them, and it is unhealthy exactly if
`stop` has not returned and the worker has ended or the last iterations were broken, one more than
it tolerates. -/
theorem worker_supervised {config : AdmittedSettings} {events : List SupervisionEvent}
    {s : Supervision} (h : SupervisionRun config events s)
    (hcancel : ∀ event ∈ processOf (appEvents events), event.cancels = false) :
    (s.application.worker = none → s.application.world.stopping = true) ∧
      s.application.world.health.workerErrorCount =
        (WorkerLoop.of (appEvents events)).finished.count true ∧
      (Trace.EveryLabel (processOf (appEvents events)) fun before event =>
        ∀ question reply, event = .workerAsked question reply →
          (WorkerLoop.of before).stage = .failed → question = .sleep) ∧
      ∀ depth countDead, (s.dispatcherReading depth countDead).workerHealthy = false ↔
        s.cleared = false ∧ (s.application.worker = none ∨
          ∃ before, (WorkerLoop.of (appEvents events)).finished =
            before ++ List.replicate (maxConsecutiveWorkerFailures + 1) true) := by
  have hs := h.appRun.supervised hcancel
  refine ⟨hs.ended, hs.counted.errors, hs.sleeps, fun depth countDead => ?_⟩
  have hstreak : maxConsecutiveWorkerFailures < s.application.world.health.consecutiveFailures ↔
      ∃ before, (WorkerLoop.of (appEvents events)).finished =
        before ++ List.replicate (maxConsecutiveWorkerFailures + 1) true := by
    rw [hs.counted.consecutive, ← Nat.succ_le_iff, Streak.le_length_iff]
    refine exists_congr fun before => ⟨?_, fun heq => ?_⟩
    · rintro ⟨streak, heq, hlength, hall⟩
      rw [heq, List.eq_replicate_of_mem hall, hlength]
    · exact ⟨_, heq, List.length_replicate, fun x hx => List.eq_of_mem_replicate hx⟩
  rw [← hstreak, DispatcherReading.workerHealthy, Supervision.dispatcherReading]
  cases s.cleared with
  | true => simp
  | false => cases s.application.worker <;> simp

/-! ## Execution -/

/-- A step, by what the environment does. -/
inductive SupervisionInput
  | app (input : AppInput)
  | stopReturns

/-- Execute one step, if it is possible. -/
def Supervision.perform (self : Supervision) :
    SupervisionInput → Option (SupervisionEvent × Supervision)
  | .app input =>
      (self.application.perform input).map fun (event, application) =>
        (.app event, self.after event application)
  | .stopReturns =>
      match self.application.world.stopping, self.ended with
      | true, some (.ok ()) => some (.stopReturned, { self with cleared := true })
      | _, _ => none

/-- What is executed is a step. -/
theorem Supervision.perform_step {s s' : Supervision} {input : SupervisionInput}
    {event : SupervisionEvent} (h : s.perform input = some (event, s')) :
    SupervisionStep s event s' := by
  cases input with
  | app input =>
      obtain ⟨⟨event, application⟩, hperform, heq⟩ := Option.map_eq_some_iff.mp h
      cases heq
      exact .app (Application.perform_step hperform)
  | stopReturns =>
      simp only [perform] at h
      split at h
      · rename_i hstop hended
        cases h
        exact .stopReturned hstop hended
      · cases h

/-- Execute steps from an empty database. -/
def superviseAll (config : AdmittedSettings) (inputs : List SupervisionInput) :
    List SupervisionEvent × Supervision :=
  Trace.exec Supervision.perform (Supervision.start config) [] inputs

theorem run_superviseAll (config : AdmittedSettings) (inputs : List SupervisionInput) :
    SupervisionRun config (superviseAll config inputs).1 (superviseAll config inputs).2 :=
  @Trace.exec_trace _ _ SupervisionStep _ _ _ _ Supervision.perform
    (fun _ _ _ _ h => Supervision.perform_step h) inputs Trace.nil

/-- Iterations whose expiry of stale rows raises. -/
def brokenIterations (count : ℕ) : List SupervisionInput :=
  let broken : AppInput := .worker { faults := { begin := some .databaseError } }
  (List.replicate count
    ([.worker {}, broken] ++ List.replicate 3 (.worker {}) ++ [.loop])).flatten.map .app

/-- An iteration in which `stop` is called, and which is broken too: the worker ends. -/
def stoppedIteration : List SupervisionInput := .app .stop :: brokenIterations 1

/-- Five broken iterations are tolerated, and six are not. A worker that has ended is unhealthy
until `stop` returns. -/
theorem worker_supervised_brokenIterations :
    let five := (superviseAll .default (brokenIterations 5)).2
    let six := (superviseAll .default (brokenIterations 6)).2
    let ended := (superviseAll .default (brokenIterations 1 ++ stoppedIteration)).2
    let stopped := (superviseAll .default
      (brokenIterations 1 ++ stoppedIteration ++ [.stopReturns])).2
    (six.dispatcherReading (.ok 0) (.ok 0)).workerHealthy = false ∧
      six.application.world.health.workerErrorCount = 6 ∧
      (five.dispatcherReading (.ok 0) (.ok 0)).workerHealthy = true ∧
      (ended.dispatcherReading (.ok 0) (.ok 0)).workerHealthy = false ∧
      (stopped.dispatcherReading (.ok 0) (.ok 0)).workerHealthy = true := by
  obtain ⟨-, herrors, -, hsix⟩ := worker_supervised
    (run_superviseAll .default (brokenIterations 6)) (by decide +kernel)
  obtain ⟨-, -, -, hended⟩ := worker_supervised
    (run_superviseAll .default (brokenIterations 1 ++ stoppedIteration)) (by decide +kernel)
  have hworker : (superviseAll .default
      (brokenIterations 1 ++ stoppedIteration)).2.application.worker.isNone = true := by
    decide +kernel
  refine ⟨(hsix _ _).mpr ⟨by decide +kernel, Or.inr ⟨[], by decide +kernel⟩⟩, herrors.trans ?_, ?_,
    (hended _ _).mpr ⟨by decide +kernel, Or.inl (Option.isNone_iff_eq_none.mp hworker)⟩, ?_⟩
  · decide +kernel
  · decide +kernel
  · decide +kernel

end BybitMonitor
