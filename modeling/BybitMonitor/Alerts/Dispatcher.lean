import Mathlib
import BybitMonitor.Telegram.Client

/-!
# The alert dispatcher

The worker of `AlertDispatcher`: it expires stale rows, reads the rows that are due and delivers
them one after the other. Delivery and bookkeeping share one `try`.

* `WorkerStage`: where the worker stands in its batch of rows.
* `AlertDispatcher.loopBody_meets`: what the worker asks, and when.
-/

namespace BybitMonitor

/-- `RETRY_DELAYS`. -/
def retryDelays : List ℤ := [10, 30, 60, 300, 600, 1200, 2400, 3600]

/-- `retry_delay_for`. -/
def retryDelayFor : ℕ → ℤ
  -- `RETRY_DELAYS[-1]`
  | 0 => 3600
  | attempts + 1 => retryDelays.getD (min attempts (retryDelays.length - 1)) 3600

/-- The event key of a row that confirms a listing event too. -/
def OutgoingNotification.listingKey (row : OutgoingNotification) : Option String :=
  if row.originType = some "listing" then row.originKey.filter (· ≠ "") else none

namespace AlertDispatcher

/-- The bookkeeping after a delivery. -/
def confirm (row : OutgoingNotification) : Coroutine Unit :=
  match row.listingKey with
  | some eventKey => do
      let now ← Coroutine.ask .clock
      Coroutine.store (.confirmListing row.id eventKey now)
  | none => do
      let now ← Coroutine.ask .clock
      Coroutine.store (.markNotificationSent row.id now)

/-- The delay before the next attempt, which a `retry_after` may lengthen. -/
def retryDelay (row : OutgoingNotification) (exc : Raised) : Except PyExc ℤ :=
  let delay := retryDelayFor (row.attemptCount + 1)
  match exc with
  | .telegramSendError _ (some retryAfter) => do
      let seconds ← retryAfter.toInt
      return max delay seconds
  | _ => .ok delay

/-- The branch of `TelegramPermanentError`. -/
def bury (row : OutgoingNotification) (exc : Raised) : Coroutine Unit := do
  Coroutine.ask (.note (.refused row.id))
  Coroutine.store (.markNotificationDead row.id exc.describe)

/-- The branch of any other exception. -/
def reschedule (row : OutgoingNotification) (exc : Raised) : Coroutine Unit := do
  Coroutine.ask (.note (.failed row.id))
  let delay ← Coroutine.ofExcept (retryDelay row exc)
  let now ← Coroutine.ask .clock
  let attemptAt ← Coroutine.ask .clock
  Coroutine.store (.markNotificationRetry row.id exc.describe (now + delay) attemptAt)

/-- `AlertDispatcher._deliver`. -/
def deliver (config : Settings) (row : OutgoingNotification) : Coroutine Unit :=
  Program.tryCatch
    (do
      Coroutine.ask (.note (.delivering row.id row.message))
      TelegramClient.sendMessage config row.message
      Coroutine.ask (.note (.delivered row.id row.message))
      confirm row)
    fun exc =>
      match exc with
      | .telegramPermanentError _ => bury row exc
      | _ => if exc.isException then reschedule row exc else Program.throw exc

/-- `AlertDispatcher._process_due`. -/
def processDue (config : Settings) : Coroutine Bool := do
  let now ← Coroutine.ask .clock
  let rows ← Coroutine.store (.dueNotifications now)
  rows.forM (deliver config)
  return !rows.isEmpty

/-- `AlertDispatcher._iteration`. -/
def iteration (config : Settings) : Coroutine Unit := do
  let alertMaxAge ← Coroutine.ofExcept config.notificationMaxAgeSeconds.toInt
  let listingMaxAge ← Coroutine.ofExcept config.listingNotificationMaxAgeSeconds.toInt
  let now ← Coroutine.ask .clock
  let _ ← Coroutine.store (.expireNotifications alertMaxAge listingMaxAge now)
  if ← processDue config then return
  if ← Coroutine.ask .stopIsSet then return
  Coroutine.ask .wake

/-- The body of the loop of `AlertDispatcher._run`. -/
def loopBody (config : Settings) : Coroutine Unit :=
  Program.tryCatch
    (do
      iteration config
      let now ← Coroutine.ask .clock
      Coroutine.ask (.remember (.loopCompleted now)))
    fun exc =>
      if exc.isException then do
        let now ← Coroutine.ask .clock
        Coroutine.ask (.remember (.loopFailed now))
        Coroutine.ask .sleep
      else Program.throw exc

end AlertDispatcher

/-! ## The stages of the worker -/

/-- Where the worker stands: before its query, between two rows, or in `_deliver`, where the
accepted chunks of the row are counted. -/
inductive WorkerStage
  | idle
  | batch (rows : List OutgoingNotification)
  | sending (row : OutgoingNotification) (accepted : ℕ) (rest : List OutgoingNotification)
  | delivered (row : OutgoingNotification) (rest : List OutgoingNotification)
  | refused (row : OutgoingNotification) (accepted : ℕ) (rest : List OutgoingNotification)
  | failed (row : OutgoingNotification) (accepted : ℕ) (rest : List OutgoingNotification)

/-- The clock, the memory, the sleeps and the waits, which are no part of a delivery. -/
def Await.isQuiet : Await → Bool
  | .clock | .remember _ | .sleep | .stopIsSet | .wake => true
  | _ => false

namespace WorkerStage

/-- What the worker may ask. -/
def Allows (config : Settings) : WorkerStage → Await → Prop
  -- at every stage
  | _, .clock | _, .remember _ | _, .sleep | _, .stopIsSet | _, .wake => True
  | batch (row :: _), .note (.delivering id message) => id = row.id ∧ message = row.message
  | sending row accepted _, .post text => (splitMessage row.message)[accepted]? = some text
  | sending row accepted _, .note (.delivered id message) =>
      id = row.id ∧ message = row.message ∧ accepted = (splitMessage row.message).length
  | sending row _ _, .note (.refused id) => id = row.id
  | sending row _ _, .note (.failed id) | delivered row _, .note (.failed id) => id = row.id
  | idle, .store (.expireNotifications alertMaxAge listingMaxAge _) =>
      config.notificationMaxAgeSeconds.toInt = .ok alertMaxAge ∧
        config.listingNotificationMaxAgeSeconds.toInt = .ok listingMaxAge
  | idle, .store (.dueNotifications _) => True
  | delivered row _, .store (.markNotificationSent id _) => id = row.id ∧ row.listingKey = none
  | delivered row _, .store (.confirmListing id eventKey _) =>
      id = row.id ∧ row.listingKey = some eventKey
  | refused row _ _, .store (.markNotificationDead id _) => id = row.id
  | failed row _ _, .store (.markNotificationRetry id _ _ _) => id = row.id
  | _, _ => False

/-- Where a reply leads. -/
def after : WorkerStage → (question : Await) → question.Reply → WorkerStage
  | batch (row :: rest), .note (.delivering _ _), _ => sending row 0 rest
  | sending row accepted rest, .post _, reply =>
      sending row (if HttpReply.accepted reply then accepted + 1 else accepted) rest
  | sending row _ rest, .note (.delivered _ _), _ => delivered row rest
  | sending row accepted rest, .note (.refused _), _ => refused row accepted rest
  | sending row accepted rest, .note (.failed _), _ => failed row accepted rest
  -- the bookkeeping has raised after every chunk was accepted
  | delivered row rest, .note (.failed _), _ =>
      failed row (splitMessage row.message).length rest
  | idle, .store (.dueNotifications _), .ok rows => batch rows
  | delivered _ rest, .store (.markNotificationSent _ _), .ok _ => batch rest
  | delivered _ rest, .store (.confirmListing _ _ _), .ok _ => batch rest
  | refused _ _ rest, .store (.markNotificationDead _ _), .ok _ => batch rest
  -- the handler of a permanent error raises out of the loop
  | refused _ _ _, .store (.markNotificationDead _ _), .error _ => batch []
  | failed _ _ rest, .store (.markNotificationRetry _ _ _ _), .ok _ => batch rest
  | stage, _, _ => stage

theorem allows_of_isQuiet {config : Settings} {stage : WorkerStage} {question : Await}
    (h : question.isQuiet = true) : stage.Allows config question := by
  cases question with
  | note note => cases h
  | post text => cases h
  | store op => cases h
  | _ => cases stage <;> trivial

theorem after_of_isQuiet {stage : WorkerStage} {question : Await} (h : question.isQuiet = true)
    (reply : question.Reply) : stage.after question reply = stage := by
  cases question with
  | note note => cases h
  | post text => cases h
  | store op => cases h
  | _ =>
      cases stage with
      | batch rows => cases rows <;> rfl
      | _ => rfl

/-- Whether no row is between its first chunk and its booking, or has failed. -/
def isSettled : WorkerStage → Bool
  | idle | batch _ | failed _ _ _ => true
  | _ => false

/-- How the worker may leave a stage: settled, or cancelled. -/
def Ends {α : Type} (outcome : Except Raised α) (stage : WorkerStage) : Prop :=
  stage.isSettled = true ∨ ∃ e, outcome = .error e ∧ e.isException = false

theorem Ends.settled {α : Type} {a : α} {stage : WorkerStage}
    (h : Ends (.ok a : Except Raised α) stage) : stage.isSettled = true :=
  h.resolve_right fun ⟨_, h, _⟩ => nomatch h

/-- An exception that is passed on. -/
theorem Ends.raised {α β : Type} {e : Raised} {stage : WorkerStage}
    (h : Ends (.error e : Except Raised α) stage) : Ends (.error e : Except Raised β) stage :=
  h.imp_right fun ⟨e', he, hcancelled⟩ =>
    ⟨e', congrArg Except.error (Except.error.inj he), hcancelled⟩

/-- How a batch leaves the stages: without rows, unless it is aborted. -/
def Drains {α : Type} (outcome : Except Raised α) (stage : WorkerStage) : Prop :=
  match outcome with
  | .ok _ => stage = .batch []
  | .error _ => Ends outcome stage

theorem Drains.ends {α : Type} {outcome : Except Raised α} {stage : WorkerStage}
    (h : Drains outcome stage) : Ends outcome stage := by
  cases outcome with
  | ok a =>
      obtain rfl : stage = .batch [] := h
      exact Or.inl rfl
  | error e => exact h

/-- The protocol of the worker. -/
def protocol (config : Settings) : Program.Protocol Await Await.Reply WorkerStage where
  Allows := Allows config
  Moves stage question reply stage' := stage' = stage.after question reply

end WorkerStage

namespace AlertDispatcher

open Program WorkerStage

variable {config : Settings} {row : OutgoingNotification} {accepted : ℕ}
  {rest : List OutgoingNotification} {stage : WorkerStage}

/-- A question that is no part of a delivery may be asked at every stage, and leaves it. -/
theorem ask_meets {question : Await} {post : Except Raised question.Reply → WorkerStage → Prop}
    (hquiet : question.isQuiet = true) (hpost : ∀ reply, post (.ok reply) stage) :
    (Coroutine.ask question).Meets (protocol config) stage post := by
  refine ⟨allows_of_isQuiet hquiet, fun reply stage' hmove => ?_⟩
  obtain rfl : stage' = stage := hmove.trans (after_of_isQuiet hquiet reply)
  exact hpost reply

/-- A message is sent at the stage of its row. -/
theorem sends (config : Settings) (row : OutgoingNotification) (rest : List OutgoingNotification) :
    Sends (protocol config) (splitMessage row.message) fun accepted =>
      .sending row accepted rest where
  clock _ := ⟨trivial, fun _ _ hmove => hmove⟩
  remember _ _ := ⟨trivial, fun _ _ hmove => hmove⟩
  sleep _ := ⟨trivial, fun _ _ hmove => hmove⟩
  post accepted text htext := by
    refine ⟨htext, fun reply g hmove => hmove.trans ?_⟩
    show WorkerStage.sending row (ite _ _ _) rest = _
    split <;> rfl

/-- A bookkeeping operation that returns ends the delivery; one that raises leaves its stage. -/
theorem store_meets {op : StoreOp} {post : Except Raised op.Result → WorkerStage → Prop}
    (hallows : WorkerStage.Allows config stage (.store op))
    (hok : ∀ result, post (.ok result) (stage.after (.store op) (.ok result)))
    (herror : ∀ exc, post (.error (.python exc)) (stage.after (.store op) (.error exc))) :
    (Coroutine.store op).Meets (protocol config) stage post := by
  refine Coroutine.meets_store.mpr ⟨hallows, fun reply stage' hmove => ?_⟩
  obtain rfl : stage' = _ := hmove
  cases reply with
  | ok result => exact hok result
  | error exc => exact herror exc

/-- The bookkeeping confirms the row, or raises what the database raises. -/
theorem confirm_meets (config : Settings) :
    (confirm row).Meets (protocol config) (.delivered row rest) fun outcome stage =>
      match outcome with
      | .ok _ => stage = .batch rest
      | .error e => stage = .delivered row rest ∧ ∃ exc, e = .python exc := by
  rw [confirm]
  -- a row of a listing is confirmed together with its event
  cases hkey : row.listingKey with
  | none =>
      refine meets_bind.mpr (ask_meets rfl fun now => ?_)
      exact store_meets ⟨rfl, hkey⟩ (fun _ => rfl) fun exc => ⟨rfl, exc, rfl⟩
  | some eventKey =>
      refine meets_bind.mpr (ask_meets rfl fun now => ?_)
      exact store_meets ⟨rfl, hkey⟩ (fun _ => rfl) fun exc => ⟨rfl, exc, rfl⟩

theorem bury_meets (config : Settings) (exc : Raised) :
    (bury row exc).Meets (protocol config) (.sending row accepted rest) fun outcome stage =>
      match outcome with
      | .ok _ => stage = .batch rest
      | .error _ => stage = .batch [] := by
  refine ⟨rfl, fun _ stage' hmove => ?_⟩
  obtain rfl : stage' = .refused row accepted rest := hmove
  exact store_meets rfl (fun _ => rfl) fun _ => rfl

theorem reschedule_meets (config : Settings) (exc : Raised)
    (hallows : WorkerStage.Allows config stage (.note (.failed row.id)))
    (hmoves : stage.after (.note (.failed row.id)) () = .failed row accepted rest) :
    (reschedule row exc).Meets (protocol config) stage fun outcome stage =>
      match outcome with
      | .ok _ => stage = .batch rest
      | .error _ => stage = .failed row accepted rest := by
  refine Coroutine.meets_ask_bind.mpr ⟨hallows, fun _ stage' hmove => ?_⟩
  obtain rfl : stage' = .failed row accepted rest := hmove.trans hmoves
  -- a `retry_after` that is no number raises here
  cases retryDelay row exc with
  | error e => exact rfl
  | ok delay =>
      refine Coroutine.meets_ok_bind.mpr ?_
      refine meets_bind.mpr (ask_meets rfl fun now => ?_)
      refine meets_bind.mpr (ask_meets rfl fun attemptAt => ?_)
      exact store_meets rfl (fun _ => rfl) fun _ => rfl

/-- A delivery that returns has booked its row. -/
theorem deliver_meets (config : Settings) (row : OutgoingNotification)
    (rest : List OutgoingNotification) :
    (deliver config row).Meets (protocol config) (.batch (row :: rest)) fun outcome stage =>
      match outcome with
      | .ok _ => stage = .batch rest
      | .error _ => Ends outcome stage := by
  -- where the handlers leave the row
  have hbury (exc : Raised) (accepted : ℕ) :
      (bury row exc).Meets (protocol config) (.sending row accepted rest) fun outcome stage =>
        match outcome with
        | .ok _ => stage = .batch rest
        | .error _ => Ends outcome stage := by
    refine (bury_meets config exc).mono fun outcome stage hend => ?_
    cases outcome with
    | ok _ => exact hend
    | error e =>
        obtain rfl : stage = .batch [] := hend
        exact Or.inl rfl
  have hreschedule (exc : Raised) {stage : WorkerStage} {accepted : ℕ}
      (hallows : stage.Allows config (.note (.failed row.id)))
      (hmoves : stage.after (.note (.failed row.id)) () = .failed row accepted rest) :
      (if exc.isException then reschedule row exc else Program.throw exc).Meets (protocol config)
        stage fun outcome stage =>
          match outcome with
          | .ok _ => stage = .batch rest
          | .error _ => Ends outcome stage := by
    split
    · refine (reschedule_meets config exc hallows hmoves).mono fun outcome stage hend => ?_
      cases outcome with
      | ok _ => exact hend
      | error e =>
          obtain rfl : stage = .failed row accepted rest := hend
          exact Or.inl rfl
    · rename_i hcancelled
      exact Or.inr ⟨exc, rfl, Bool.eq_false_iff.mpr hcancelled⟩
  -- the body is confirmed, or raises while it sends or while it books
  refine meets_tryCatch.mpr (Meets.mono (show Meets _ _ _ fun outcome stage =>
    match outcome with
    | .ok _ => stage = .batch rest
    | .error e => (∃ accepted, stage = .sending row accepted rest) ∨
        (stage = .delivered row rest ∧ ∃ exc, e = .python exc) from ?_) ?_)
  · refine Coroutine.meets_ask_bind.mpr ⟨⟨rfl, rfl⟩, fun _ stage' hmove => ?_⟩
    obtain rfl : stage' = .sending row 0 rest := hmove
    refine meets_bind.mpr ((TelegramClient.sendMessage_meets config row.message
      (sends config row rest)).mono fun outcome stage hsent => ?_)
    cases outcome with
    | error e =>
        obtain ⟨accepted, -, rfl⟩ := hsent
        exact Or.inl ⟨accepted, rfl⟩
    | ok _ =>
        obtain rfl : stage = .sending row (splitMessage row.message).length rest := hsent
        refine Coroutine.meets_ask_bind.mpr ⟨⟨rfl, rfl, rfl⟩, fun _ stage' hmove => ?_⟩
        obtain rfl : stage' = .delivered row rest := hmove
        refine (confirm_meets config).mono fun outcome stage hconfirm => ?_
        cases outcome with
        | ok _ => exact hconfirm
        | error e => exact Or.inr hconfirm
  · intro outcome stage hend
    cases outcome with
    | ok _ => exact hend
    | error e =>
        -- the handler starts where the delivery or the bookkeeping has raised
        rcases hend with ⟨accepted, rfl⟩ | ⟨rfl, exc, rfl⟩
        · cases e with
          | telegramPermanentError message => exact hbury _ accepted
          | telegramSendError message retryAfter => exact hreschedule _ rfl rfl
          | python exc => exact hreschedule _ rfl rfl
        · exact hreschedule _ rfl rfl

/-- A batch that is not aborted has no rows left. -/
theorem processDue_drains (config : Settings) :
    (processDue config).Meets (protocol config) .idle Drains := by
  refine meets_bind.mpr (ask_meets rfl fun now => ?_)
  refine meets_bind.mpr (store_meets trivial (fun rows => ?_) fun _ => Or.inl rfl)
  -- the loop has its rows before it
  refine meets_bind.mpr (meets_forM (fun rest stage => stage = .batch rest) ?_ ?_ rfl)
  · rintro row rest stage rfl
    refine (deliver_meets config row rest).mono fun outcome stage hend => ?_
    cases outcome with
    | ok _ => exact hend
    | error e => exact hend.raised
  · rintro stage rfl
    rfl

/-- An iteration that is not aborted leaves no row of its batch. -/
theorem iteration_drains (config : Settings) :
    (iteration config).Meets (protocol config) .idle Drains := by
  rw [iteration]
  cases halert : config.notificationMaxAgeSeconds.toInt with
  | error exc => exact Or.inl rfl
  | ok alertMaxAge =>
      refine Coroutine.meets_ok_bind.mpr ?_
      cases hlisting : config.listingNotificationMaxAgeSeconds.toInt with
      | error exc => exact Or.inl rfl
      | ok listingMaxAge =>
          refine Coroutine.meets_ok_bind.mpr (meets_bind.mpr (ask_meets rfl fun now => ?_))
          refine meets_bind.mpr (store_meets ⟨halert, hlisting⟩ (fun _ => ?_) fun _ => Or.inl rfl)
          refine meets_bind.mpr ((processDue_drains config).mono fun outcome stage hend => ?_)
          cases outcome with
          | error e => exact Ends.raised hend
          | ok processed =>
              obtain rfl : stage = .batch [] := hend
              cases processed with
              | true => rfl
              | false =>
                  refine meets_bind.mpr (ask_meets rfl fun stopping => ?_)
                  cases stopping with
                  | true => rfl
                  | false => exact ask_meets rfl fun _ => rfl

theorem iteration_meets (config : Settings) :
    (iteration config).Meets (protocol config) .idle Ends :=
  (iteration_drains config).mono fun _ _ hend => hend.ends

/-- The worker keeps to its protocol, whatever the replies are. -/
theorem loopBody_meets (config : Settings) :
    (loopBody config).Meets (protocol config) .idle Ends := by
  refine meets_tryCatch.mpr (Meets.mono (show Meets _ _ _ Ends from ?_) ?_)
  · refine meets_bind.mpr ((iteration_meets config).mono fun outcome stage hend => ?_)
    cases outcome with
    | error e => exact hend
    | ok _ =>
        have hsettled := hend.settled
        refine meets_bind.mpr (ask_meets rfl fun now => ?_)
        exact ask_meets rfl fun _ => Or.inl hsettled
  · intro outcome stage hend
    cases outcome with
    | ok _ => exact hend
    | error e =>
        show (ite _ _ _ : Coroutine Unit).Meets _ _ _
        split
        · rename_i hexception
          have hsettled : stage.isSettled = true := by
            refine hend.resolve_right fun ⟨e', he, hcancelled⟩ => ?_
            obtain rfl := Except.error.inj he
            rw [hexception] at hcancelled
            cases hcancelled
          refine meets_bind.mpr (ask_meets rfl fun now => ?_)
          refine meets_bind.mpr (ask_meets rfl fun _ => ?_)
          exact ask_meets rfl fun _ => Or.inl hsettled
        · exact hend

end AlertDispatcher

end BybitMonitor
