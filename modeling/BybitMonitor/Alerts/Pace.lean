import Mathlib
import BybitMonitor.Alerts.Booking
import BybitMonitor.Alerts.OutboxRun

/-!
# The clock of the worker

What the readings of the clock are to the operations of the worker: a query for the rows that are
due comes after an expiry, and a failed row is put off from a reading on.

* `AlertDispatcher.loopBody_paced`: the worker keeps to its pace, whatever the replies are.
* `Pace.of`, `KeepsTime`: the readings of a run.
-/

namespace BybitMonitor

/-! ## The clock of the worker -/

/-- What the worker has read of the clock in this iteration: the second of the expiry until the
query, the rows of the query, and the readings since the query or since the last delivery began. -/
structure Pace where
  expiry : Option ℤ := none
  rows : List OutgoingNotification := []
  readings : List ℤ := []

namespace Pace

/-- Where a reply leads. -/
def after (pace : Pace) : (question : Await) → question.Reply → Pace
  | .clock, now => { pace with readings := pace.readings ++ [now] }
  | .note (.delivering _ _), _ => { pace with readings := [] }
  | .store (.expireNotifications _ _ now), .ok _ => { pace with expiry := some now }
  -- a query uses its expiry up: the next one needs another
  | .store (.dueNotifications _), .ok rows => { expiry := none, rows := rows, readings := [] }
  | _, _ => pace

/-- The worker queries after the expiry, and puts a row off by its delay at least. -/
def Allows (pace : Pace) : Await → Prop
  | .store (.dueNotifications now) => pace.expiry.isSome = true ∧ now ∈ pace.readings
  | .store (.markNotificationRetry id _ nextAttemptAt _) => ∃ row ∈ pace.rows, row.id = id ∧
      ∃ now ∈ pace.readings, now + retryDelayFor (row.attemptCount + 1) ≤ nextAttemptAt
  | _ => True

/-- The protocol of the worker, as far as the clock goes. -/
def protocol : Program.Protocol Await Await.Reply Pace where
  Allows := Allows
  Moves pace question reply pace' := pace' = pace.after question reply

end Pace

/-- The operations that depend on what was read before. -/
def Await.isScheduled : Await → Bool
  | .store (.dueNotifications _) | .store (.markNotificationRetry ..) => true
  | _ => false

namespace AlertDispatcher

open Program

variable {pace : Pace} {row : OutgoingNotification}

/-- Any other question may be asked, and leaves the rows. -/
theorem pass_paced {question : Await} {post : Except Raised question.Reply → Pace → Prop}
    (hquestion : question.isScheduled = false)
    (hpost : ∀ reply pace', pace'.rows = pace.rows → post (.ok reply) pace') :
    (Coroutine.ask question).Meets Pace.protocol pace post := by
  refine ⟨?_, fun reply pace' hmove => hpost reply pace' ?_⟩
  · -- the scheduled operations are the two that the protocol restricts
    show pace.Allows question
    unfold Pace.Allows
    split
    · cases hquestion
    · cases hquestion
    · trivial
  · obtain rfl : pace' = pace.after question reply := hmove
    -- only a query exchanges the rows
    unfold Pace.after
    split
    · rfl
    · rfl
    · rfl
    · cases hquestion
    · rfl

theorem passStore_paced {op : StoreOp} {post : Except Raised op.Result → Pace → Prop}
    (hop : (Await.store op).isScheduled = false)
    (hpost : ∀ outcome pace', pace'.rows = pace.rows → post outcome pace') :
    (Coroutine.store op).Meets Pace.protocol pace post :=
  meets_bind.mpr (pass_paced hop fun reply pace' hrows => by
    cases reply with
    | ok result => exact hpost _ pace' hrows
    | error exc => exact hpost _ pace' hrows)

/-- What `send_message` asks. -/
def requests : Protocol Await Await.Reply Unit where
  Allows _ question := question.isScheduled = false
  Moves _ _ _ _ := True

/-- A message is sent without regard to the clock. -/
theorem sendMessage_paced (config : Settings) (text : String) :
    (TelegramClient.sendMessage config text).Meets Pace.protocol pace fun _ pace' =>
      pace'.rows = pace.rows := by
  have hsends : Sends requests (splitMessage text) fun _ => () :=
    ⟨fun _ => ⟨rfl, fun _ _ _ => rfl⟩, fun _ _ => ⟨rfl, fun _ _ _ => rfl⟩,
      fun _ => ⟨rfl, fun _ _ _ => rfl⟩, fun _ _ _ => ⟨rfl, fun _ _ _ => (ite_self ()).symm⟩⟩
  -- the questions of `send_message` are none of the scheduled ones, so they pass beside its own
  -- protocol
  refine (TelegramClient.sendMessage_meets config text hsends).along
    (S := fun _ pace' => pace'.rows = pace.rows) rfl ?_ ?_ fun _ _ _ hrows _ => hrows
  · exact fun _ pace' question _ hquestion =>
      (@pass_paced pace' question (fun _ _ => True) hquestion fun _ _ _ => trivial).1
  · intro _ pace' question reply pace'' hrows hquestion hmove
    refine ⟨(), trivial, ?_⟩
    have hkept := @pass_paced pace' question (fun _ pace'' => pace''.rows = pace'.rows)
      hquestion fun _ _ h => h
    exact (hkept.2 reply pace'' hmove).trans hrows

theorem confirm_paced :
    (confirm row).Meets Pace.protocol pace fun _ pace' => pace'.rows = pace.rows := by
  rw [confirm]
  split
  · refine meets_bind.mpr (pass_paced rfl fun now pace₁ hrows => ?_)
    exact passStore_paced rfl fun _ pace₂ hrows' => hrows'.trans hrows
  · refine meets_bind.mpr (pass_paced rfl fun now pace₁ hrows => ?_)
    exact passStore_paced rfl fun _ pace₂ hrows' => hrows'.trans hrows

theorem bury_paced (exc : Raised) :
    (bury row exc).Meets Pace.protocol pace fun _ pace' => pace'.rows = pace.rows := by
  refine meets_bind.mpr (pass_paced rfl fun _ pace₁ hrows => ?_)
  exact passStore_paced rfl fun _ pace₂ hrows' => hrows'.trans hrows

/-- A failed row is put off from a reading of the clock on. -/
theorem reschedule_paced (exc : Raised) (hrow : row ∈ pace.rows) :
    (reschedule row exc).Meets Pace.protocol pace fun _ pace' => pace'.rows = pace.rows := by
  refine meets_bind.mpr (pass_paced rfl fun _ pace₁ hrows => ?_)
  refine meets_bind.mpr ?_
  rcases retryDelay_cases row exc with ⟨-, error, herror, -⟩ | ⟨-, delay, hdelay, hle⟩
  · -- the delay cannot be computed
    rw [herror]
    exact hrows
  · rw [hdelay]
    refine meets_bind.mpr ⟨trivial, fun now pace₂ hnow => ?_⟩
    refine meets_bind.mpr ⟨trivial, fun attemptAt pace₃ hattemptAt => ?_⟩
    obtain rfl : pace₂ = { pace₁ with readings := pace₁.readings ++ [now] } := hnow
    obtain rfl : pace₃ = { pace₁ with readings := pace₁.readings ++ [now] ++ [attemptAt] } :=
      hattemptAt
    refine Coroutine.meets_store.mpr ⟨?_, fun reply pace₄ hmove => ?_⟩
    · refine ⟨row, hrows ▸ hrow, rfl, now, ?_, ?_⟩
      · -- the first of the two readings is the one that the delay is added to
        exact List.mem_append_left _ (List.mem_append_right _ (List.mem_singleton_self now))
      · exact add_le_add_right hle now
    · obtain rfl : pace₄ = _ := hmove
      exact hrows

/-- A delivery keeps the rows of the query. -/
theorem deliver_paced (config : Settings) (hrow : row ∈ pace.rows) :
    (deliver config row).Meets Pace.protocol pace fun _ pace' => pace'.rows = pace.rows := by
  refine meets_tryCatch.mpr (Meets.mono (show Meets _ _ _ fun _ pace' =>
    pace'.rows = pace.rows from ?_) fun outcome pace' hrows => ?_)
  · refine meets_bind.mpr (pass_paced rfl fun _ pace₁ hrows => ?_)
    have hmessage := @sendMessage_paced pace₁ config row.message
    refine meets_bind.mpr (hmessage.mono fun outcome pace₂ hsent => ?_)
    cases outcome with
    | error e => exact hsent.trans hrows
    | ok _ =>
        refine meets_bind.mpr (pass_paced rfl fun _ pace₃ hnoted => ?_)
        exact confirm_paced.mono fun _ _ hkept => ((hkept.trans hnoted).trans hsent).trans hrows
  · cases outcome with
    | ok _ => exact hrows
    | error e =>
        have hreschedule := (reschedule_paced e (hrows ▸ hrow)).mono fun _ _ hkept =>
          hkept.trans hrows
        cases e with
        | telegramPermanentError message =>
            exact (bury_paced _).mono fun _ _ hkept => hkept.trans hrows
        | telegramSendError message retryAfter => exact hreschedule
        | python exc =>
            show (ite _ _ _ : Coroutine Unit).Meets _ _ _
            -- `except Exception` does not catch a `CancelledError`
            split
            · exact hreschedule
            · exact hrows

/-- The rows of the query are delivered. -/
theorem processDue_paced (config : Settings) (hexpiry : pace.expiry.isSome = true) :
    (processDue config).Meets Pace.protocol pace fun _ _ => True := by
  refine meets_bind.mpr ⟨trivial, fun now pace₁ hnow => ?_⟩
  obtain rfl : pace₁ = { pace with readings := pace.readings ++ [now] } := hnow
  refine meets_bind.mpr (Coroutine.meets_store.mpr ⟨?_, fun reply pace₂ hmove => ?_⟩)
  · exact ⟨hexpiry, List.mem_append_right _ (List.mem_singleton_self now)⟩
  · cases reply with
    | error exc => trivial
    | ok rows =>
        obtain rfl : pace₂ = { rows := rows } := hmove
        -- the rows that are left to deliver stay rows of the query
        refine meets_bind.mpr (meets_forM (fun rest pace => ∀ row ∈ rest, row ∈ pace.rows) ?_
          (fun _ _ => trivial) fun row hrow => hrow)
        intro row rest pace hrest
        have hdeliver := deliver_paced config (hrest row List.mem_cons_self)
        refine hdeliver.mono fun outcome pace' hrows => ?_
        cases outcome with
        | error e => trivial
        | ok _ => exact fun other hother => hrows ▸ hrest other (List.mem_cons_of_mem _ hother)

theorem iteration_paced (config : Settings) :
    (iteration config).Meets Pace.protocol pace fun _ _ => True := by
  rw [iteration]
  cases config.notificationMaxAgeSeconds.toInt with
  | error exc => trivial
  | ok alertMaxAge =>
      refine Coroutine.meets_ok_bind.mpr ?_
      cases config.listingNotificationMaxAgeSeconds.toInt with
      | error exc => trivial
      | ok listingMaxAge =>
          refine Coroutine.meets_ok_bind.mpr (meets_bind.mpr (pass_paced rfl fun now pace₁ _ => ?_))
          refine meets_bind.mpr (Coroutine.meets_store.mpr ⟨trivial, fun reply pace₂ hmove => ?_⟩)
          cases reply with
          | error exc => trivial
          | ok count =>
              -- the query comes after an expiry that has returned
              obtain rfl : pace₂ = { pace₁ with expiry := some now } := hmove
              refine meets_bind.mpr ((processDue_paced config rfl).mono fun outcome pace₃ _ => ?_)
              cases outcome with
              | error e => trivial
              | ok processed =>
                  cases processed with
                  | true => trivial
                  | false =>
                      refine meets_bind.mpr (pass_paced rfl fun stopping pace₄ _ => ?_)
                      cases stopping with
                      | true => trivial
                      | false => exact pass_paced rfl fun _ _ _ => trivial

/-- The worker keeps to its pace, whatever the replies are. -/
theorem loopBody_paced (config : Settings) :
    (loopBody config).Meets Pace.protocol pace fun _ _ => True := by
  refine meets_tryCatch.mpr (Meets.mono (show Meets _ _ _ fun _ _ => True from ?_) ?_)
  · refine meets_bind.mpr ((iteration_paced config).mono fun outcome pace₁ _ => ?_)
    cases outcome with
    | error e => trivial
    | ok _ =>
        refine meets_bind.mpr (pass_paced rfl fun now pace₂ _ => ?_)
        exact pass_paced rfl fun _ _ _ => trivial
  · intro outcome pace₁ _
    cases outcome with
    | ok _ => trivial
    | error e =>
        show (ite _ _ _ : Coroutine Unit).Meets _ _ _
        split
        · refine meets_bind.mpr (pass_paced rfl fun now pace₂ _ => ?_)
          refine meets_bind.mpr (pass_paced rfl fun _ pace₃ _ => ?_)
          exact pass_paced rfl fun _ _ _ => trivial
        · trivial

end AlertDispatcher

/-! ## The clock of a run -/

/-- A reading of the clock by the worker. -/
def AppEvent.reading : AppEvent → Option ℤ
  | .workerAsked .clock now => some now
  | _ => none

/-- The readings of the clock by the worker. -/
def workerReadings (events : List AppEvent) : List ℤ := events.filterMap AppEvent.reading

/-- The row whose delivery begins at a step. -/
def AppEvent.attemptOf : AppEvent → Option ℕ
  | .workerAsked (.note (.delivering id _)) _ => some id
  | _ => none

/-- The readings of the clock after the first attempt of a row. -/
def readingsSince (id : ℕ) : List AppEvent → List ℤ
  | [] => []
  | event :: events =>
      if event.attemptOf = some id then workerReadings events else readingsSince id events

/-- The second of a query for the rows that are due. -/
def AppEvent.queryOf : AppEvent → Option ℤ
  | .workerAsked (.store (.dueNotifications now)) (.ok _) => some now
  | _ => none

/-- The pace of the worker after a step. -/
def AppEvent.paceAfter (pace : Pace) : AppEvent → Pace
  | .restarted _ | .looped _ => {}
  | .workerAsked question reply => pace.after question reply
  | _ => pace

/-- The pace that a history has led the worker to. -/
def Pace.of (events : List AppEvent) : Pace := events.foldl AppEvent.paceAfter {}

/-- The clock of the worker does not step back, and the expiry and the query of an iteration read
the same second. -/
structure KeepsTime (events : List AppEvent) : Prop where
  steady : (workerReadings events).Pairwise (· ≤ ·)
  sameSecond : Trace.EveryLabel events fun before event =>
    ∀ now ∈ event.queryOf, ∀ second ∈ (Pace.of before).expiry, second = now

/-- A row was not created after its first attempt. -/
def OutgoingNotification.Timely (row : OutgoingNotification) (events : List AppEvent) : Prop :=
  ∀ now ∈ readingsSince row.id events, row.createdAt ≤ now

/-- The max age of the kind of a row, as `_iteration` computes it. -/
def Settings.maxAge (self : Settings) (row : OutgoingNotification) : Except PyExc ℤ :=
  if row.originType = some "listing" then self.listingNotificationMaxAgeSeconds.toInt
  else self.notificationMaxAgeSeconds.toInt

section History

variable {events : List AppEvent} {event : AppEvent} {row : OutgoingNotification} {now : ℤ} {id : ℕ}

theorem Pace.of_append (events : List AppEvent) (event : AppEvent) :
    Pace.of (events ++ [event]) = event.paceAfter (.of events) :=
  List.foldl_append

theorem workerReadings_append (events : List AppEvent) (event : AppEvent) :
    workerReadings (events ++ [event]) = workerReadings events ++ event.reading.toList := by
  rw [workerReadings, List.filterMap_append, List.filterMap_cons, List.filterMap_nil]
  cases event.reading <;> rfl

theorem mem_readingsSince_append (h : now ∈ readingsSince id events) :
    now ∈ readingsSince id (events ++ [event]) := by
  induction events with
  | nil => cases h
  | cons first events ih =>
      rw [readingsSince] at h
      rw [List.cons_append, readingsSince]
      split_ifs at h ⊢ with hfirst
      · rw [workerReadings_append]
        exact List.mem_append_left _ h
      · exact ih h

/-- A reading after an attempt is one after the first attempt. -/
theorem mem_readingsSince_of_reading (h : ∃ event ∈ events, event.attemptOf = some id)
    (hreading : event.reading = some now) : now ∈ readingsSince id (events ++ [event]) := by
  -- by induction on the history, up to the first attempt of the row
  induction events with
  | nil => simp at h
  | cons first events ih =>
      rw [List.cons_append, readingsSince]
      split_ifs with hfirst
      · rw [workerReadings_append, hreading]
        exact List.mem_append_right _ (List.mem_singleton_self now)
      · obtain ⟨attempt, hmem, hattempt⟩ := h
        rcases List.mem_cons.mp hmem with rfl | hlater
        · exact absurd hattempt hfirst
        · exact ih ⟨attempt, hlater, hattempt⟩

theorem OutgoingNotification.Timely.of_append (h : row.Timely (events ++ [event])) :
    row.Timely events :=
  fun now hnow => h now (mem_readingsSince_append hnow)

theorem KeepsTime.of_prefix {before : List AppEvent} (h : KeepsTime events)
    (hbefore : before <+: events) : KeepsTime before where
  steady := h.steady.sublist (hbefore.sublist.filterMap _)
  sameSecond earlier event hinitial := h.sameSecond earlier event (hinitial.trans hbefore)

/-- A new reading is not before the readings so far. -/
theorem KeepsTime.le_reading {earlier : ℤ} (h : KeepsTime (events ++ [event]))
    (hreading : event.reading = some now) (hearlier : earlier ∈ workerReadings events) :
    earlier ≤ now := by
  have hsteady := h.steady
  rw [workerReadings_append, hreading] at hsteady
  exact (List.pairwise_append.mp hsteady).2.2 earlier hearlier now (List.mem_singleton_self now)

end History

/-! ## The current delivery -/

/-- The row that is being delivered. -/
def WorkerStage.current : WorkerStage → Option OutgoingNotification
  | sending row _ _ | delivered row _ | refused row _ _ | failed row _ _ => some row
  | idle | batch _ => none

/-- A note begins a delivery, or belongs to the current one. -/
theorem WorkerStage.current_after_note {config : Settings} {stage : WorkerStage}
    {asked : DeliveryNote} (h : stage.Allows config (.note asked)) :
    stage.after (.note asked) () ≠ .idle ∧
      ∀ row ∈ (stage.after (.note asked) ()).current, row ∈ stage.current ∨
        (AppEvent.workerAsked (.note asked) ()).attemptOf = some row.id := by
  cases stage with
  | idle => cases asked <;> exact False.elim h
  | batch rows =>
      cases rows with
      | nil => cases asked <;> exact False.elim h
      | cons row rest =>
          cases asked with
          | delivering id message =>
              obtain ⟨rfl, rfl⟩ := h
              refine ⟨nofun, fun other hother => Or.inr ?_⟩
              obtain rfl := Option.some.inj hother
              rfl
          | _ => exact False.elim h
  | sending row accepted rest =>
      cases asked with
      | delivering id message => exact False.elim h
      | _ => exact ⟨nofun, fun other hother => Or.inl hother⟩
  | delivered row rest =>
      cases asked with
      | failed id => exact ⟨nofun, fun other hother => Or.inl hother⟩
      | _ => exact False.elim h
  | refused row accepted rest => cases asked <;> exact False.elim h
  | failed row accepted rest => cases asked <;> exact False.elim h

/-- A request belongs to the current delivery. -/
theorem WorkerStage.current_after_post {config : Settings} {stage : WorkerStage} {text : String}
    (reply : HttpReply) (h : stage.Allows config (.post text)) :
    stage.after (.post text) reply ≠ .idle ∧
      (stage.after (.post text) reply).current = stage.current := by
  cases stage with
  | sending row accepted rest => exact ⟨nofun, rfl⟩
  | batch rows => cases rows <;> exact False.elim h
  | _ => exact False.elim h

/-- A question that is no operation leaves the rows of the worker. -/
theorem WorkerStage.after_other {config : Settings} {stage : WorkerStage} {question : Await}
    (h : stage.Allows config question) (hquestion : ∀ op, question ≠ .store op)
    (reply : question.Reply) :
    (stage.after question reply).rows = stage.rows ∧
      (∀ row ∈ (stage.after question reply).current, row ∈ stage.current ∨
        (AppEvent.workerAsked question reply).attemptOf = some row.id) ∧
      (stage.after question reply = .idle → stage = .idle) := by
  cases question with
  | store op => exact absurd rfl (hquestion op)
  | note asked =>
      obtain ⟨hidle, hcurrent⟩ := current_after_note h
      exact ⟨(after_note h).1, hcurrent, fun hafter => absurd hafter hidle⟩
  | post text =>
      obtain ⟨hidle, hcurrent⟩ := current_after_post reply h
      refine ⟨(after_post reply h).1, fun row hrow => ?_, fun hafter => absurd hafter hidle⟩
      rw [hcurrent] at hrow
      exact Or.inl hrow
  | _ =>
      rw [after_of_isQuiet rfl]
      exact ⟨rfl, fun row hrow => Or.inl hrow, id⟩

/-- A question that is no operation leaves the rows of the query and the expiry. -/
theorem Pace.after_other {question : Await} (hquestion : ∀ op, question ≠ .store op) (pace : Pace)
    (reply : question.Reply) :
    (pace.after question reply).rows = pace.rows ∧
      (pace.after question reply).expiry = pace.expiry ∧
      (∀ now ∈ (pace.after question reply).readings, now ∈ pace.readings ∨
        (AppEvent.workerAsked question reply).reading = some now) ∧
      ((AppEvent.workerAsked question reply).attemptOf ≠ none →
        (pace.after question reply).readings = []) := by
  cases question with
  | store op => exact absurd rfl (hquestion op)
  | clock =>
      refine ⟨rfl, rfl, fun now hnow => ?_, fun h => absurd rfl h⟩
      rcases List.mem_append.mp hnow with hold | hnew
      · exact Or.inl hold
      · rw [List.mem_singleton.mp hnew]
        exact Or.inr rfl
  | note asked =>
      cases asked with
      | delivering id message => exact ⟨rfl, rfl, fun now hnow => (nomatch hnow), fun _ => rfl⟩
      | _ => exact ⟨rfl, rfl, fun now hnow => Or.inl hnow, fun h => absurd rfl h⟩
  | _ => exact ⟨rfl, rfl, fun now hnow => Or.inl hnow, fun h => absurd rfl h⟩

end BybitMonitor
