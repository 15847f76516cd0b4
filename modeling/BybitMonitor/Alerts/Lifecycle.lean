import Mathlib
import BybitMonitor.Alerts.OutboxRun

/-!
# The life of an outbox row

What a row of the outbox goes through, over every run of the application: its status moves one way
only, and what it has become is accounted for by the history.

* `AppRun.transientFailures_le`: each recorded failure has its own entry of the failure branch.
* `outbox_lifecycle`: the life of a row.
-/

namespace BybitMonitor

/-- The row whose delivery has entered the failure branch at a step. -/
def AppEvent.failedOf : AppEvent → Option ℕ
  | .workerAsked (.note (.failed id)) _ => some id
  | _ => none

/-- The number of times that a history has entered the failure branch for a row. -/
def failures (id : ℕ) (events : List AppEvent) : ℕ :=
  (events.filterMap AppEvent.failedOf).count id

theorem failures_append (id : ℕ) (events : List AppEvent) (event : AppEvent) :
    failures id (events ++ [event]) =
      failures id events + if event.failedOf = some id then 1 else 0 := by
  rw [failures, List.filterMap_append, List.count_append]
  congr 1
  cases hfailed : event.failedOf with
  | none => simp [hfailed]
  | some other => simp [hfailed, List.count_singleton]

/-- The row whose failure is not recorded yet. -/
def WorkerStage.failing : WorkerStage → Option ℕ
  | failed row _ _ => some row.id
  | _ => none

/-- A step of the worker records a failure only if the failure branch was entered. -/
theorem WorkerStage.failing_after {config : Settings} {stage : WorkerStage} {question : Await}
    (reply : question.Reply) (h : stage.Allows config question) (id : ℕ) :
    (if (AppEvent.workerAsked question reply).retryOf = some id then 1 else 0) +
        (if ((AppEvent.workerAsked question reply).stageAfter stage).failing = some id
          then 1 else 0) ≤
      (if stage.failing = some id then 1 else 0) +
        if (AppEvent.workerAsked question reply).failedOf = some id then 1 else 0 := by
  -- a question outside the bookkeeping of failures leaves the row or drops it
  have hdrop (hretry : (AppEvent.workerAsked question reply).retryOf = none)
      (hfailing : ((AppEvent.workerAsked question reply).stageAfter stage).failing = none ∨
        ((AppEvent.workerAsked question reply).stageAfter stage).failing = stage.failing) :
      (if (AppEvent.workerAsked question reply).retryOf = some id then 1 else 0) +
          (if ((AppEvent.workerAsked question reply).stageAfter stage).failing = some id
            then 1 else 0) ≤
        (if stage.failing = some id then 1 else 0) +
          if (AppEvent.workerAsked question reply).failedOf = some id then 1 else 0 := by
    rw [hretry]
    rcases hfailing with hnone | hsame
    · simp [hnone]
    · simp [hsame]
  cases question with
  | note note =>
      cases note with
      | failed id' =>
          cases stage with
          | sending row accepted rest =>
              obtain rfl : id' = row.id := h
              simp [AppEvent.retryOf, AppEvent.failedOf, AppEvent.stageAfter, after, failing]
          | delivered row rest =>
              obtain rfl : id' = row.id := h
              simp [AppEvent.retryOf, AppEvent.failedOf, AppEvent.stageAfter, after, failing]
          | batch rows => cases rows <;> exact False.elim h
          | _ => exact False.elim h
      | _ =>
          refine hdrop rfl ?_
          cases stage with
          | batch rows => cases rows <;> exact Or.inl rfl
          | failed row accepted rest => exact Or.inr rfl
          | _ => exact Or.inl rfl
  | post text =>
      refine hdrop rfl ?_
      cases stage with
      | batch rows => cases rows <;> exact Or.inl rfl
      | failed row accepted rest => exact Or.inr rfl
      | _ => exact Or.inl rfl
  | store op =>
      have hoperates := operates_of_allows h
      cases reply with
      | error exc =>
          refine hdrop (by cases op <;> rfl) ?_
          rcases hoperates.after_error exc with hsame | hended
          · exact Or.inr (congrArg failing hsame)
          · exact Or.inl (congrArg failing hended)
      | ok result =>
          cases hoperates with
          | reschedule => exact Nat.le_refl _
          | expire => exact hdrop rfl (Or.inl rfl)
          | query => exact hdrop rfl (Or.inl rfl)
          | confirm => exact hdrop rfl (Or.inl rfl)
          | confirmListing => exact hdrop rfl (Or.inl rfl)
          | bury => exact hdrop rfl (Or.inl rfl)
  | _ => exact hdrop rfl (Or.inr (congrArg failing (after_of_isQuiet rfl _)))

/-- Each recorded failure of a row has its own entry of the failure branch. -/
theorem AppRun.transientFailures_le {config : AdmittedSettings} {events : List AppEvent}
    {s : Application} (h : AppRun config events s) (id : ℕ) :
    transientFailures id events ≤ failures id events := by
  -- an entry that is not recorded yet is one more
  have hinv : transientFailures id events +
      (if (WorkerStage.of events).failing = some id then 1 else 0) ≤ failures id events := by
    induction h with
    | nil => exact Nat.le_refl 0
    | @snoc events s event s' prior last ih =>
        rw [transientFailures_append, failures_append, WorkerStage.of_append]
        cases last with
        | @workerAsked question next reply world' hworker hserves =>
            have hmeets := ((AppRun.outboxInvariant prior).worker _ hworker).1
            have hevent := WorkerStage.failing_after reply hmeets.1 id
            omega
        | restarted config =>
            simp only [AppEvent.retryOf, AppEvent.stageAfter, WorkerStage.failing, reduceCtorEq,
              if_false]
            omega
        | looped =>
            simp only [AppEvent.retryOf, AppEvent.stageAfter, WorkerStage.failing, reduceCtorEq,
              if_false]
            omega
        | _ => exact ih
  omega

/-- Over every run of the application, rows of the outbox only move on and none is removed, and the
history accounts for each: a sent row was delivered, a dead one was refused or too old, and the
attempts are the failures that were recorded. Rows are expired by the ages of the settings. -/
theorem outbox_lifecycle {config : AdmittedSettings} {events : List AppEvent} {s : Application}
    (h : AppRun config events s) :
    Trace.EveryStep AppStep (Application.start config {} 0) events
        (fun s _ s' => s.store.Advances s'.store) ∧
      (s.store.outgoing.map OutgoingNotification.id).Nodup ∧
      (∀ row ∈ s.store.outgoing, row.Justified events) ∧
      (∀ id, transientFailures id events ≤ failures id events) ∧
      Trace.EveryStep AppStep (Application.start config {} 0) events fun s event _ =>
        ∀ alertMaxAge listingMaxAge now reply,
          event = .workerAsked (.store (.expireNotifications alertMaxAge listingMaxAge now)) reply →
            s.config.notificationMaxAgeSeconds.toInt = .ok alertMaxAge ∧
              s.config.listingNotificationMaxAgeSeconds.toInt = .ok listingMaxAge := by
  have hs := h.outboxInvariant
  refine ⟨?_, hs.service.wellKeyed.ids_nodup, hs.justified, h.transientFailures_le, ?_⟩
  · intro k event s₁ s₂ _ hrun hstep
    exact ((AppRun.outboxInvariant hrun).step hstep).2
  · intro k event s₁ s₂ _ hrun hstep alertMaxAge listingMaxAge now reply hevent
    subst hevent
    cases hstep with
    | workerAsked hworker hserves =>
        -- the worker asks this with the ages of its settings only
        have hmeets := ((AppRun.outboxInvariant hrun).worker _ hworker).1
        have hoperates := WorkerStage.operates_of_allows hmeets.1
        generalize WorkerStage.of (events.take k) = stage at hoperates
        cases hoperates with
        | expire halert hlisting => exact ⟨halert, hlisting⟩

/-- A notification that meets flood control, and is accepted after a restart. -/
def floodInputs : List AppInput :=
  let limited : HttpReply := .response ⟨429, some (.object []), some "5"⟩
  let accepted : HttpReply := .response ⟨200, some (.object [("ok", .bool true)]), none⟩
  .begin (.enqueue "text" "test" none none none) :: List.replicate 2 (.call 1 { now := 100 }) ++
    List.replicate 14 (.worker { now := 100, http := limited }) ++
    .restart .default :: List.replicate 11 (.worker { now := 200, http := accepted })

theorem outbox_lifecycle_flood :
    ∃ row ∈ (performAll .default floodInputs).2.store.outgoing,
      (row.status = .sent ∧ row.attemptCount = 1) ∧
        row.Justified (performAll .default floodInputs).1 := by
  have hlifecycle := outbox_lifecycle (run_performAll .default floodInputs)
  have hrow : ∃ row ∈ (performAll .default floodInputs).2.store.outgoing,
      row.status = .sent ∧ row.attemptCount = 1 := by decide +kernel
  obtain ⟨row, hmem, hsent⟩ := hrow
  exact ⟨row, hmem, hsent, hlifecycle.2.2.1 row hmem⟩

end BybitMonitor
