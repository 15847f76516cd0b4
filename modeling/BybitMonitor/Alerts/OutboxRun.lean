import Mathlib
import BybitMonitor.Application
import BybitMonitor.Persistence.Outbox

/-!
# The outbox over a run

The invariant that ties the rows of the outbox to the history of a run, and to the batch of rows
that the worker has read: only the worker updates rows, and it updates each row of its batch once.

* `OutgoingNotification.Justified`: why a row has its status and its number of attempts.
* `OutboxInvariant.step`: one step keeps the invariant and lets the rows move on.
-/

namespace BybitMonitor

/-- What the calls ask: no request, and no update of the outbox. -/
def callAllows : Await → Prop
  | .store op => op.insertsOnly = true
  | .note _ | .post _ => False
  | _ => True

section Calls

variable {α : Type} {allowed : Await → Prop}

theorem asks_ofExcept (x : Except PyExc α) : (Coroutine.ofExcept x).Asks allowed := by
  cases x <;> trivial

theorem asks_store {op : StoreOp} (hop : allowed (.store op)) :
    (Coroutine.store op).Asks allowed :=
  Program.asks_bind (p := Coroutine.ask (.store op)) ⟨hop, fun _ => trivial⟩ fun _ =>
    asks_ofExcept _

theorem asks_ask {question : Await} (h : allowed question) :
    (Coroutine.ask question).Asks allowed :=
  ⟨h, fun _ => trivial⟩

section Tracker

variable (hclock : allowed .clock)
  (hinsert : ∀ draft, allowed (.store (.insertOutgoingNotification draft)))
include hclock hinsert

theorem asks_enqueue (text tag : String) (dedupeKey originType originKey : Option String) :
    (AlertDispatcher.enqueue text tag dedupeKey originType originKey).Asks allowed :=
  Program.asks_bind (asks_ask hclock) fun _ => asks_store (hinsert _)

theorem asks_notify (tracker : ListingTracker) (event : ListingEvent) :
    (tracker.notify event).Asks allowed := by
  rw [ListingTracker.notify]
  split_ifs
  · trivial
  · trivial
  · refine Program.asks_bind (asks_ask hclock) fun now => ?_
    refine Program.asks_bind (asks_ofExcept _) fun text => ?_
    exact Program.asks_bind (asks_enqueue hclock hinsert _ _ _ _ _) fun _ => trivial

theorem asks_recordAndNotify (hrecord : ∀ eventKey category symbol eventType now,
      allowed (.store (.record eventKey category symbol eventType now)))
    (tracker : ListingTracker) (category : Option String) (symbol : String)
    (eventType : ListingEventType) (now : ℤ) :
    (tracker.recordAndNotify category symbol eventType now).Asks allowed := by
  refine Program.asks_bind (asks_store (hrecord _ _ _ _ _)) fun recorded => ?_
  cases recorded with
  | none => trivial
  | some recorded => exact Program.asks_bind (asks_notify hclock hinsert _ _) fun _ => trivial

theorem asks_handleRegistry (hrecord : ∀ eventKey category symbol eventType now,
      allowed (.store (.record eventKey category symbol eventType now)))
    (tracker : ListingTracker) (result : DiscoveryResult) :
    (tracker.handleRegistry result).Asks allowed := by
  refine Program.asks_bind (asks_ask hclock) fun now => ?_
  split
  · trivial
  · refine Program.asks_gather (fun event => ?_) _
    rw [ListingTracker.handleEvent]
    split
    · trivial
    · exact asks_recordAndNotify hclock hinsert hrecord _ _ _ _ _

variable (hfind : ∀ dedupeKey, allowed (.store (.findNotificationByDedupe dedupeKey)))
  (hsent : ∀ eventKey, allowed (.store (.markSent eventKey)))
include hfind hsent

theorem asks_repair (tracker : ListingTracker) (event : ListingEvent) :
    (tracker.repair event).Asks allowed := by
  rw [ListingTracker.repair]
  split
  · refine Program.asks_bind (asks_store (hfind _)) fun row => ?_
    cases row with
    | none => exact Program.asks_bind (asks_notify hclock hinsert _ _) fun _ => trivial
    | some row =>
        dsimp only
        split
        · exact Program.asks_bind (asks_store (hsent _)) fun _ => trivial
        · trivial
  · exact Program.asks_bind (asks_notify hclock hinsert _ _) fun _ => trivial

theorem asks_reconcileUnsent (hunsent : allowed (.store .unsent)) (tracker : ListingTracker) :
    tracker.reconcileUnsent.Asks allowed := by
  refine Program.asks_bind (asks_store hunsent) fun events => ?_
  refine Program.asks_bind (Program.asks_gather ?_ _) fun _ => trivial
  exact asks_repair hclock hinsert hfind hsent tracker

end Tracker

/-- Every call asks for the clock and for operations that update no row of the outbox. -/
theorem EntryPoint.asks_of (hclock : allowed .clock)
    (hstore : ∀ op : StoreOp, op.insertsOnly = true → allowed (.store op)) (entry : EntryPoint)
    (tracker : ListingTracker) : (entry.coroutine tracker).Asks allowed := by
  have hinsert (draft : Draft) : allowed (.store (.insertOutgoingNotification draft)) :=
    hstore _ rfl
  have hrecord (eventKey : String) (category : Option String) (symbol : String)
      (eventType : ListingEventType) (now : ℤ) :
      allowed (.store (.record eventKey category symbol eventType now)) := hstore _ rfl
  have hregistry (result : DiscoveryResult) : (tracker.handleRegistry result).Asks allowed :=
    asks_handleRegistry hclock hinsert hrecord tracker result
  cases entry with
  | handleRegistry result => exact Program.asks_bind (hregistry result) fun _ => trivial
  | handleAnnouncements announcements =>
      refine Program.asks_bind (Program.asks_bind (asks_ask hclock) fun now => ?_) fun _ => trivial
      refine Program.asks_gather (fun symbol => ?_) _
      exact asks_recordAndNotify hclock hinsert hrecord _ _ _ _ _
  | reconcileUnsent =>
      refine Program.asks_bind ?_ fun _ => trivial
      exact asks_reconcileUnsent hclock hinsert (fun _ => hstore _ rfl) (fun _ => hstore _ rfl)
        (hstore _ rfl) tracker
  -- discovery reads and writes the registry, and then handles its result
  | discoverOnce fetched =>
      refine Program.asks_bind (Program.asks_bind (asks_ask hclock) fun now => ?_) fun _ => trivial
      refine Program.asks_bind (asks_ofExcept _) fun fetched => ?_
      refine Program.asks_bind ?_ fun result => ?_
      · refine Program.asks_bind (asks_store (hstore _ rfl)) fun current => ?_
        refine Program.asks_bind (asks_store (hstore _ rfl)) fun _ => ?_
        exact Program.asks_bind (asks_store (hstore _ rfl)) fun _ => trivial
      · exact Program.asks_bind (hregistry result) fun _ => trivial
  | enqueue text tag dedupeKey originType originKey =>
      exact Program.asks_bind (asks_enqueue hclock hinsert _ _ _ _ _) fun _ => trivial

/-- Every call keeps away from the rows of the outbox and from Telegram. -/
theorem EntryPoint.asks (entry : EntryPoint) (tracker : ListingTracker) :
    (entry.coroutine tracker).Asks callAllows :=
  entry.asks_of trivial (fun _ hop => hop) tracker

end Calls

/-! ## The history of a row -/

/-- The row whose failed attempt a step has recorded. -/
def AppEvent.retryOf : AppEvent → Option ℕ
  | .workerAsked (.store (.markNotificationRetry id _ _ _)) (.ok _) => some id
  | _ => none

/-- The number of failed attempts of a row that a history has recorded. -/
def transientFailures (id : ℕ) (events : List AppEvent) : ℕ :=
  (events.filterMap AppEvent.retryOf).count id

/-- The notes of the worker in a history. -/
def Noted (events : List AppEvent) (note : DeliveryNote) : Prop :=
  AppEvent.workerAsked (.note note) () ∈ events

/-- The history has expired the rows of a kind that were created before a time. -/
def Expired (events : List AppEvent) (row : OutgoingNotification) : Prop :=
  ∃ alertMaxAge listingMaxAge now, ∃ count : ℕ,
    AppEvent.workerAsked (.store (.expireNotifications alertMaxAge listingMaxAge now)) (.ok count) ∈
      events ∧
    row.createdAt < now - if row.originType = some "listing" then listingMaxAge else alertMaxAge

/-- Why a row has its status and its number of attempts. -/
structure OutgoingNotification.Justified (row : OutgoingNotification) (events : List AppEvent) :
    Prop where
  sent : row.status = .sent → Noted events (.delivered row.id row.message)
  dead : row.status = .dead → Noted events (.refused row.id) ∨ Expired events row
  attempts : row.attemptCount = transientFailures row.id events

theorem transientFailures_append (id : ℕ) (events : List AppEvent) (event : AppEvent) :
    transientFailures id (events ++ [event]) =
      transientFailures id events + if event.retryOf = some id then 1 else 0 := by
  rw [transientFailures, List.filterMap_append, List.count_append]
  congr 1
  cases hretry : event.retryOf with
  | none => simp [hretry]
  | some other => simp [hretry, List.count_singleton]

theorem Noted.mono {events : List AppEvent} {note : DeliveryNote} (h : Noted events note)
    (event : AppEvent) : Noted (events ++ [event]) note :=
  List.mem_append_left _ h

/-- A step that records no failed attempt of a row leaves its history as it is. -/
theorem OutgoingNotification.Justified.mono {row : OutgoingNotification} {events : List AppEvent}
    {event : AppEvent} (h : row.Justified events) (hretry : event.retryOf ≠ some row.id) :
    row.Justified (events ++ [event]) where
  sent hsent := (h.sent hsent).mono event
  dead hdead := by
    rcases h.dead hdead with hrefused | ⟨alertMaxAge, listingMaxAge, now, count, hmem, hage⟩
    · exact Or.inl (hrefused.mono event)
    · exact Or.inr ⟨alertMaxAge, listingMaxAge, now, count, List.mem_append_left _ hmem, hage⟩
  -- no attempt of this row was recorded
  attempts := by
    rw [transientFailures_append, if_neg hretry, Nat.add_zero]
    exact h.attempts

/-- A row is marked sent after `send_message` has returned for it. -/
theorem OutgoingNotification.Justified.of_sent {row current : OutgoingNotification}
    {events : List AppEvent} {event : AppEvent} {now : ℤ} (h : current.Justified events)
    (hsame : row.SameNotice current) (hnoted : Noted events (.delivered row.id row.message))
    (hretry : event.retryOf ≠ some current.id) :
    ({ current with status := .sent, sentAt := some now } : OutgoingNotification).Justified
      (events ++ [event]) where
  sent _ := by
    show Noted _ (.delivered current.id current.message)
    rw [hsame.id_eq, hsame.message_eq]
    exact hnoted.mono event
  dead hdead := nomatch hdead
  attempts := (h.mono hretry).attempts

/-! ## The batch of the worker -/

namespace WorkerStage

/-- The rows that the worker has not booked yet. -/
def rows : WorkerStage → List OutgoingNotification
  | idle => []
  | batch rows => rows
  | sending row _ rest | delivered row rest | refused row _ rest | failed row _ rest => row :: rest

/-- The note that the stage rests on. -/
def note : WorkerStage → Option DeliveryNote
  | delivered row _ => some (.delivered row.id row.message)
  | refused row _ _ => some (.refused row.id)
  | failed row _ _ => some (.failed row.id)
  | _ => none

/-- The rows of the worker are open rows of the outbox, each once. -/
structure Linked (stage : WorkerStage) (events : List AppEvent) (store : Store) : Prop where
  ids_nodup : (stage.rows.map OutgoingNotification.id).Nodup
  current : ∀ row ∈ stage.rows, ∃ current ∈ store.outgoing,
    row.SameNotice current ∧ current.status.isOpen = true
  noted : ∀ note ∈ stage.note, Noted events note

/-- The operations of the worker, each at its stage. -/
inductive Operates (config : Settings) : WorkerStage → StoreOp → Prop
  | expire {alertMaxAge listingMaxAge now : ℤ}
      (halert : config.notificationMaxAgeSeconds.toInt = .ok alertMaxAge)
      (hlisting : config.listingNotificationMaxAgeSeconds.toInt = .ok listingMaxAge) :
      Operates config .idle (.expireNotifications alertMaxAge listingMaxAge now)
  | query {now : ℤ} : Operates config .idle (.dueNotifications now)
  | confirm {row : OutgoingNotification} {rest : List OutgoingNotification} {now : ℤ}
      (hkey : row.listingKey = none) :
      Operates config (.delivered row rest) (.markNotificationSent row.id now)
  | confirmListing {row : OutgoingNotification} {rest : List OutgoingNotification}
      {eventKey : String} {now : ℤ} (hkey : row.listingKey = some eventKey) :
      Operates config (.delivered row rest) (.confirmListing row.id eventKey now)
  | bury {row : OutgoingNotification} {accepted : ℕ} {rest : List OutgoingNotification}
      {error : String} :
      Operates config (.refused row accepted rest) (.markNotificationDead row.id error)
  | reschedule {row : OutgoingNotification} {accepted : ℕ} {rest : List OutgoingNotification}
      {error : String} {nextAttemptAt now : ℤ} :
      Operates config (.failed row accepted rest)
        (.markNotificationRetry row.id error nextAttemptAt now)

variable {config : Settings} {stage : WorkerStage}

theorem operates_of_allows {op : StoreOp} (h : stage.Allows config (.store op)) :
    stage.Operates config op := by
  cases stage with
  | idle =>
      cases op with
      | expireNotifications alertMaxAge listingMaxAge now => exact .expire h.1 h.2
      | dueNotifications now => exact .query
      | _ => exact False.elim h
  | batch rows => cases rows <;> cases op <;> exact False.elim h
  | sending row accepted rest => cases op <;> exact False.elim h
  | delivered row rest =>
      cases op with
      | markNotificationSent id now =>
          obtain ⟨rfl, hkey⟩ := h
          exact .confirm hkey
      | confirmListing id eventKey now =>
          obtain ⟨rfl, hkey⟩ := h
          exact .confirmListing hkey
      | _ => exact False.elim h
  | refused row accepted rest =>
      cases op with
      | markNotificationDead id error =>
          obtain rfl : id = row.id := h
          exact .bury
      | _ => exact False.elim h
  -- in every stage the worker asks for what its row is due
  | failed row accepted rest =>
      cases op with
      | markNotificationRetry id error nextAttemptAt now =>
          obtain rfl : id = row.id := h
          exact .reschedule
      | _ => exact False.elim h

/-- A note leaves the rows of the worker, and is the one that the next stage rests on. -/
theorem after_note {asked : DeliveryNote} (h : stage.Allows config (.note asked)) :
    (stage.after (.note asked) ()).rows = stage.rows ∧
      ∀ note ∈ (stage.after (.note asked) ()).note, note = asked := by
  cases stage with
  | idle => cases asked <;> exact False.elim h
  | batch rows =>
      cases rows with
      | nil => cases asked <;> exact False.elim h
      | cons row rest =>
          cases asked with
          | delivering id message => exact ⟨rfl, fun _ h => (nomatch h)⟩
          | _ => exact False.elim h
  | sending row accepted rest =>
      cases asked with
      | delivering id message => exact False.elim h
      | delivered id message =>
          obtain ⟨rfl, rfl, -⟩ := h
          exact ⟨rfl, fun note h => (Option.some.inj h).symm⟩
      | refused id =>
          obtain rfl : id = row.id := h
          exact ⟨rfl, fun note h => (Option.some.inj h).symm⟩
      | failed id =>
          obtain rfl : id = row.id := h
          exact ⟨rfl, fun note h => (Option.some.inj h).symm⟩
  | delivered row rest =>
      cases asked with
      | failed id =>
          obtain rfl : id = row.id := h
          exact ⟨rfl, fun note h => (Option.some.inj h).symm⟩
      | _ => exact False.elim h
  | refused row accepted rest => cases asked <;> exact False.elim h
  | failed row accepted rest => cases asked <;> exact False.elim h

/-- A request leaves the rows of the worker. -/
theorem after_post {text : String} (reply : HttpReply) (h : stage.Allows config (.post text)) :
    (stage.after (.post text) reply).rows = stage.rows ∧
      (stage.after (.post text) reply).note = none := by
  cases stage with
  | sending row accepted rest => exact ⟨rfl, rfl⟩
  | batch rows => cases rows <;> exact False.elim h
  | _ => exact False.elim h

/-- A stage with the same rows is linked, if its note is in the history. -/
theorem Linked.of_rows {stage' : WorkerStage} {events : List AppEvent} {store : Store}
    {event : AppEvent} (h : stage.Linked events store) (hrows : stage'.rows = stage.rows)
    (hnote : ∀ note ∈ stage'.note, note ∈ stage.note ∨ event = .workerAsked (.note note) ()) :
    stage'.Linked (events ++ [event]) store where
  ids_nodup := hrows ▸ h.ids_nodup
  current row hrow := h.current row (hrows ▸ hrow)
  noted note hmem := by
    rcases hnote note hmem with hold | rfl
    · exact (h.noted note hold).mono event
    · exact List.mem_append_right _ (List.mem_singleton_self _)

/-- Rows that are kept stay linked. -/
theorem Linked.of_kept {events : List AppEvent} {event : AppEvent} {store store' : Store}
    (h : stage.Linked events store) (hkept : ∀ row ∈ store.outgoing, row ∈ store'.outgoing) :
    stage.Linked (events ++ [event]) store' where
  ids_nodup := h.ids_nodup
  current row hrow := by
    obtain ⟨current, hmem, hcurrent⟩ := h.current row hrow
    exact ⟨current, hkept current hmem, hcurrent⟩
  noted note hmem := (h.noted note hmem).mono event

/-- An operation that raises leaves the worker at its stage, or ends its batch. -/
theorem Operates.after_error {op : StoreOp} (h : stage.Operates config op) (exc : PyExc) :
    stage.after (.store op) (.error exc) = stage ∨
      stage.after (.store op) (.error exc) = .batch [] := by
  cases h with
  | bury => exact Or.inr rfl
  | _ => exact Or.inl rfl

theorem linked_nil {events : List AppEvent} {store : Store} {stage : WorkerStage}
    (hrows : stage.rows = []) (hnote : stage.note = none) : stage.Linked events store where
  ids_nodup := by
    rw [hrows]
    exact List.nodup_nil
  current row hrow := by
    rw [hrows] at hrow
    cases hrow
  noted note hmem := by
    rw [hnote] at hmem
    cases hmem

end WorkerStage

/-- The stage of the worker after a step. -/
def AppEvent.stageAfter (stage : WorkerStage) : AppEvent → WorkerStage
  | .restarted _ | .looped _ => .idle
  | .workerAsked question reply => stage.after question reply
  | _ => stage

/-- The stage that a history has led the worker to. -/
def WorkerStage.of (events : List AppEvent) : WorkerStage :=
  events.foldl AppEvent.stageAfter .idle

theorem WorkerStage.of_append (events : List AppEvent) (event : AppEvent) :
    WorkerStage.of (events ++ [event]) = event.stageAfter (.of events) :=
  List.foldl_append

/-! ## The invariant -/

/-- The worker keeps to its protocol at the stage of the history. -/
def WorkerLinked (events : List AppEvent) (s : Application) : Prop :=
  ∀ worker ∈ s.worker, worker.Meets (WorkerStage.protocol s.config.toSettings) (.of events)
    WorkerStage.Ends ∧ (WorkerStage.of events).Linked events s.store

/-- What holds of the application after every run. -/
structure OutboxInvariant (events : List AppEvent) (s : Application) : Prop where
  service : ServiceInvariant s.serviceState
  calls : ∀ call ∈ s.calls, call.2.Asks callAllows
  worker : WorkerLinked events s
  justified : ∀ row ∈ s.store.outgoing, row.Justified events
  retried : ∀ id ∈ events.filterMap AppEvent.retryOf, id ≤ s.store.tables.outgoingSequence

namespace OutboxInvariant

variable {events : List AppEvent} {event : AppEvent} {s s' : Application}

/-- A row whose id was not given out before has no failed attempts. -/
theorem transientFailures_eq_zero (hs : OutboxInvariant events s) {id : ℕ}
    (hid : s.store.tables.outgoingSequence < id) : transientFailures id events = 0 := by
  refine List.count_eq_zero.mpr fun hmem => ?_
  exact absurd (hs.retried id hmem) (Nat.not_le.mpr hid)

/-- A step that inserts rows, or none, keeps the invariant. -/
theorem of_inserted (hs : OutboxInvariant events s) (s' : Application)
    (added : List OutgoingNotification) (hservice : ServiceInvariant s'.serviceState)
    (hretry : event.retryOf = none)
    (hrows : s'.store.outgoing = s.store.outgoing ++ added)
    (hadded : ∀ row ∈ added, row.status = .pending ∧ row.attemptCount = 0 ∧
      s.store.tables.outgoingSequence < row.id)
    (hsequence : s.store.tables.outgoingSequence ≤ s'.store.tables.outgoingSequence)
    (hcalls : ∀ call ∈ s'.calls, call.2.Asks callAllows)
    (hworker : WorkerLinked (events ++ [event]) s') :
    OutboxInvariant (events ++ [event]) s' ∧ s.store.Advances s'.store := by
  refine ⟨⟨hservice, hcalls, hworker, fun row hrow => ?_, fun id hid => ?_⟩, ?_⟩
  · rw [hrows] at hrow
    have hnone : event.retryOf ≠ some row.id := by simp [hretry]
    rcases List.mem_append.mp hrow with hold | hnew
    · exact (hs.justified row hold).mono hnone
    · -- a new row is pending, and its id has no history
      obtain ⟨hstatus, hattempts, hid⟩ := hadded row hnew
      refine ⟨fun h => by simp [hstatus] at h, fun h => by simp [hstatus] at h, ?_⟩
      rw [transientFailures_append, if_neg hnone, hs.transientFailures_eq_zero hid]
      exact hattempts
  · rw [List.filterMap_append] at hid
    rcases List.mem_append.mp hid with hold | hnew
    · exact (hs.retried id hold).trans hsequence
    · simp [hretry] at hnew
  · refine Store.Advances.append hrows fun row hnew => ?_
    obtain ⟨hstatus, -, hid⟩ := hadded row hnew
    exact ⟨hstatus, fun old hold => (hs.service.wellKeyed.id_le old hold).trans_lt hid⟩

/-- A step that leaves the tables of the outbox keeps the invariant. -/
theorem of_tables (hs : OutboxInvariant events s) (s' : Application)
    (hservice : s'.service = s.service) (htables : s'.store.tables = s.store.tables)
    (hretry : event.retryOf = none)
    (hcalls : ∀ call ∈ s'.calls, call.2.Asks callAllows)
    (hworker : WorkerLinked (events ++ [event]) s') :
    OutboxInvariant (events ++ [event]) s' ∧ s.store.Advances s'.store := by
  have hstate : s'.serviceState = s.serviceState := by
    rw [Application.serviceState, hservice, htables]
    rfl
  refine hs.of_inserted s' [] (hstate ▸ hs.service) hretry ?_ (by simp) ?_ hcalls hworker
  · rw [List.append_nil, Store.outgoing, htables]
    rfl
  · rw [htables]

/-- The row of the outbox that a row of the batch stands for. -/
theorem eq_current (hs : OutboxInvariant events s) {row other : OutgoingNotification}
    (hrow : row ∈ s.store.outgoing) (hother : other ∈ s.store.outgoing) (hid : other.id = row.id) :
    other = row :=
  List.inj_on_of_nodup_map hs.service.wellKeyed.ids_nodup hother hrow hid

/-- The worker books one open row, and goes on with the rest of its batch. -/
theorem of_updated (hs : OutboxInvariant events s) {stage : WorkerStage}
    {row : OutgoingNotification} {rest : List OutgoingNotification}
    {f : OutgoingNotification → OutgoingNotification} {next : Coroutine Unit}
    (hlinked : stage.Linked events s.store) (hrows : stage.rows = row :: rest)
    (hstage : WorkerStage.of (events ++ [event]) = .batch rest)
    (hnext : next.Meets (WorkerStage.protocol s.config.toSettings) (.batch rest) WorkerStage.Ends)
    (hservice : s'.service = s.service) (hworker : s'.worker = some next)
    (hcalls : s'.calls = s.calls)
    (htables : s'.store.tables = (s.store.updateOutgoing row.id f).tables)
    (hnotice : ∀ current : OutgoingNotification, current.SameNotice (f current))
    (hstatus : ∀ current, (f current).status ≠ .pending)
    (hretry : ∀ id, event.retryOf = some id → id = row.id)
    (hjust : ∀ current, row.SameNotice current → current.Justified events →
      (f current).Justified (events ++ [event])) :
    OutboxInvariant (events ++ [event]) s' ∧ s.store.Advances s'.store := by
  obtain ⟨current, hcurrent, hsame, hopen⟩ := hlinked.current row (hrows ▸ List.mem_cons_self)
  have hfalse (other : OutgoingNotification) (h : other.id ≠ row.id) :
      (if other.id = row.id then f other else other) = other := if_neg h
  have hmove (other : OutgoingNotification) :
      other.SameNotice (if other.id = row.id then f other else other) := by
    split
    · exact hnotice other
    · exact .refl other
  have houtgoing : s'.store.outgoing = (s.store.updateOutgoing row.id f).outgoing :=
    congrArg Tables.outgoing htables
  refine ⟨⟨⟨rfl, ?_, ?_⟩, hcalls ▸ hs.calls, ?_, ?_, ?_⟩, ?_⟩
  · -- the alert state is not touched
    have hstored : s'.serviceState.stored = s.serviceState.stored := by
      show AlertStateRepository.load s'.store.tables.alertState = _
      rw [htables]
      rfl
    rw [hstored]
    exact hs.service.wellFormed
  · show s'.store.tables.WellKeyed
    rw [htables]
    exact Store.wellKeyed_mapOutgoing hmove hs.service.wellKeyed
  · rintro worker hmem
    obtain rfl : next = worker := by rw [hworker] at hmem; exact Option.some.inj hmem
    rw [hstage]
    refine ⟨?_, ?_, ?_, fun note hnote => (nomatch hnote)⟩
    · have hconfig : s'.config = s.config := congrArg AlertService.config hservice
      rw [hconfig]
      exact hnext
    · have hnodup := hlinked.ids_nodup
      rw [hrows] at hnodup
      exact (List.nodup_cons.mp hnodup).2
    · -- the other rows of the batch have other ids
      intro other hother
      obtain ⟨old, hold, hsame', hopen'⟩ :=
        hlinked.current other (hrows ▸ List.mem_cons_of_mem _ hother)
      have hne : old.id ≠ row.id := by
        rw [hsame'.id_eq]
        intro heq
        have hnodup := hlinked.ids_nodup
        rw [hrows] at hnodup
        exact (List.nodup_cons.mp hnodup).1 (heq ▸ List.mem_map_of_mem hother)
      refine ⟨old, ?_, hsame', hopen'⟩
      rw [houtgoing]
      exact Store.mem_mapOutgoing.mpr ⟨old, hold, hfalse old hne⟩
  · intro row' hrow'
    rw [houtgoing] at hrow'
    obtain ⟨old, hold, rfl⟩ := Store.mem_mapOutgoing.mp hrow'
    -- the id tells the booked row from the others
    by_cases hid : old.id = row.id
    · obtain rfl : old = current := hs.eq_current hcurrent hold (hid.trans hsame.id_eq.symm)
      rw [if_pos hid]
      exact hjust old hsame (hs.justified old hold)
    · rw [if_neg hid]
      refine (hs.justified old hold).mono fun hsome => hid ?_
      exact hretry old.id hsome
  · intro id hid
    -- an update gives out no id
    have hsequence : s'.store.tables.outgoingSequence = s.store.tables.outgoingSequence := by
      rw [htables]
      rfl
    rw [hsequence]
    rw [List.filterMap_append] at hid
    rcases List.mem_append.mp hid with hold | hnew
    · exact hs.retried id hold
    · obtain ⟨e, he, hsome⟩ := List.mem_filterMap.mp hnew
      rw [List.mem_singleton.mp he] at hsome
      rw [hretry id hsome, ← hsame.id_eq]
      exact hs.service.wellKeyed.id_le current hcurrent
  · have hadvances : s.store.Advances (s.store.updateOutgoing row.id f) := by
      refine Store.Advances.map fun other hother => ?_
      by_cases hid : other.id = row.id
      · rw [if_pos hid]
        obtain rfl : other = current := hs.eq_current hcurrent hother (hid.trans hsame.id_eq.symm)
        exact ⟨hnotice other, Or.inr ⟨hopen, hstatus other⟩⟩
      · rw [if_neg hid]
        exact .refl other
    exact ⟨houtgoing ▸ hadvances.kept, houtgoing ▸ hadvances.added⟩

/-- The worker asks a question that is no operation of the database. -/
theorem workerAsked_other (hs : OutboxInvariant events s) {question : Await}
    {next : question.Reply → Coroutine Unit} {reply : question.Reply} {world' : World}
    {stage : WorkerStage} (hof : WorkerStage.of events = stage)
    (hquestion : ∀ op, question ≠ .store op)
    (hmeets : (Program.ask question next).Meets (WorkerStage.protocol s.config.toSettings) stage
      WorkerStage.Ends)
    (hlinked : stage.Linked events s.store) (hserves : s.world.Serves question reply world') :
    OutboxInvariant (events ++ [.workerAsked question reply])
        { s with world := world', worker := some (next reply) } ∧
      s.store.Advances world'.store := by
  have hstore := hserves.store_eq hquestion
  refine hs.of_tables { s with world := world', worker := some (next reply) } rfl
    (congrArg Store.tables hstore) ?_ hs.calls ?_
  · cases question with
    | store op => exact absurd rfl (hquestion op)
    | _ => rfl
  · rintro worker hworker
    obtain rfl := Option.some.inj hworker
    rw [WorkerStage.of_append, hof]
    refine ⟨hmeets.2 reply _ rfl, ?_⟩
    show (stage.after question reply).Linked _ world'.store
    rw [hstore]
    -- only a note may change what the stage rests on
    cases question with
    | store op => exact absurd rfl (hquestion op)
    | note asked =>
        obtain ⟨hrows, hnote⟩ := WorkerStage.after_note hmeets.1
        refine hlinked.of_rows hrows fun note hmem => Or.inr ?_
        rw [hnote note hmem]
    | post text =>
        obtain ⟨hrows, hnote⟩ := WorkerStage.after_post reply hmeets.1
        exact hlinked.of_rows hrows fun note hmem => by rw [hnote] at hmem; cases hmem
    | _ =>
        rw [WorkerStage.after_of_isQuiet rfl]
        exact hlinked.of_rows rfl fun note hmem => Or.inl hmem

/-- The rows that are due make a batch. -/
theorem linked_due (hs : OutboxInvariant events s) (now : ℤ) :
    (WorkerStage.batch (s.store.dueNotifications now)).Linked (events ++ [event]) s.store where
  ids_nodup := by
    have hsublist : (s.store.dueNotifications now).Sublist s.store.outgoing :=
      (List.take_sublist _ _).trans List.filter_sublist
    exact hs.service.wellKeyed.ids_nodup.sublist (hsublist.map _)
  current row hrow := by
    obtain ⟨hmem, hdue⟩ := List.mem_filter.mp (List.mem_of_mem_take hrow)
    exact ⟨row, hmem, .refl row, (Bool.and_eq_true_iff.mp hdue).1⟩
  noted note hnote := nomatch hnote

/-- The worker expires rows before it has a batch. -/
theorem expired (hs : OutboxInvariant events s) {alertMaxAge listingMaxAge now : ℤ} {count : ℕ}
    {world' : World} {next : Coroutine Unit}
    (hof : WorkerStage.of (events ++ [event]) = .idle)
    (hnext : next.Meets (WorkerStage.protocol s.config.toSettings) .idle WorkerStage.Ends)
    (hstore : world'.store = s.store.expireNotifications alertMaxAge listingMaxAge now)
    (hevent : event =
      .workerAsked (.store (.expireNotifications alertMaxAge listingMaxAge now)) (.ok count)) :
    OutboxInvariant (events ++ [event]) { s with world := world', worker := some next } ∧
      s.store.Advances world'.store := by
  have hretry (id : ℕ) : event.retryOf ≠ some id := by rw [hevent]; exact fun h => nomatch h
  have hnotice (row : OutgoingNotification) : row.SameNotice
      (if row.expires alertMaxAge listingMaxAge now then
        { row with status := .dead, error := some "expired" } else row) := by
    split
    · exact ⟨rfl, rfl, rfl, rfl, rfl, rfl, rfl⟩
    · exact .refl row
  refine ⟨⟨⟨rfl, ?_, ?_⟩, hs.calls, ?_, ?_, ?_⟩, ?_⟩
  · show (AlertStateRepository.load world'.store.tables.alertState).WellFormed
    rw [hstore]
    exact hs.service.wellFormed
  · show world'.store.tables.WellKeyed
    rw [hstore]
    exact Store.wellKeyed_mapOutgoing hnotice hs.service.wellKeyed
  · rintro worker hworker
    obtain rfl := Option.some.inj hworker
    rw [hof]
    exact ⟨hnext, WorkerStage.linked_nil rfl rfl⟩
  · intro row' hrow'
    change row' ∈ world'.store.outgoing at hrow'
    rw [hstore] at hrow'
    obtain ⟨row, hrow, rfl⟩ := Store.mem_mapOutgoing.mp hrow'
    have hkept := (hs.justified row hrow).mono (hretry row.id)
    split
    · -- the expiry in the history is the reason of its status
      rename_i hexpires
      refine ⟨fun h => (nomatch h), fun _ => Or.inr ?_, hkept.attempts⟩
      refine ⟨alertMaxAge, listingMaxAge, now, count, ?_, ?_⟩
      · rw [hevent]
        exact List.mem_append_right _ (List.mem_singleton_self _)
      · have hage := (Bool.and_eq_true_iff.mp hexpires).2
        show row.createdAt < now - ite _ _ _
        split_ifs with hkind
        · rw [if_pos hkind] at hage
          exact of_decide_eq_true hage
        · rw [if_neg hkind] at hage
          exact of_decide_eq_true hage
    · exact hkept
  · intro id hid
    show id ≤ world'.store.tables.outgoingSequence
    rw [hstore]
    rw [List.filterMap_append] at hid
    rcases List.mem_append.mp hid with hold | hnew
    · exact hs.retried id hold
    · obtain ⟨e, he, hsome⟩ := List.mem_filterMap.mp hnew
      rw [List.mem_singleton.mp he] at hsome
      exact absurd hsome (hretry id)
  · rw [hstore]
    refine Store.Advances.map fun row _ => ⟨hnotice row, ?_⟩
    split
    · rename_i hexpires
      exact Or.inr ⟨(Bool.and_eq_true_iff.mp hexpires).1, by simp⟩
    · exact Or.inl rfl

/-- The worker asks an operation of the database. -/
theorem workerAsked_store (hs : OutboxInvariant events s) {op : StoreOp}
    {next : Except PyExc op.Result → Coroutine Unit} {reply : Except PyExc op.Result}
    {world' : World} {stage : WorkerStage} (hof : WorkerStage.of events = stage)
    (hmeets : (Program.ask (.store op) next).Meets (WorkerStage.protocol s.config.toSettings) stage
      WorkerStage.Ends)
    (hlinked : stage.Linked events s.store) (hserves : s.world.Serves (.store op) reply world') :
    OutboxInvariant (events ++ [.workerAsked (.store op) reply])
        { s with world := world', worker := some (next reply) } ∧
      s.store.Advances world'.store := by
  have hoperates := WorkerStage.operates_of_allows hmeets.1
  have hnext := hmeets.2 reply _ rfl
  have hstage : WorkerStage.of (events ++ [.workerAsked (.store op) reply]) =
      stage.after (.store op) reply := by
    rw [WorkerStage.of_append, hof]
    rfl
  rcases hserves.does with ⟨exc, rfl, rfl⟩ | ⟨result, rfl, hdoes, -⟩
  · -- an operation that raises changes nothing
    refine hs.of_tables { s with worker := some (next (.error exc)) } rfl rfl
      (by cases op <;> rfl) hs.calls ?_
    rintro worker hworker
    obtain rfl := Option.some.inj hworker
    rw [hstage]
    refine ⟨hnext, ?_⟩
    rcases hoperates.after_error exc with hsame | hended
    · rw [hsame]
      exact hlinked.of_kept fun _ h => h
    · rw [hended]
      exact WorkerStage.linked_nil rfl rfl
  · cases hoperates with
    | expire halert hlisting => exact hs.expired hstage hnext hdoes rfl
    | @query now =>
        obtain ⟨rfl, hstore⟩ := hdoes
        refine hs.of_tables { s with world := world', worker := some (next (.ok _)) } rfl
          (congrArg Store.tables hstore) rfl hs.calls ?_
        rintro worker hworker
        obtain rfl := Option.some.inj hworker
        rw [hstage]
        refine ⟨hnext, ?_⟩
        show WorkerStage.Linked _ _ world'.store
        rw [hstore]
        exact hs.linked_due now
    | confirm hkey =>
        refine hs.of_updated hlinked rfl hstage hnext rfl rfl rfl (congrArg Store.tables hdoes)
          (fun _ => ⟨rfl, rfl, rfl, rfl, rfl, rfl, rfl⟩) (fun _ => by simp) (fun id h => nomatch h)
          fun current hsame hjust => ?_
        exact hjust.of_sent hsame (hlinked.noted _ rfl) (fun h => nomatch h)
    | @confirmListing row rest eventKey now hkey =>
        -- the flag of the listing event is in another table
        have htables : world'.store.tables = (s.store.updateOutgoing row.id fun current =>
            { current with status := .sent, sentAt := some now }).tables := by
          rw [show world'.store = (s.store.markNotificationSent row.id now).markListingSent eventKey
            from hdoes]
          rfl
        refine hs.of_updated hlinked rfl hstage hnext rfl rfl rfl htables
          (fun _ => ⟨rfl, rfl, rfl, rfl, rfl, rfl, rfl⟩) (fun _ => by simp) (fun id h => nomatch h)
          fun current hsame hjust => ?_
        exact hjust.of_sent hsame (hlinked.noted _ rfl) (fun h => nomatch h)
    | @bury row accepted rest error =>
        refine hs.of_updated hlinked rfl hstage hnext rfl rfl rfl (congrArg Store.tables hdoes)
          (fun _ => ⟨rfl, rfl, rfl, rfl, rfl, rfl, rfl⟩) (fun _ => by simp) (fun id h => nomatch h)
          fun current hsame hjust => ?_
        have hkept : current.Justified (events ++ [.workerAsked
            (.store (.markNotificationDead row.id error)) (.ok result)]) :=
          hjust.mono fun h => (nomatch h)
        refine ⟨fun h => (nomatch h), fun _ => Or.inl ?_, hkept.attempts⟩
        show Noted _ (.refused current.id)
        rw [hsame.id_eq]
        exact (hlinked.noted _ rfl).mono _
    | @reschedule row accepted rest error nextAttemptAt now =>
        refine hs.of_updated hlinked rfl hstage hnext rfl rfl rfl (congrArg Store.tables hdoes)
          (fun _ => ⟨rfl, rfl, rfl, rfl, rfl, rfl, rfl⟩) (fun _ => by simp)
          (fun id h => (Option.some.inj h).symm) fun current hsame hjust => ?_
        refine ⟨fun h => (nomatch h), fun h => (nomatch h), ?_⟩
        -- the step records one more failed attempt of this row
        have hretry : (AppEvent.workerAsked (.store (.markNotificationRetry row.id error
            nextAttemptAt now)) (.ok result)).retryOf = some current.id :=
          congrArg some hsame.id_eq.symm
        show current.attemptCount + 1 = transientFailures current.id _
        rw [transientFailures_append, if_pos hretry, hjust.attempts]

/-- A step that leaves the worker and keeps the rows leaves the batch linked. -/
theorem worker_kept (hs : OutboxInvariant events s) (hworker : s'.worker = s.worker)
    (hstage : event.stageAfter (.of events) = .of events) (hconfig : s'.config = s.config)
    (hkept : ∀ row ∈ s.store.outgoing, row ∈ s'.store.outgoing) :
    WorkerLinked (events ++ [event]) s' := by
  intro worker hmem
  obtain ⟨hmeets, hlinked⟩ := hs.worker worker (hworker ▸ hmem)
  rw [WorkerStage.of_append, hstage]
  exact ⟨hconfig ▸ hmeets, hlinked.of_kept hkept⟩

/-- A worker that begins its loop body has no rows. -/
theorem worker_idle (hworker : ∀ worker ∈ s'.worker,
      worker = AlertDispatcher.loopBody s'.config.toSettings)
    (hstage : event.stageAfter (.of events) = .idle) : WorkerLinked (events ++ [event]) s' := by
  intro worker hmem
  rw [hworker worker hmem, WorkerStage.of_append, hstage]
  exact ⟨AlertDispatcher.loopBody_meets _, WorkerStage.linked_nil rfl rfl⟩

/-- A restart keeps the committed tables and begins with an empty batch. -/
theorem restarted (hs : OutboxInvariant events s) (config : AdmittedSettings) :
    OutboxInvariant (events ++ [.restarted config]) (Application.start config s.store s.begun) ∧
      s.store.Advances (Application.start config s.store s.begun).store := by
  refine hs.of_inserted _ [] ⟨rfl, hs.service.wellFormed, hs.service.wellKeyed⟩ rfl
    (List.append_nil _).symm (by simp) le_rfl (by simp [Application.start]) ?_
  exact worker_idle (fun worker hworker => (Option.some.inj hworker).symm) rfl

/-- An alert cycle adds rows that are new. -/
theorem added_of_cycle (hs : OutboxInvariant events s) {call : Call} {reply : Reply}
    {s₁ : ServiceState} (hcycle : ServiceStep s.serviceState (.process call, reply) s₁) :
    s₁.service.config = s.config ∧ ∃ added, s₁.tables.outgoing = s.store.outgoing ++ added ∧
      (∀ row ∈ added, row.status = .pending ∧ row.attemptCount = 0 ∧
        s.store.tables.outgoingSequence < row.id) ∧
      s.store.tables.outgoingSequence ≤ s₁.tables.outgoingSequence := by
  have hmove := hcycle.move hs.service
  cases hmove with
  | @committed call decision state alert tables' fed hplan hcommits =>
      refine ⟨rfl, _, hcommits.outgoing_eq, fun row hrow => ?_, ?_⟩
      · obtain ⟨a, -, rfl⟩ := List.mem_map.mp hrow
        exact ⟨rfl, rfl, Nat.lt_succ_self _⟩
      · show _ ≤ tables'.outgoingSequence
        rw [hcommits.sequence_eq]
        exact Nat.le_add_right _ _
  | _ => exact ⟨rfl, [], (List.append_nil _).symm, by simp, le_rfl⟩

/-- An alert cycle inserts at most one row. -/
theorem cycled (hs : OutboxInvariant events s) {call : Call} {reply : Reply} {s₁ : ServiceState}
    (hcycle : ServiceStep s.serviceState (.process call, reply) s₁) :
    OutboxInvariant (events ++ [.cycled call reply]) (s.withService s₁) ∧
      s.store.Advances (s.withService s₁).store := by
  have hservice := hs.service.step hcycle
  have hstate : (s.withService s₁).serviceState = s₁ := by
    obtain ⟨service, committed, working⟩ := s₁
    obtain rfl : working = none := hservice.closed
    rfl
  obtain ⟨hconfig, added, houtgoing, hadded, hsequence⟩ := hs.added_of_cycle hcycle
  refine hs.of_inserted _ _ (hstate.symm ▸ hservice) rfl houtgoing hadded hsequence hs.calls ?_
  refine hs.worker_kept rfl rfl hconfig fun row hrow => ?_
  show row ∈ s₁.tables.outgoing
  rw [houtgoing]
  exact List.mem_append_left _ hrow

/-- A call asks a question: it inserts a row or leaves the outbox as it is. -/
theorem callAsked (hs : OutboxInvariant events s) {number : ℕ} {calls : List (ℕ × Coroutine Unit)}
    {question : Await} {reply : question.Reply} {world' : World} (hallows : callAllows question)
    (hcalls : ∀ call ∈ calls, call.2.Asks callAllows)
    (hserves : s.world.Serves question reply world') :
    OutboxInvariant (events ++ [.callAsked number question reply])
        { s with world := world', calls := calls } ∧
      s.store.Advances world'.store := by
  have htables (h : world'.store.tables = s.store.tables) :
      OutboxInvariant (events ++ [.callAsked number question reply])
          { s with world := world', calls := calls } ∧
        s.store.Advances world'.store := by
    refine hs.of_tables { s with world := world', calls := calls } rfl h rfl hcalls ?_
    refine hs.worker_kept rfl rfl rfl fun row hrow => ?_
    show row ∈ world'.store.tables.outgoing
    rwa [h]
  cases question with
  | store op =>
      rcases hserves.does with ⟨exc, -, rfl⟩ | ⟨result, -, hdoes, -⟩
      · exact htables rfl
      · -- of the operations of a call only an insert touches the outbox
        rcases hdoes.outbox hallows with hsame | ⟨draft, hfresh, hstore⟩
        · exact htables hsame
        · have hkeyed : (s.store.insertOutgoing draft).tables.WellKeyed :=
            hs.service.wellKeyed.insert hfresh
          refine hs.of_inserted { s with world := world', calls := calls } _ ⟨rfl, ?_, ?_⟩ rfl
            (congrArg Store.outgoing hstore) ?_ ?_ hcalls ?_
          · show (AlertStateRepository.load world'.store.tables.alertState).WellFormed
            rw [hstore]
            exact hs.service.wellFormed
          · show world'.store.tables.WellKeyed
            rw [hstore]
            exact hkeyed
          · intro row hrow
            rw [List.mem_singleton.mp hrow]
            exact ⟨rfl, rfl, Nat.lt_succ_self _⟩
          · show _ ≤ world'.store.tables.outgoingSequence
            rw [hstore]
            exact Nat.le_succ _
          · refine hs.worker_kept rfl rfl rfl fun row hrow => ?_
            show row ∈ world'.store.outgoing
            rw [hstore]
            exact List.mem_append_left _ hrow
  | _ => exact htables (congrArg Store.tables (hserves.store_eq fun op => nofun))

/-- One step keeps the invariant and lets the rows of the outbox move on. -/
theorem step (hs : OutboxInvariant events s) (h : AppStep s event s') :
    OutboxInvariant (events ++ [event]) s' ∧ s.store.Advances s'.store := by
  -- a step that asks nothing leaves the tables
  have hkept (calls : List (ℕ × Coroutine Unit)) (begun : ℕ) (stopping : Bool)
      (hretry : event.retryOf = none) (hstage : event.stageAfter (.of events) = .of events)
      (hcalls : ∀ call ∈ calls, call.2.Asks callAllows) :=
    let next : Application :=
      { s with world := { s.world with stopping }, calls := calls, begun := begun }
    hs.of_tables next rfl rfl hretry hcalls (hs.worker_kept rfl hstage rfl fun _ hrow => hrow)
  cases h with
  | restarted config => exact hs.restarted config
  | cycled hcycle => exact hs.cycled hcycle
  | began entry =>
      refine hkept _ _ s.world.stopping rfl rfl fun call hcall => ?_
      rcases List.mem_append.mp hcall with hold | hnew
      · exact hs.calls call hold
      · rw [List.mem_singleton.mp hnew]
        exact entry.asks s.tracker
  | @workerAsked question next reply world' hworker hserves =>
      obtain ⟨hmeets, hlinked⟩ := hs.worker _ hworker
      cases question with
      | store op => exact hs.workerAsked_store rfl hmeets hlinked hserves
      | _ => exact hs.workerAsked_other rfl (fun op => nofun) hmeets hlinked hserves
  | callAsked hcalls hserves =>
      have hasks := hs.calls _ (hcalls ▸ List.mem_append_cons_self)
      refine hs.callAsked hasks.1 (fun call hcall => ?_) hserves
      rcases mem_middle.mp hcall with rfl | hother
      · exact hasks.2 _
      · exact hs.calls call (hcalls ▸ mem_middle.mpr (Or.inr hother))
  | callEnded hcalls =>
      refine hkept _ s.begun s.world.stopping rfl rfl fun call hcall => hs.calls call ?_
      exact hcalls ▸ mem_middle.mpr (Or.inr hcall)
  | looped hworker =>
      refine hs.of_tables _ rfl rfl rfl hs.calls (worker_idle (fun worker hmem => ?_) rfl)
      change worker ∈ (ite _ _ _ : Option (Coroutine Unit)) at hmem
      split at hmem
      · cases hmem
      · exact (Option.some.inj hmem).symm
  | stopRequested => exact hkept s.calls s.begun true rfl rfl hs.calls

/-- The invariant holds at the start. -/
theorem start (config : AdmittedSettings) :
    OutboxInvariant [] (Application.start config {} 0) where
  service := ServiceInvariant.start config
  calls := by simp [Application.start]
  worker worker hworker := by
    obtain rfl := Option.some.inj hworker
    exact ⟨AlertDispatcher.loopBody_meets _, WorkerStage.linked_nil rfl rfl⟩
  justified row hrow := nomatch hrow
  retried id hid := nomatch hid

end OutboxInvariant

/-- Every run keeps the invariant. -/
theorem AppRun.outboxInvariant {config : AdmittedSettings} {events : List AppEvent}
    {s : Application} (h : AppRun config events s) : OutboxInvariant events s :=
  Trace.invariant (OutboxInvariant.start config) (fun _ _ _ _ _ hs hstep => (hs.step hstep).1) h

end BybitMonitor
