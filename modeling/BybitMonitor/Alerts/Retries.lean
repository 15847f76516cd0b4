import Mathlib
import BybitMonitor.Alerts.Pace

/-!
# The attempts of a row

A failed delivery puts off the next one, for longer each time, and a row that is too old is not
attempted any more. So a row can fail only so often.

* `Paced.step`: a row is put off by the delays of its failures.
* `attempts_bounded`: the attempts of a row, over every run.
-/

namespace BybitMonitor

/-! ## The delays -/

/-- `retry_delay_for(1) + ... + retry_delay_for(n)`. -/
def totalDelay : ℕ → ℤ
  | 0 => 0
  | n + 1 => totalDelay n + retryDelayFor (n + 1)

theorem le_totalDelay (n : ℕ) : (n : ℤ) ≤ totalDelay n := by
  induction n with
  | zero => exact le_rfl
  | succ n ih =>
      have hdelay := le_retryDelayFor (n + 1)
      rw [totalDelay]
      push_cast
      omega

/-- The number of attempts whose delays fit into an age. -/
def attemptLimit (maxAge : ℤ) : ℕ :=
  Nat.findGreatest (fun n => totalDelay n ≤ maxAge) maxAge.toNat + 1

theorem lt_attemptLimit {n : ℕ} {maxAge : ℤ} (h : totalDelay n ≤ maxAge) :
    n < attemptLimit maxAge := by
  -- every delay is a second at least
  have hn : n ≤ maxAge.toNat := by
    have hle := (le_totalDelay n).trans h
    omega
  exact Nat.lt_succ_of_le (Nat.le_findGreatest hn h)

/-! ## The invariant -/

/-- A row of the batch is as it was read, it was due, and its delays fit into its max age. -/
structure DueRow (events : List AppEvent) (s : Application) (row : OutgoingNotification) :
    Prop where
  mem : row ∈ s.store.outgoing
  listed : row ∈ (Pace.of events).rows
  reached : ∀ next ∈ row.nextAttemptAt, ∃ now ∈ workerReadings events, next ≤ now
  passed : ∀ next ∈ row.nextAttemptAt, ∀ now ∈ (Pace.of events).readings, next ≤ now
  bounded : 0 < row.attemptCount → row.Timely events → ∀ maxAge,
    s.config.maxAge row = .ok maxAge → totalDelay row.attemptCount ≤ maxAge

/-- A row that has failed is put off by the delays of its failures. -/
def OutgoingNotification.Spaced (row : OutgoingNotification) (events : List AppEvent) : Prop :=
  0 < row.attemptCount → row.Timely events →
    ∃ next ∈ row.nextAttemptAt, row.createdAt + totalDelay row.attemptCount ≤ next

/-- The rows that the worker may query are young enough, once it has expired the others. -/
def Young (events : List AppEvent) (s : Application) : Prop :=
  WorkerStage.of events = .idle → ∀ second ∈ (Pace.of events).expiry, ∀ row ∈ s.store.outgoing,
    row.status.isOpen = true → 0 < row.attemptCount → ∀ maxAge,
      s.config.maxAge row = .ok maxAge → second ≤ row.createdAt + maxAge

/-- The readings since the current delivery began are after an attempt of its row. -/
def Attempted (events : List AppEvent) : Prop :=
  ∀ row ∈ (WorkerStage.of events).current,
    (∃ event ∈ events, event.attemptOf = some row.id) ∧
      ∀ now ∈ (Pace.of events).readings, now ∈ readingsSince row.id events

/-- What holds of the pace of the worker after every run. -/
structure Paced (events : List AppEvent) (s : Application) : Prop where
  worker : ∀ worker ∈ s.worker, worker.Meets Pace.protocol (.of events) fun _ _ => True
  readings : ∀ now ∈ (Pace.of events).readings, now ∈ workerReadings events
  nodup : ((Pace.of events).rows.map OutgoingNotification.id).Nodup
  batch : ∀ row ∈ (WorkerStage.of events).rows, DueRow events s row
  attempted : Attempted events
  young : Young events s
  spaced : ∀ row ∈ s.store.outgoing, row.Spaced events

/-- A row as an earlier row, as far as its times and attempts go. -/
structure OutgoingNotification.SameTimes (row row' : OutgoingNotification) : Prop where
  id_eq : row'.id = row.id
  createdAt_eq : row'.createdAt = row.createdAt
  attemptCount_eq : row'.attemptCount = row.attemptCount
  nextAttemptAt_eq : row'.nextAttemptAt = row.nextAttemptAt

/-- A step other than one of the worker adds rows at most, and none of them has failed. -/
theorem AppStep.added {events : List AppEvent} {event : AppEvent} {s s' : Application}
    (hs : OutboxInvariant events s) (h : AppStep s event s')
    (hevent : ∀ question reply, event ≠ .workerAsked question reply) :
    ∃ added, s'.store.outgoing = s.store.outgoing ++ added ∧
      ∀ row ∈ added, row.attemptCount = 0 := by
  have hnone (h : s'.store.outgoing = s.store.outgoing) :
      ∃ added, s'.store.outgoing = s.store.outgoing ++ added ∧
        ∀ row ∈ added, row.attemptCount = 0 :=
    ⟨[], by rw [h, List.append_nil], fun row hrow => by cases hrow⟩
  cases h with
  | cycled hcycle =>
      obtain ⟨-, added, houtgoing, hadded, -⟩ := hs.added_of_cycle hcycle
      exact ⟨added, houtgoing, fun row hrow => (hadded row hrow).2.1⟩
  | workerAsked => exact absurd rfl (hevent _ _)
  | @callAsked number before rest question next reply world' hcalls hserves =>
      have hasks := hs.calls (number, Program.ask question next)
        (hcalls ▸ List.mem_append_cons_self)
      have hallows : callAllows question := hasks.1
      cases question with
      | store op =>
          -- a producer creates a row at most, and a new row has not failed
          rcases hserves.does with ⟨exc, -, rfl⟩ | ⟨result, -, hdoes, -⟩
          · exact hnone rfl
          · rcases hdoes.outbox hallows with hsame | ⟨draft, -, hstore⟩
            · exact hnone (congrArg Tables.outgoing hsame)
            · refine ⟨_, congrArg Store.outgoing hstore, fun row hrow => ?_⟩
              rw [List.mem_singleton.mp hrow]
              rfl
      | _ => exact hnone (congrArg Store.outgoing (hserves.store_eq fun op => nofun))
  | _ => exact hnone rfl

/-- A row that keeps its times stays spaced. -/
theorem OutgoingNotification.Spaced.of_same {row row' : OutgoingNotification}
    {events : List AppEvent} (h : row.Spaced events) (hsame : row.SameTimes row')
    (event : AppEvent) : row'.Spaced (events ++ [event]) := by
  intro hfailed htimely
  -- the attempts of both rows are the same, since they have one id
  have htimely' : row.Timely events := by
    have hearlier := htimely.of_append
    unfold Timely at hearlier
    rw [hsame.id_eq, hsame.createdAt_eq] at hearlier
    exact hearlier
  rw [hsame.attemptCount_eq] at hfailed
  obtain ⟨next, hnext, hle⟩ := h hfailed htimely'
  refine ⟨next, ?_, ?_⟩
  · rw [hsame.nextAttemptAt_eq]
    exact hnext
  · rw [hsame.createdAt_eq, hsame.attemptCount_eq]
    exact hle

namespace Paced

variable {events : List AppEvent} {event : AppEvent} {s s' : Application}

/-- A worker that begins its loop body has read nothing. -/
theorem begins (hs : Paced events s) (hstore : s'.store = s.store)
    (hworker : ∀ worker ∈ s'.worker, worker = AlertDispatcher.loopBody s'.config.toSettings)
    (hstage : WorkerStage.of (events ++ [event]) = .idle)
    (hpace : Pace.of (events ++ [event]) = {}) : Paced (events ++ [event]) s' where
  worker worker hmem := by
    rw [hworker worker hmem]
    exact AlertDispatcher.loopBody_paced _
  readings now hnow := by
    rw [hpace] at hnow
    cases hnow
  nodup := by
    rw [hpace]
    exact List.nodup_nil
  batch row hrow := by
    rw [hstage] at hrow
    cases hrow
  attempted row hrow := by
    rw [hstage] at hrow
    cases hrow
  young _ second hsecond := by
    rw [hpace] at hsecond
    cases hsecond
  spaced row hrow := (hs.spaced row (hstore ▸ hrow)).of_same ⟨rfl, rfl, rfl, rfl⟩ event

/-- A step that leaves the worker, and adds rows without failures. -/
theorem of_added (hs : Paced events s) (hworker : s'.worker = s.worker)
    (hconfig : s'.config = s.config) (hstage : event.stageAfter (.of events) = .of events)
    (hpace : event.paceAfter (.of events) = .of events) (hreading : event.reading = none)
    (hadded : ∃ added, s'.store.outgoing = s.store.outgoing ++ added ∧
      ∀ row ∈ added, row.attemptCount = 0) : Paced (events ++ [event]) s' := by
  obtain ⟨added, houtgoing, hnew⟩ := hadded
  have hold {row : OutgoingNotification} (hrow : row ∈ s'.store.outgoing)
      (hfailed : 0 < row.attemptCount) : row ∈ s.store.outgoing := by
    rw [houtgoing] at hrow
    -- the row has failed, so it is none of the added ones
    rcases List.mem_append.mp hrow with hmem | hadded
    · exact hmem
    · exact absurd (hnew row hadded) (Nat.ne_of_gt hfailed)
  have hreadings : workerReadings (events ++ [event]) = workerReadings events := by
    rw [workerReadings_append, hreading]
    exact List.append_nil _
  rw [← WorkerStage.of_append] at hstage
  rw [← Pace.of_append] at hpace
  refine ⟨?_, ?_, hpace ▸ hs.nodup, fun row hrow => ?_, fun row hrow => ?_, ?_, ?_⟩
  · rw [hworker, hpace]
    exact hs.worker
  · rw [hpace, hreadings]
    exact hs.readings
  · rw [hstage] at hrow
    have hdue := hs.batch row hrow
    refine ⟨?_, hpace ▸ hdue.listed, hreadings ▸ hdue.reached, hpace ▸ hdue.passed, ?_⟩
    · rw [houtgoing]
      exact List.mem_append_left _ hdue.mem
    · rw [hconfig]
      exact fun hfailed htimely => hdue.bounded hfailed htimely.of_append
  · rw [hstage] at hrow
    obtain ⟨⟨attempt, hmem, hattempt⟩, hsince⟩ := hs.attempted row hrow
    refine ⟨⟨attempt, List.mem_append_left _ hmem, hattempt⟩, fun now hnow => ?_⟩
    rw [hpace] at hnow
    exact mem_readingsSince_append (hsince now hnow)
  · -- the rows that were added have not failed, so they need not be young
    unfold Young
    rw [hstage, hpace, hconfig]
    exact fun hidle second hsecond row hrow hopen hfailed =>
      hs.young hidle second hsecond row (hold hrow hfailed) hopen hfailed
  · intro row hrow hfailed
    exact (hs.spaced row (hold hrow hfailed)).of_same ⟨rfl, rfl, rfl, rfl⟩ event hfailed

/-- A question of the worker that leaves the tables and the rows of the query. -/
theorem of_kept (hs : Paced events s) (htime : KeepsTime (events ++ [event]))
    {next : Coroutine Unit} (hworker : s'.worker = some next)
    (hnext : next.Meets Pace.protocol (.of (events ++ [event])) fun _ _ => True)
    (hstore : s'.store = s.store) (hconfig : s'.config = s.config)
    (hrows : ∀ row ∈ (WorkerStage.of (events ++ [event])).rows, row ∈ (WorkerStage.of events).rows)
    (hcurrent : ∀ row ∈ (WorkerStage.of (events ++ [event])).current,
      row ∈ (WorkerStage.of events).current ∨ event.attemptOf = some row.id)
    (hidle : WorkerStage.of (events ++ [event]) = .idle → WorkerStage.of events = .idle)
    (hlisted : (Pace.of (events ++ [event])).rows = (Pace.of events).rows)
    (hexpiry : (Pace.of (events ++ [event])).expiry = (Pace.of events).expiry)
    (hreadings : ∀ now ∈ (Pace.of (events ++ [event])).readings,
      now ∈ (Pace.of events).readings ∨ event.reading = some now)
    (hfresh : event.attemptOf ≠ none → (Pace.of (events ++ [event])).readings = []) :
    Paced (events ++ [event]) s' := by
  refine ⟨?_, fun now hnow => ?_, hlisted ▸ hs.nodup, fun row hrow => ?_, fun row hrow => ?_, ?_,
    ?_⟩
  · rintro worker hmem
    rw [hworker] at hmem
    obtain rfl := Option.some.inj hmem
    exact hnext
  · rw [workerReadings_append]
    rcases hreadings now hnow with hold | hnew
    · exact List.mem_append_left _ (hs.readings now hold)
    · rw [hnew]
      exact List.mem_append_right _ (List.mem_singleton_self now)
  · have hdue := hs.batch row (hrows row hrow)
    refine ⟨hstore ▸ hdue.mem, hlisted ▸ hdue.listed, fun next hnext => ?_,
      fun next hnext now hnow => ?_, ?_⟩
    · obtain ⟨now, hmem, hle⟩ := hdue.reached next hnext
      rw [workerReadings_append]
      exact ⟨now, List.mem_append_left _ hmem, hle⟩
    · rcases hreadings now hnow with hold | hnew
      · exact hdue.passed next hnext now hold
      · -- a reading that the row was due at came before
        obtain ⟨earlier, hmem, hle⟩ := hdue.reached next hnext
        exact hle.trans (htime.le_reading hnew hmem)
    · rw [hconfig]
      exact fun hfailed htimely => hdue.bounded hfailed htimely.of_append
  · -- either the delivery goes on, or it begins with this step
    rcases hcurrent row hrow with hold | hbegins
    · obtain ⟨hattempt, hsince⟩ := hs.attempted row hold
      refine ⟨?_, fun now hnow => ?_⟩
      · obtain ⟨attempt, hmem, hid⟩ := hattempt
        exact ⟨attempt, List.mem_append_left _ hmem, hid⟩
      · rcases hreadings now hnow with hearlier | hnew
        · exact mem_readingsSince_append (hsince now hearlier)
        · exact mem_readingsSince_of_reading hattempt hnew
    · refine ⟨⟨event, List.mem_append_right _ (List.mem_singleton_self _), hbegins⟩, ?_⟩
      rw [hfresh (by rw [hbegins]; exact Option.some_ne_none _)]
      exact fun now hnow => by cases hnow
  · unfold Young
    rw [hexpiry, hstore, hconfig]
    exact fun h => hs.young (hidle h)
  · exact fun row hrow => (hs.spaced row (hstore ▸ hrow)).of_same ⟨rfl, rfl, rfl, rfl⟩ event

/-- The worker books one row, and goes on with the rest of its batch. -/
theorem of_updated (hs : Paced events s) (ho : OutboxInvariant events s)
    {row : OutgoingNotification} {rest : List OutgoingNotification}
    {f : OutgoingNotification → OutgoingNotification} {next : Coroutine Unit}
    (hlinked : (WorkerStage.of events).Linked events s.store)
    (hrows : (WorkerStage.of events).rows = row :: rest)
    (hstage : WorkerStage.of (events ++ [event]) = .batch rest)
    (hpace : Pace.of (events ++ [event]) = Pace.of events) (hreading : event.reading = none)
    (hworker : s'.worker = some next)
    (hnext : next.Meets Pace.protocol (.of (events ++ [event])) fun _ _ => True)
    (hconfig : s'.config = s.config)
    (houtgoing : s'.store.outgoing = (s.store.updateOutgoing row.id f).outgoing)
    (hspaced : (f row).Spaced (events ++ [event])) : Paced (events ++ [event]) s' := by
  have hreadings : workerReadings (events ++ [event]) = workerReadings events := by
    rw [workerReadings_append, hreading]
    exact List.append_nil _
  have hrow := hs.batch row (hrows ▸ List.mem_cons_self)
  refine ⟨?_, ?_, hpace ▸ hs.nodup, fun other hother => ?_, fun other hother => ?_,
    fun hidle => ?_, ?_⟩
  · rintro worker hmem
    rw [hworker] at hmem
    obtain rfl := Option.some.inj hmem
    exact hnext
  · rw [hpace, hreadings]
    exact hs.readings
  · rw [hstage] at hother
    have hdue := hs.batch other (hrows ▸ List.mem_cons_of_mem _ hother)
    -- the other rows of the batch have other ids
    have hne : other.id ≠ row.id := by
      intro heq
      have hnodup := hlinked.ids_nodup
      rw [hrows] at hnodup
      exact (List.nodup_cons.mp hnodup).1 (heq ▸ List.mem_map_of_mem hother)
    refine ⟨?_, hpace ▸ hdue.listed, hreadings ▸ hdue.reached, hpace ▸ hdue.passed, ?_⟩
    · rw [houtgoing]
      exact Store.mem_mapOutgoing.mpr ⟨other, hdue.mem, if_neg hne⟩
    · rw [hconfig]
      exact fun hfailed htimely => hdue.bounded hfailed htimely.of_append
  · rw [hstage] at hother
    cases hother
  · rw [hstage] at hidle
    cases hidle
  · intro row' hrow'
    rw [houtgoing] at hrow'
    obtain ⟨old, hold, rfl⟩ := Store.mem_mapOutgoing.mp hrow'
    -- the booked row is spaced as its update says, the others as before
    by_cases hid : old.id = row.id
    · obtain rfl : old = row := ho.eq_current hrow.mem hold hid
      rw [if_pos rfl]
      exact hspaced
    · rw [if_neg hid]
      exact (hs.spaced old hold).of_same ⟨rfl, rfl, rfl, rfl⟩ event

/-- The worker expires the rows that are too old. -/
theorem expired (hs : Paced events s) {alertMaxAge listingMaxAge now : ℤ} {count : ℕ}
    {next : Coroutine Unit} (halert : s.config.notificationMaxAgeSeconds.toInt = .ok alertMaxAge)
    (hlisting : s.config.listingNotificationMaxAgeSeconds.toInt = .ok listingMaxAge)
    (hevent : event =
      .workerAsked (.store (.expireNotifications alertMaxAge listingMaxAge now)) (.ok count))
    (hstage : WorkerStage.of (events ++ [event]) = .idle) (hworker : s'.worker = some next)
    (hnext : next.Meets Pace.protocol (.of (events ++ [event])) fun _ _ => True)
    (hstore : s'.store = s.store.expireNotifications alertMaxAge listingMaxAge now)
    (hconfig : s'.config = s.config) : Paced (events ++ [event]) s' := by
  have hpace : Pace.of (events ++ [event]) = { Pace.of events with expiry := some now } := by
    rw [Pace.of_append, hevent]
    rfl
  have hreadings : workerReadings (events ++ [event]) = workerReadings events := by
    rw [workerReadings_append, hevent]
    exact List.append_nil _
  refine ⟨?_, ?_, by rw [hpace]; exact hs.nodup, fun row hrow => ?_, fun row hrow => ?_, ?_, ?_⟩
  · rintro worker hmem
    rw [hworker] at hmem
    obtain rfl := Option.some.inj hmem
    exact hnext
  · rw [hpace, hreadings]
    exact hs.readings
  · rw [hstage] at hrow
    cases hrow
  · rw [hstage] at hrow
    cases hrow
  · -- the rows that are left open were young enough for the second of the expiry
    intro _ second hsecond row hrow hopen _ maxAge hmaxAge
    rw [hpace] at hsecond
    obtain rfl : now = second := Option.some.inj hsecond
    rw [hstore] at hrow
    rw [hconfig] at hmaxAge
    obtain ⟨old, -, rfl⟩ := Store.mem_mapOutgoing.mp hrow
    split at hopen
    · cases hopen
    · rename_i hkept
      rw [if_neg hkept] at hmaxAge ⊢
      -- an open row that was kept is not too old for its kind
      unfold OutgoingNotification.expires at hkept
      unfold Settings.maxAge at hmaxAge
      rw [hopen, Bool.true_and] at hkept
      split_ifs at hkept hmaxAge
      · cases hlisting.symm.trans hmaxAge
        rw [decide_eq_true_eq] at hkept
        omega
      · cases halert.symm.trans hmaxAge
        rw [decide_eq_true_eq] at hkept
        omega
  · intro row' hrow'
    rw [hstore] at hrow'
    obtain ⟨row, hrow, rfl⟩ := Store.mem_mapOutgoing.mp hrow'
    refine (hs.spaced row hrow).of_same ?_ event
    split <;> exact ⟨rfl, rfl, rfl, rfl⟩

/-- The rows that are due make a batch. -/
theorem queried (hs : Paced events s) (ho : OutboxInvariant events s)
    (htime : KeepsTime (events ++ [event])) {now : ℤ} {next : Coroutine Unit}
    (hallows : (Pace.of events).Allows (.store (.dueNotifications now)))
    (hidle : WorkerStage.of events = .idle)
    (hevent : event = .workerAsked (.store (.dueNotifications now))
      (.ok (s.store.dueNotifications now)))
    (hworker : s'.worker = some next)
    (hnext : next.Meets Pace.protocol (.of (events ++ [event])) fun _ _ => True)
    (hstore : s'.store = s.store) (hconfig : s'.config = s.config) :
    Paced (events ++ [event]) s' := by
  have hpace : Pace.of (events ++ [event]) = { rows := s.store.dueNotifications now } := by
    rw [Pace.of_append, hevent]
    rfl
  have hstage : WorkerStage.of (events ++ [event]) = .batch (s.store.dueNotifications now) := by
    rw [WorkerStage.of_append, hidle, hevent]
    rfl
  have hreadings : workerReadings (events ++ [event]) = workerReadings events := by
    rw [workerReadings_append, hevent]
    exact List.append_nil _
  obtain ⟨hexpiry, hnow⟩ := hallows
  obtain ⟨second, hsecond⟩ := Option.isSome_iff_exists.mp hexpiry
  -- the query reads the second of the expiry
  obtain rfl : second = now :=
    (Trace.everyLabel_snoc.mp htime.sameSecond).2 now (by rw [hevent]; rfl) second hsecond
  refine ⟨?_, ?_, ?_, fun row hrow => ?_, fun row hrow => ?_, fun h => ?_, ?_⟩
  · rintro worker hmem
    rw [hworker] at hmem
    obtain rfl := Option.some.inj hmem
    exact hnext
  · rw [hpace]
    exact fun now hnow => by cases hnow
  · rw [hpace]
    exact (@ho.linked_due events event s second).ids_nodup
  · rw [hstage] at hrow
    obtain ⟨hmem, hdue⟩ := List.mem_filter.mp (List.mem_of_mem_take hrow)
    obtain ⟨hopen, hall⟩ := Bool.and_eq_true_iff.mp hdue
    have hreached (next : ℤ) (hnext : next ∈ row.nextAttemptAt) : next ≤ second :=
      of_decide_eq_true ((Option.all_eq_true _ _).mp hall next hnext)
    refine ⟨hstore ▸ hmem, ?_, fun next hnext => ?_, ?_, ?_⟩
    · rw [hpace]
      exact hrow
    · rw [hreadings]
      exact ⟨second, hs.readings second hnow, hreached next hnext⟩
    · rw [hpace]
      exact fun _ _ now hnow => by cases hnow
    · intro hfailed htimely maxAge hmaxAge
      rw [hconfig] at hmaxAge
      -- the delays have passed since the row was created, and it is young enough
      obtain ⟨next, hnext, hle⟩ := hs.spaced row hmem hfailed htimely.of_append
      have hyoung := hs.young hidle second hsecond row hmem hopen hfailed maxAge hmaxAge
      have hdue := hreached next hnext
      omega
  · rw [hstage] at hrow
    cases hrow
  · rw [hstage] at h
    cases h
  · exact fun row hrow => (hs.spaced row (hstore ▸ hrow)).of_same ⟨rfl, rfl, rfl, rfl⟩ event

/-- A failed row is put off by one more delay. -/
theorem putOff (hs : Paced events s) {row : OutgoingNotification} {nextAttemptAt : ℤ}
    (hrow : DueRow events s row) (hcurrent : row ∈ (WorkerStage.of events).current)
    (htimely : row.Timely events)
    (hallows : ∃ listed ∈ (Pace.of events).rows, listed.id = row.id ∧
      ∃ now ∈ (Pace.of events).readings,
        now + retryDelayFor (listed.attemptCount + 1) ≤ nextAttemptAt) :
    row.createdAt + totalDelay (row.attemptCount + 1) ≤ nextAttemptAt := by
  obtain ⟨listed, hlisted, hid, now, hnow, hle⟩ := hallows
  obtain rfl : listed = row := List.inj_on_of_nodup_map hs.nodup hlisted hrow.listed hid
  -- the failure was recorded when the earlier delays had passed
  have hpassed : listed.createdAt + totalDelay listed.attemptCount ≤ now := by
    rcases Nat.eq_zero_or_pos listed.attemptCount with hfirst | hfailed
    · rw [hfirst, totalDelay, add_zero]
      exact htimely now ((hs.attempted listed hcurrent).2 now hnow)
    · obtain ⟨next, hnext, hspaced⟩ := hs.spaced listed hrow.mem hfailed htimely
      exact hspaced.trans (hrow.passed next hnext now hnow)
  rw [totalDelay]
  omega

/-- The worker asks a question that is no operation of the database. -/
theorem workerAsked_other (hs : Paced events s) (ho : OutboxInvariant events s)
    {question : Await} {next : question.Reply → Coroutine Unit} {reply : question.Reply}
    {world' : World} (htime : KeepsTime (events ++ [.workerAsked question reply]))
    (hworker : s.worker = some (Program.ask question next))
    (hquestion : ∀ op, question ≠ .store op) (hserves : s.world.Serves question reply world') :
    Paced (events ++ [.workerAsked question reply])
      { s with world := world', worker := some (next reply) } := by
  have hallows := (ho.worker _ hworker).1.1
  have hnext := (hs.worker _ hworker).2 reply _ rfl
  have hstore : world'.store = s.store := hserves.store_eq hquestion
  have hstage : WorkerStage.of (events ++ [.workerAsked question reply]) =
      (WorkerStage.of events).after question reply := WorkerStage.of_append _ _
  have hpace : Pace.of (events ++ [.workerAsked question reply]) =
      (Pace.of events).after question reply := Pace.of_append _ _
  obtain ⟨hrows, hcurrent, hidle⟩ := WorkerStage.after_other hallows hquestion reply
  obtain ⟨hlisted, hexpiry, hreadings, hfresh⟩ :=
    Pace.after_other hquestion (Pace.of events) reply
  rw [← hstage] at hrows hcurrent hidle
  rw [← hpace] at hnext hlisted hexpiry hreadings hfresh
  exact hs.of_kept htime rfl hnext hstore rfl (fun row hrow => hrows ▸ hrow) hcurrent hidle hlisted
    hexpiry hreadings hfresh

/-- The worker asks an operation of the database. -/
theorem workerAsked_store (hs : Paced events s) (ho : OutboxInvariant events s) {op : StoreOp}
    {next : Except PyExc op.Result → Coroutine Unit} {reply : Except PyExc op.Result}
    {world' : World} (htime : KeepsTime (events ++ [.workerAsked (.store op) reply]))
    (hworker : s.worker = some (Program.ask (.store op) next))
    (hserves : s.world.Serves (.store op) reply world') :
    Paced (events ++ [.workerAsked (.store op) reply])
      { s with world := world', worker := some (next reply) } := by
  obtain ⟨hstages, hlinked⟩ := ho.worker _ hworker
  obtain ⟨hallows, hnext⟩ := hs.worker _ hworker
  have hoperates := WorkerStage.operates_of_allows hstages.1
  have hnext := hnext reply _ rfl
  have hstage : WorkerStage.of (events ++ [.workerAsked (.store op) reply]) =
      (WorkerStage.of events).after (.store op) reply := WorkerStage.of_append _ _
  have hpace : Pace.of (events ++ [.workerAsked (.store op) reply]) =
      (Pace.of events).after (.store op) reply := Pace.of_append _ _
  rw [← hpace] at hnext
  rcases hserves.does with ⟨exc, rfl, rfl⟩ | ⟨result, rfl, hdoes, -⟩
  · -- an operation that raises changes nothing
    have hsame : Pace.of (events ++ [.workerAsked (.store op) (.error exc)]) = Pace.of events := by
      rw [hpace]
      cases op <;> rfl
    have hnone : (AppEvent.workerAsked (.store op) (.error exc)).attemptOf = none := by
      cases op <;> rfl
    have hreading : ∀ now ∈ (Pace.of events).readings, now ∈ (Pace.of events).readings ∨
        (AppEvent.workerAsked (.store op) (.error exc)).reading = some now :=
      fun now hnow => Or.inl hnow
    have hkept : ∀ stage : WorkerStage, stage = WorkerStage.of events ∨ stage = .batch [] →
        (∀ row ∈ stage.rows, row ∈ (WorkerStage.of events).rows) ∧
        (∀ row ∈ stage.current, row ∈ (WorkerStage.of events).current ∨
          (AppEvent.workerAsked (.store op) (.error exc)).attemptOf = some row.id) ∧
        (stage = .idle → WorkerStage.of events = .idle) := by
      rintro stage (rfl | rfl)
      · exact ⟨fun _ h => h, fun _ h => Or.inl h, id⟩
      · exact ⟨fun _ h => (nomatch h), fun _ h => (nomatch h), nofun⟩
    obtain ⟨hrows, hcurrent, hidle⟩ := hkept _ (hoperates.after_error exc)
    rw [← hstage] at hrows hcurrent hidle
    exact hs.of_kept htime rfl hnext rfl rfl hrows hcurrent hidle (congrArg Pace.rows hsame)
      (congrArg Pace.expiry hsame) (hsame.symm ▸ hreading) fun h => absurd hnone h
  · generalize hof : WorkerStage.of events = stage at hoperates hlinked
    rw [hof] at hstage
    cases hoperates with
    -- the operations that the worker may ask in its stage
    | expire halert hlisting => exact hs.expired halert hlisting rfl hstage rfl hnext hdoes rfl
    | @query now =>
        obtain ⟨rfl, hstore⟩ := hdoes
        exact hs.queried ho htime hallows hof rfl rfl hnext hstore rfl
    | @confirm row rest now hkey =>
        have hrow := hs.batch row (hof ▸ List.mem_cons_self)
        exact hs.of_updated ho (hof ▸ hlinked) (hof ▸ rfl) hstage hpace rfl rfl hnext rfl
          (congrArg Store.outgoing hdoes) ((hs.spaced row hrow.mem).of_same ⟨rfl, rfl, rfl, rfl⟩ _)
    | @confirmListing row rest eventKey now hkey =>
        have hrow := hs.batch row (hof ▸ List.mem_cons_self)
        -- the flag of the listing event is in another table
        have houtgoing : world'.store.outgoing = (s.store.updateOutgoing row.id fun current =>
            { current with status := .sent, sentAt := some now }).outgoing := by
          rw [show world'.store = (s.store.markNotificationSent row.id now).markListingSent eventKey
            from hdoes]
          rfl
        exact hs.of_updated ho (hof ▸ hlinked) (hof ▸ rfl) hstage hpace rfl rfl hnext rfl houtgoing
          ((hs.spaced row hrow.mem).of_same ⟨rfl, rfl, rfl, rfl⟩ _)
    | @bury row accepted rest error =>
        have hrow := hs.batch row (hof ▸ List.mem_cons_self)
        exact hs.of_updated ho (hof ▸ hlinked) (hof ▸ rfl) hstage hpace rfl rfl hnext rfl
          (congrArg Store.outgoing hdoes) ((hs.spaced row hrow.mem).of_same ⟨rfl, rfl, rfl, rfl⟩ _)
    | @reschedule row accepted rest error nextAttemptAt now =>
        have hrow := hs.batch row (hof ▸ List.mem_cons_self)
        refine hs.of_updated ho (hof ▸ hlinked) (hof ▸ rfl) hstage hpace rfl rfl hnext rfl
          (congrArg Store.outgoing hdoes) fun _ htimely => ?_
        exact ⟨nextAttemptAt, rfl, hs.putOff hrow (hof ▸ rfl) htimely.of_append hallows⟩

/-- One step keeps the pace. -/
theorem step (hs : Paced events s) (ho : OutboxInvariant events s)
    (htime : KeepsTime (events ++ [event])) (h : AppStep s event s') :
    Paced (events ++ [event]) s' := by
  have hadded := AppStep.added ho h
  -- only the worker books its rows, so the others add rows at most
  cases h with
  | restarted config =>
      exact hs.begins rfl (fun worker hmem => (Option.some.inj hmem).symm)
        (WorkerStage.of_append _ _) (Pace.of_append _ _)
  | looped hworker =>
      refine hs.begins rfl (fun worker hmem => ?_) (WorkerStage.of_append _ _) (Pace.of_append _ _)
      change worker ∈ (ite _ _ _ : Option (Coroutine Unit)) at hmem
      split at hmem
      · cases hmem
      · exact (Option.some.inj hmem).symm
  | @workerAsked question next reply world' hworker hserves =>
      cases question with
      | store op => exact hs.workerAsked_store ho htime hworker hserves
      | _ => exact hs.workerAsked_other ho htime hworker (fun op => nofun) hserves
  | cycled hcycle =>
      exact hs.of_added rfl (ho.added_of_cycle hcycle).1 rfl rfl rfl (hadded fun _ _ => nofun)
  | began entry => exact hs.of_added rfl rfl rfl rfl rfl (hadded fun _ _ => nofun)
  | callAsked hcalls hserves => exact hs.of_added rfl rfl rfl rfl rfl (hadded fun _ _ => nofun)
  | callEnded hcalls => exact hs.of_added rfl rfl rfl rfl rfl (hadded fun _ _ => nofun)
  | stopRequested => exact hs.of_added rfl rfl rfl rfl rfl (hadded fun _ _ => nofun)

theorem start (config : AdmittedSettings) : Paced [] (Application.start config {} 0) where
  worker worker hworker := by
    obtain rfl := Option.some.inj hworker
    exact AlertDispatcher.loopBody_paced _
  readings now hnow := nomatch hnow
  nodup := List.nodup_nil
  batch row hrow := nomatch hrow
  attempted row hrow := nomatch hrow
  young _ second hsecond := nomatch hsecond
  spaced row hrow := nomatch hrow

end Paced

/-- Every run that keeps time keeps the pace. -/
theorem AppRun.paced {config : AdmittedSettings} {events : List AppEvent} {s : Application}
    (h : AppRun config events s) (htime : KeepsTime events) : Paced events s := by
  induction h with
  | nil => exact Paced.start config
  | snoc prior last ih =>
      have hs := ih (htime.of_prefix (List.prefix_append _ _))
      exact hs.step (AppRun.outboxInvariant prior) htime last

/-! ## The attempts of a row -/

/-- The max ages are computed, and are not negative. -/
theorem AdmittedSettings.maxAge_nonneg (config : AdmittedSettings) (row : OutgoingNotification)
    {maxAge : ℤ} (h : config.maxAge row = .ok maxAge) : 0 ≤ maxAge := by
  -- the settings were checked when they were loaded
  obtain ⟨halert, hpos⟩ := config.toInt_of_nonNegative
    (show ("notification_max_age_seconds", Settings.notificationMaxAgeSeconds) ∈ _ by
      simp [Settings.numericNonNegative])
  obtain ⟨hlisting, hpos'⟩ := config.toInt_of_nonNegative
    (show ("listing_notification_max_age_seconds", Settings.listingNotificationMaxAgeSeconds) ∈ _ by
      simp [Settings.numericNonNegative])
  unfold Settings.maxAge at h
  split at h
  · exact Except.ok.inj (hlisting.symm.trans h) ▸ hpos'
  · exact Except.ok.inj (halert.symm.trans h) ▸ hpos

/-- A row moves on through later states. -/
theorem OutboxInvariant.movesTo {events later : List AppEvent} {s t : Application}
    (hs : OutboxInvariant events s) (hlater : Trace AppStep s later t) {row : OutgoingNotification}
    (hrow : row ∈ s.store.outgoing) :
    OutboxInvariant (events ++ later) t ∧ ∃ row' ∈ t.store.outgoing, row.MovesTo row' := by
  induction hlater with
  | nil =>
      rw [List.append_nil]
      exact ⟨hs, row, hrow, .refl row⟩
  | snoc prior last ih =>
      obtain ⟨ho, row', hmem, hmoves⟩ := ih
      obtain ⟨ho', hadvances⟩ := ho.step last
      obtain ⟨row'', hmem', hmoves'⟩ := hadvances.kept row' hmem
      rw [← List.append_assoc]
      exact ⟨ho', row'', hmem', hmoves.trans hmoves'⟩

/-- What an attempt of a row is bound to: the delays of the failures so far fit into the max age of
its kind. -/
def AttemptBounded (before : List AppEvent) (s : Application) (event : AppEvent) : Prop :=
  ∀ id ∈ event.attemptOf, ∀ row ∈ s.store.outgoing, row.id = id → row.Timely before →
    ∀ maxAge, s.config.maxAge row = .ok maxAge →
      totalDelay (transientFailures id before) ≤ maxAge ∧
        transientFailures id before < attemptLimit maxAge

/-- What an expiry does for good: a row that is older than the max age of its kind is sent or dead
in every later state. -/
def ExpiryCloses (s : Application) (event : AppEvent) (s' : Application) : Prop :=
  ∀ alertMaxAge listingMaxAge now, ∀ count : ℕ,
    event = .workerAsked (.store (.expireNotifications alertMaxAge listingMaxAge now)) (.ok count) →
      ∀ later t, Trace AppStep s' later t → ∀ row ∈ t.store.outgoing,
        (∃ old ∈ s.store.outgoing, old.id = row.id) →
        ∀ maxAge, s.config.maxAge row = .ok maxAge → row.createdAt + maxAge + 1 ≤ now →
          row.status = .sent ∨ row.status = .dead

/-- A step that begins a delivery takes the first row of the batch. -/
theorem WorkerStage.batch_of_attempt {config : Settings} {stage : WorkerStage} {question : Await}
    {reply : question.Reply} {id : ℕ} (h : stage.Allows config question)
    (hattempt : (AppEvent.workerAsked question reply).attemptOf = some id) :
    ∃ row ∈ stage.rows, row.id = id := by
  cases question with
  | note asked =>
      cases asked with
      | delivering id' message =>
          obtain rfl : id' = id := Option.some.inj hattempt
          cases stage with
          | batch rows =>
              cases rows with
              | nil => exact False.elim h
              | cons row rest => exact ⟨row, List.mem_cons_self, h.1.symm⟩
          | _ => exact False.elim h
      | _ => cases hattempt
  | _ => cases hattempt

theorem attemptBounded {config : AdmittedSettings} {events : List AppEvent} {s s' : Application}
    {event : AppEvent} (h : AppRun config events s) (htime : KeepsTime events)
    (hstep : AppStep s event s') : AttemptBounded events s event := by
  intro id hid row hrow hrowId htimely maxAge hmaxAge
  have ho := h.outboxInvariant
  have hdelays : totalDelay (transientFailures id events) ≤ maxAge := by
    have hattempts := (ho.justified row hrow).attempts
    rw [hrowId] at hattempts
    rw [← hattempts]
    -- the first attempt waits for no delay; for a later one the batch has the bound
    rcases Nat.eq_zero_or_pos row.attemptCount with hfirst | hfailed
    · rw [hfirst]
      exact s.config.maxAge_nonneg row hmaxAge
    · cases hstep with
      | workerAsked hworker hserves =>
          obtain ⟨listed, hlisted, hlistedId⟩ :=
            WorkerStage.batch_of_attempt (ho.worker _ hworker).1.1 hid
          have hdue := (h.paced htime).batch listed hlisted
          obtain rfl : listed = row := ho.eq_current hrow hdue.mem (hlistedId.trans hrowId.symm)
          exact hdue.bounded hfailed htimely maxAge hmaxAge
      | _ => cases hid
  exact ⟨hdelays, lt_attemptLimit hdelays⟩

/-- An open row that is older than the max age of its kind expires. -/
theorem OutgoingNotification.expires_of_old {config : Settings} {row : OutgoingNotification}
    {alertMaxAge listingMaxAge maxAge now : ℤ} (hopen : row.status.isOpen = true)
    (halert : config.notificationMaxAgeSeconds.toInt = .ok alertMaxAge)
    (hlisting : config.listingNotificationMaxAgeSeconds.toInt = .ok listingMaxAge)
    (hmaxAge : config.maxAge row = .ok maxAge) (hage : row.createdAt + maxAge + 1 ≤ now) :
    row.expires alertMaxAge listingMaxAge now = true := by
  unfold Settings.maxAge at hmaxAge
  rw [expires, hopen, Bool.true_and]
  split_ifs at hmaxAge ⊢
  · cases hlisting.symm.trans hmaxAge
    exact decide_eq_true (by omega)
  · cases halert.symm.trans hmaxAge
    exact decide_eq_true (by omega)

theorem expiryCloses {config : AdmittedSettings} {events : List AppEvent} {s s' : Application}
    {event : AppEvent} (h : AppRun config events s) (hstep : AppStep s event s') :
    ExpiryCloses s event s' := by
  rintro alertMaxAge listingMaxAge now count rfl later t hlater row hrow ⟨old, hold, hid⟩ maxAge
    hmaxAge hage
  have ho := h.outboxInvariant
  have ho' := (ho.step hstep).1
  cases hstep with
  | @workerAsked question next reply world' hworker hserves =>
      have hoperates := WorkerStage.operates_of_allows (ho.worker _ hworker).1.1
      generalize WorkerStage.of events = stage at hoperates
      obtain ⟨halert, hlisting⟩ : s.config.notificationMaxAgeSeconds.toInt = .ok alertMaxAge ∧
          s.config.listingNotificationMaxAgeSeconds.toInt = .ok listingMaxAge := by
        cases hoperates with
        | expire halert hlisting => exact ⟨halert, hlisting⟩
      rcases hserves.does with ⟨exc, herror, -⟩ | ⟨result, -, hdoes, -⟩
      · cases herror
      · -- the row as the expiry leaves it
        obtain ⟨left, hleft, hleftId, hyoung⟩ : ∃ left ∈ world'.store.outgoing, left.id = old.id ∧
            (left.status.isOpen = true → left.expires alertMaxAge listingMaxAge now = false) := by
          have hstore : world'.store = s.store.expireNotifications alertMaxAge listingMaxAge now :=
            hdoes
          rw [hstore]
          refine ⟨_, Store.mem_mapOutgoing.mpr ⟨old, hold, rfl⟩, ?_⟩
          split
          · exact ⟨rfl, fun hopen => by cases hopen⟩
          · rename_i hexpires
            exact ⟨rfl, fun _ => Bool.eq_false_iff.mpr hexpires⟩
        obtain ⟨ho'', row', hmem, hmoves⟩ := ho'.movesTo hlater hleft
        obtain rfl : row' = row := ho''.eq_current hrow hmem
          ((hmoves.notice.id_eq.trans hleftId).trans hid)
        -- it was not left open, since it was too old
        have hclosed : left.status.isOpen = false := by
          refine Bool.eq_false_iff.mpr fun hopen => ?_
          have hkind : s.config.maxAge left = .ok maxAge := by
            rw [← hmaxAge, Settings.maxAge, Settings.maxAge, hmoves.notice.originType_eq]
          have hexpires := OutgoingNotification.expires_of_old hopen halert hlisting hkind
            (hmoves.notice.createdAt_eq ▸ hage)
          rw [hyoung hopen] at hexpires
          cases hexpires
        have hstatus : row'.status = left.status := by
          rcases hmoves.status with hsame | ⟨hopen, -⟩
          · exact hsame
          · rw [hclosed] at hopen
            cases hopen
        rw [hstatus]
        generalize left.status = status at hclosed
        cases status with
        | sent => exact Or.inl rfl
        | dead => exact Or.inr rfl
        | _ => cases hclosed

/-- After every run whose clock does not step back, where an expiry and its query read the same
second: a row that was not created after its first attempt is attempted only while the delays of the
failures that were recorded fit into the max age of its kind, so the failures before an attempt are
fewer than a number that this age fixes; and the expiry after that age ends the row for good. -/
theorem attempts_bounded {config : AdmittedSettings} {events : List AppEvent} {s s' : Application}
    {event : AppEvent} (h : AppRun config events s) (htime : KeepsTime events)
    (hstep : AppStep s event s') : AttemptBounded events s event ∧ ExpiryCloses s event s' :=
  ⟨attemptBounded h htime hstep, expiryCloses h hstep⟩

instance (events : List AppEvent) : Decidable (KeepsTime events) :=
  decidable_of_iff _ ⟨fun h : _ ∧ _ => ⟨h.1, h.2⟩, fun h => ⟨h.steady, h.sameSecond⟩⟩

instance (row : OutgoingNotification) (events : List AppEvent) : Decidable (row.Timely events) :=
  inferInstanceAs (Decidable (∀ now ∈ readingsSince row.id events, row.createdAt ≤ now))

/-- A notification that meets flood control, and is attempted again when its delay has passed. -/
def delayedInputs : List AppInput :=
  let limited : HttpReply := .response ⟨429, some (.object []), none⟩
  .begin (.enqueue "text" "test" none none none) :: List.replicate 2 (.call 1 { now := 100 }) ++
    List.replicate 14 (.worker { now := 100, http := limited }) ++
    .loop :: List.replicate 4 (.worker { now := 110 })

theorem attempts_bounded_delayed :
    ∃ step, (performAll .default delayedInputs).2.perform (.worker {}) = some step ∧
      step.1.attemptOf = some 1 ∧
      totalDelay (transientFailures 1 (performAll .default delayedInputs).1) = 10 ∧
      AttemptBounded (performAll .default delayedInputs).1 (performAll .default delayedInputs).2
        step.1 := by
  have hnext : ((performAll .default delayedInputs).2.perform (.worker {})).map
      (fun step => step.1.attemptOf) = some (some 1) := by decide +kernel
  obtain ⟨step, hstep, hattempt⟩ := Option.map_eq_some_iff.mp hnext
  have hbounded := attempts_bounded (run_performAll .default delayedInputs) (by decide +kernel)
    (Application.perform_step hstep)
  exact ⟨step, hstep, hattempt, by decide +kernel, hbounded.1⟩

/-- The attempts of a row in a history. -/
def attempts (id : ℕ) (events : List AppEvent) : ℕ := (events.filterMap AppEvent.attemptOf).count id

/-- Whether a delivery of the row succeeds or is refused for good. -/
def AppEvent.settles (id : ℕ) : AppEvent → Bool
  | .workerAsked (.note (.delivered id' _)) _ | .workerAsked (.note (.refused id')) _ => id' = id
  | _ => false

/-- Settings with a max age of five seconds. -/
def briefSettings : AdmittedSettings where
  toSettings := { notificationMaxAgeSeconds := 5 }
  admitted := by decide +kernel

/-- A notification that meets flood control, and a restart before the failure is recorded. -/
def cutInputs : List AppInput :=
  let limited : HttpReply := .response ⟨429, some (.object []), none⟩
  .begin (.enqueue "text" "test" none none none) :: List.replicate 2 (.call 1 { now := 100 }) ++
    List.replicate 11 (.worker { now := 100, http := limited }) ++
    .restart briefSettings :: List.replicate 4 (.worker { now := 100 })

/-- A failure that a restart keeps from being recorded puts the row off for no time. -/
theorem attempts_unbounded :
    ¬ ∀ config events s event s', AppRun config events s → KeepsTime events →
      AppStep s event s' → ∀ id ∈ event.attemptOf, ∀ row ∈ s.store.outgoing, row.id = id →
        row.Timely events → (∀ event ∈ events, event.settles id = false) → ∀ maxAge,
          s.config.maxAge row = .ok maxAge → totalDelay (attempts id events) ≤ maxAge := by
  intro hclaim
  -- the restart comes between the failure and its booking, so the row is due at once
  let run := performAll briefSettings cutInputs
  have hnext : (run.2.perform (.worker {})).map (fun step => step.1.attemptOf) = some (some 1) := by
    decide +kernel
  obtain ⟨⟨event, s'⟩, hstep, hattempt⟩ := Option.map_eq_some_iff.mp hnext
  have hrow : ∃ row ∈ run.2.store.outgoing, row.id = 1 ∧ row.Timely run.1 ∧
      row.originType = none := by decide +kernel
  obtain ⟨row, hmem, hid, htimely, horigin⟩ := hrow
  have hmaxAge : run.2.config.maxAge row = .ok 5 := by
    rw [Settings.maxAge, horigin, if_neg (by decide)]
    rfl
  have hbound := hclaim briefSettings _ _ event s' (run_performAll briefSettings cutInputs)
    (by decide +kernel) (Application.perform_step hstep) 1 hattempt row hmem hid htimely
    (by decide +kernel) 5 hmaxAge
  have hattempts : attempts 1 run.1 = 1 := by decide +kernel
  rw [hattempts] at hbound
  exact absurd hbound (by decide)

end BybitMonitor
