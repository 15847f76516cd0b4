import Mathlib
import BybitMonitor.Health.Persisted
import BybitMonitor.Telegram.Client

/-!
# The health check of the container

`scripts/container_healthcheck.py`, a process of its own that reads the row of the last persisted
snapshot, and the histories of a container: the application starts and starts again, its health loop
goes round, and the check runs in between.

* `Healthcheck.exitCode_eq_zero_iff`: when the check passes on a table.
* `container_healthy_iff`: when it passes, in terms of what the application has seen.
-/

namespace BybitMonitor

namespace Healthcheck

/-- One run of the script: the variable `HEALTH_HEARTBEAT_STALE_SECONDS`, `time.time()`, and what
the connection to the database raises. -/
structure Probe where
  staleSeconds : Option String := none
  now : ℚ
  fault : Option PyExc := none
  deriving DecidableEq, Repr

/-- `heartbeat_stale_seconds`. -/
def heartbeatStaleSeconds (raw : Option String) : Except PyExc PyFloat := do
  let value ← TelegramClient.floatOf (.string (raw.getD "120"))
  if !value.isFinite || value.le 0 then
    throw (.valueError "HEALTH_HEARTBEAT_STALE_SECONDS must be finite and > 0")
  return value

/-- The `LookupError` of `read_snapshot`. -/
def noSnapshot : PyExc := .other "LookupError"

/-- `read_snapshot`. -/
def readSnapshot (probe : Probe) (rows : List KvRow) : Except PyExc Json := do
  raiseIf probe.fault
  match Repository.kvValue rows HealthMonitor.snapshotKey with
  | none => throw noSnapshot
  | some text => Json.loads text

/-- `",".join(value)`. -/
def joinNames : Json → Except PyExc String
  | .string text => .ok (",".intercalate (text.toList.map String.singleton))
  | .object fields => .ok (",".intercalate (fields.map Prod.fst))
  | .array items => do
      let names ← items.mapM fun item =>
        match item with
        | .string name => .ok name
        | _ => .error (.typeError "sequence item: expected str instance")
      return ",".intercalate names
  | _ => .error (.typeError "can only join an iterable")

section

variable (str : Json → String) (excName : PyExc → String)

/-- The part of `check_health` after the snapshot is read, where `str` and `excName` are
`str(value)` and `type(exc).__name__`. -/
def judge (probe : Probe) (threshold : PyFloat) : Json → Except PyExc (Bool × String)
  | .object fields => do
      let updated ← TelegramClient.floatOf ((fields.lookup "last_updated_at").getD (.int 0))
      let heartbeatAge := (PyFloat.finite probe.now).add updated.neg
      if threshold.lt heartbeatAge then
        return (false, "health heartbeat stale: " ++ heartbeatAge.formatFixed false 0 ++ "s")
      if Json.isString "unhealthy" (Json.get fields "overall") then
        let issues ← joinNames ((fields.lookup "critical_issues").getD (.array []))
        return (false, "critical application failure: " ++
          if issues = "" then "unknown" else issues)
      return (true, "healthy (" ++ str ((fields.lookup "overall").getD (.string "healthy")) ++ ")")
  | value => TelegramClient.noDict value

/-- `check_health`. -/
def checkHealth (probe : Probe) (threshold : PyFloat) (rows : List KvRow) :
    Except PyExc (Bool × String) :=
  match readSnapshot probe rows with
  | .ok snapshot => judge str probe threshold snapshot
  | .error exc =>
      if exc = noSnapshot then .ok (false, "no health snapshot persisted yet")
      else .ok (false, "database or snapshot unreadable: " ++ excName exc)

/-- `main`: the exit code and the printed line. -/
def main (probe : Probe) (rows : List KvRow) : Except PyExc (ℤ × String) :=
  match heartbeatStaleSeconds probe.staleSeconds with
  | .error (.valueError message) => .ok (1, "healthcheck: " ++ message)
  | .error exc => .error exc
  | .ok threshold => do
      let (ok, message) ← checkHealth str excName probe threshold rows
      return (if ok then 0 else 1, "healthcheck: " ++ message)

/-- The exit code of the process: an exception that nothing catches ends it with 1. -/
def exitCode (probe : Probe) (rows : List KvRow) : ℤ :=
  match main str excName probe rows with
  | .ok (code, _) => code
  | .error _ => 1

end

/-- The heartbeat of the time `stamp` is not older than the threshold, as the check computes its
age. -/
def Recent (threshold : PyFloat) (now : ℚ) (stamp : ℤ) : Prop :=
  ∃ updated, PyFloat.ofInt stamp = .ok updated ∧
    threshold.lt ((PyFloat.finite now).add updated.neg) = false

variable {str : Json → String} {excName : PyExc → String} {probe : Probe} {threshold : PyFloat}
  {rows : List KvRow} {state : HealthState} {stamp : ℤ} {text : String}

/-- The check judges a persisted snapshot by its heartbeat and its verdict. -/
theorem judge_payload (h : Json.dumps (state.payload stamp) = .ok text) :
    ∃ snapshot, Json.loads text = .ok snapshot ∧
      ((∃ message, judge str probe threshold snapshot = .ok (true, message)) ↔
        Recent threshold probe.now stamp ∧ state.overall ≠ .unhealthy) := by
  obtain ⟨fields, hloads, hfields⟩ := HealthState.loads_payload h
  have hstamp : fields.lookup "last_updated_at" = some (.int stamp) :=
    hfields ("last_updated_at", .int stamp) (by simp [HealthState.payloadFields])
  have hoverall : fields.lookup "overall" = some (.string state.overall.name) :=
    hfields ("overall", .string state.overall.name) (by simp [HealthState.payloadFields])
  have hname : Json.isString "unhealthy" (.string state.overall.name) = true ↔
      state.overall = .unhealthy := by
    cases state.overall <;> decide
  refine ⟨_, hloads, ?_⟩
  rw [judge, hstamp, hoverall]
  simp only [Option.getD_some, TelegramClient.floatOf, Recent, Json.get, hoverall]
  cases PyFloat.ofInt stamp with
  | error exc => simp [bind, Except.bind]
  | ok updated =>
      by_cases hstale : threshold.lt ((PyFloat.finite probe.now).add updated.neg) = true
      · simp [bind, Except.bind, hstale, pure, Except.pure]
      · by_cases hunhealthy : state.overall = .unhealthy
        · -- the names of the issues do not change the verdict
          have hisString := hname.mpr hunhealthy
          refine iff_of_false ?_ fun h => h.2 hunhealthy
          rintro ⟨message, hpass⟩
          simp only [bind, Except.bind, hstale, hisString, if_true] at hpass
          cases hnames : joinNames ((fields.lookup "critical_issues").getD (.array [])) with
          | error exc => simp [hnames] at hpass
          | ok names => simp [hnames, pure, Except.pure] at hpass
        · have hisString := mt hname.mp hunhealthy
          simp [bind, Except.bind, hstale, pure, Except.pure, hunhealthy, hisString]

/-- The exit code is zero exactly if the threshold is one, the row can be read, and the check
passes. -/
theorem exitCode_eq_zero_iff :
    exitCode str excName probe rows = 0 ↔
      ∃ threshold, heartbeatStaleSeconds probe.staleSeconds = .ok threshold ∧
        ∃ snapshot, readSnapshot probe rows = .ok snapshot ∧
          ∃ message, judge str probe threshold snapshot = .ok (true, message) := by
  unfold exitCode main
  cases hthreshold : heartbeatStaleSeconds probe.staleSeconds with
  | error exc => cases exc <;> simp
  | ok threshold =>
      simp only [checkHealth, Except.ok.injEq, exists_eq_left']
      cases hread : readSnapshot probe rows with
      | error exc =>
          by_cases hmissing : exc = noSnapshot <;>
            simp [hmissing, bind, Except.bind, pure, Except.pure]
      | ok snapshot =>
          simp only [Except.ok.injEq, exists_eq_left']
          cases judge str probe threshold snapshot with
          | error exc => simp [bind, Except.bind]
          | ok verdict =>
              obtain ⟨ok, message⟩ := verdict
              cases ok <;> simp [bind, Except.bind, pure, Except.pure]

/-- Without a snapshot the check fails. -/
theorem exitCode_of_missing (h : Repository.kvValue rows HealthMonitor.snapshotKey = none) :
    exitCode str excName probe rows ≠ 0 := by
  rw [Ne, exitCode_eq_zero_iff]
  rintro ⟨threshold, -, snapshot, hread, -⟩
  simp only [readSnapshot, h, PyExc.check_bind_eq_ok] at hread
  cases hread.2

/-- The check on a table that has the snapshot `state` of the time `stamp`. -/
theorem exitCode_of_payload (htext : Json.dumps (state.payload stamp) = .ok text)
    (hrow : Repository.kvValue rows HealthMonitor.snapshotKey = some text) :
    exitCode str excName probe rows = 0 ↔
      probe.fault = none ∧ ∃ threshold, heartbeatStaleSeconds probe.staleSeconds = .ok threshold ∧
        Recent threshold probe.now stamp ∧ state.overall ≠ .unhealthy := by
  have hread (snapshot : Json) : readSnapshot probe rows = .ok snapshot ↔
      probe.fault = none ∧ Json.loads text = .ok snapshot := by
    simp only [readSnapshot, hrow, PyExc.check_bind_eq_ok]
    refine and_congr_left' ?_
    cases probe.fault <;> simp [raiseIf]
  have hjudge (threshold : PyFloat) : ∃ snapshot, Json.loads text = .ok snapshot ∧
      ((∃ message, judge str probe threshold snapshot = .ok (true, message)) ↔
        Recent threshold probe.now stamp ∧ state.overall ≠ .unhealthy) := judge_payload htext
  simp only [exitCode_eq_zero_iff, hread]
  constructor
  · rintro ⟨threshold, hthreshold, snapshot, ⟨hfault, hsnapshot⟩, hpass⟩
    obtain ⟨_, hloads, hiff⟩ := hjudge threshold
    obtain rfl := Except.ok.inj (hsnapshot.symm.trans hloads)
    exact ⟨hfault, threshold, hthreshold, hiff.mp hpass⟩
  · rintro ⟨hfault, threshold, hthreshold, hgood⟩
    obtain ⟨snapshot, hloads, hiff⟩ := hjudge threshold
    exact ⟨threshold, hthreshold, snapshot, ⟨hfault, hloads⟩, hiff.mpr hgood⟩

end Healthcheck

/-! ## Histories of a container -/

/-- What happens in a container. -/
inductive ContainerEvent
  /-- The application starts. -/
  | started
  /-- The market loop reports its count. -/
  | counted (count : ℤ)
  /-- The health loop goes round, with `last_updated_at` at the time `stamp`. -/
  | round (readings : HealthReadings) (stamp : ℤ) (outcome : RoundOutcome)
  | checked (probe : Healthcheck.Probe) (exitCode : ℤ)

/-- The monitor of the running application and the table `kv`. -/
structure ContainerState where
  monitor : HealthMonitor := {}
  rows : List KvRow := []

/-- One event of the history of a container. -/
inductive ContainerStep (str : Json → String) (excName : PyExc → String) (config : Settings) :
    ContainerState → ContainerEvent → ContainerState → Prop
  | started {s : ContainerState} :
      ContainerStep str excName config s .started { s with monitor := {} }
  | counted {s : ContainerState} (count : ℤ) :
      ContainerStep str excName config s (.counted count)
        { s with monitor := { s.monitor with qualifyingCoinCount := count } }
  | round {s : ContainerState} {readings : HealthReadings} {faults : KvFaults} {now kvNow : ℤ}
      {outcome : RoundOutcome} {monitor : HealthMonitor} {rows : List KvRow}
      (h : s.monitor.round config readings faults now kvNow s.rows = (outcome, monitor, rows)) :
      ContainerStep str excName config s (.round readings now outcome) { monitor, rows }
  | checked {s : ContainerState} (probe : Healthcheck.Probe) :
      ContainerStep str excName config s
        (.checked probe (Healthcheck.exitCode str excName probe s.rows)) s

/-- The last snapshot that was persisted: its time, and the snapshots that its process had reported
until then, of which it is the last. -/
structure Beat where
  stamp : ℤ
  earlier : List HealthReadings
  readings : HealthReadings

/-- What a history has left: the snapshots that the running process has reported, and the last one
that was persisted, by any process. -/
structure ContainerHistory where
  reports : List HealthReadings := []
  last : Option Beat := none

namespace ContainerHistory

/-- The history after an event. -/
def next (self : ContainerHistory) : ContainerEvent → ContainerHistory
  | .started => { self with reports := [] }
  | .round readings _ (.unpersisted _ _) => { self with reports := self.reports ++ [readings] }
  | .round readings stamp (.persisted _) =>
      { reports := self.reports ++ [readings], last := some ⟨stamp, self.reports, readings⟩ }
  | _ => self

/-- The history of a sequence of events. -/
def ofEvents (events : List ContainerEvent) : ContainerHistory := events.foldl next {}

theorem ofEvents_snoc (events : List ContainerEvent) (event : ContainerEvent) :
    ofEvents (events ++ [event]) = (ofEvents events).next event := by
  rw [ofEvents, List.foldl_append]
  rfl

end ContainerHistory

/-- The monotonic clock does not go back while a process runs. -/
def ClockMonotonic (events : List ContainerEvent) : Prop :=
  ∀ earlier later, events = earlier ++ later →
    (ContainerHistory.ofEvents earlier).reports.Pairwise fun r r' => r.monotonic ≤ r'.monotonic

/-- A critical condition of the last snapshot had failed for the grace, or is the database. -/
def Beat.Critical (config : Settings) (beat : Beat) (issue : CriticalIssue) : Prop :=
  Failing config beat.readings issue ∧ (issue = .database ∨
    FailingForGrace config (beat.earlier ++ [beat.readings]) beat.readings.monotonic issue)

/-- The row of the snapshot is the one of the last beat. -/
def RowOfBeat (config : Settings) (last : Option Beat) (row : Option String) : Prop :=
  match last with
  | none => row = none
  | some beat => ∃ state text, Json.dumps (HealthState.payload state beat.stamp) = .ok text ∧
      row = some text ∧ (state.overall = .unhealthy ↔ ∃ issue, beat.Critical config issue)

/-- What every history of a container keeps. -/
structure ContainerInvariant (config : Settings) (history : ContainerHistory)
    (s : ContainerState) : Prop where
  grace : HealthMonitor.GraceOf config history.reports s.monitor.criticalSince
  row : RowOfBeat config history.last
    (Repository.kvValue s.rows HealthMonitor.snapshotKey)

/-- A verdict is unhealthy exactly if some condition is critical. -/
theorem overall_unhealthy_iff {config : Settings} {earlier : List HealthReadings}
    {readings : HealthReadings} {state : HealthState} {stamp : ℤ}
    (h : GraceVerdict config earlier readings state) :
    state.overall = .unhealthy ↔
      ∃ issue, (Beat.mk stamp earlier readings).Critical config issue := by
  rw [h.unhealthy]
  constructor
  · intro hne
    obtain ⟨issue, hissue⟩ := List.exists_mem_of_ne_nil _ hne
    exact ⟨issue, (h.critical issue).mp hissue⟩
  · rintro ⟨issue, hissue⟩
    exact List.ne_nil_of_mem ((h.critical issue).mpr hissue)

variable {str : Json → String} {excName : PyExc → String} {config : Settings}

/-- A round keeps the invariant. -/
theorem ContainerInvariant.round {history : ContainerHistory} {s : ContainerState}
    {readings : HealthReadings} {faults : KvFaults} {now kvNow : ℤ} {outcome : RoundOutcome}
    {monitor : HealthMonitor} {rows : List KvRow} (h : ContainerInvariant config history s)
    (hround : s.monitor.round config readings faults now kvNow s.rows = (outcome, monitor, rows))
    (hsorted : (history.next (.round readings now outcome)).reports.Pairwise
      fun r r' => r.monotonic ≤ r'.monotonic) :
    ContainerInvariant config (history.next (.round readings now outcome)) { monitor, rows } := by
  rcases HealthMonitor.round_cases hround with ⟨exc, rfl, rfl, rfl⟩ | ⟨state, hsnapshot, hpersist⟩
  · exact ⟨h.grace, h.row⟩
  · -- a snapshot that reports moves the starts of the failures, persisted or not
    obtain ⟨bad, hbad, hsince, -⟩ := HealthMonitor.snapshot_classified hsnapshot
    have hgrace : HealthMonitor.GraceOf config (history.reports ++ [readings])
        monitor.criticalSince := by
      rw [hsince]
      exact h.grace.snoc hbad
    rcases hpersist with ⟨exc, rfl, rfl⟩ | ⟨text, htext, rfl, rfl⟩
    · exact ⟨hgrace, h.row⟩
    · have hverdict := HealthMonitor.graceVerdict h.grace hsorted hsnapshot
      refine ⟨hgrace, state, text, htext, ?_, overall_unhealthy_iff hverdict⟩
      rw [Repository.kvValue_kvUpsert, if_pos rfl]

/-- Every history of a container keeps the invariant. -/
theorem containerInvariant {events : List ContainerEvent} {s : ContainerState}
    (h : Trace (ContainerStep str excName config) {} events s) (hclock : ClockMonotonic events) :
    ContainerInvariant config (ContainerHistory.ofEvents events) s := by
  induction h with
  | nil => exact ⟨fun issue t => by simp [ContainerHistory.ofEvents], rfl⟩
  | @snoc events s event s' _ hstep ih =>
      have hbefore := ih fun earlier later heq =>
        hclock earlier (later ++ [event]) (by rw [heq, List.append_assoc])
      have hafter := hclock (events ++ [event]) [] (by rw [List.append_nil])
      rw [ContainerHistory.ofEvents_snoc] at hafter ⊢
      cases hstep with
      | started => exact ⟨fun issue t => by simp [ContainerHistory.next], hbefore.row⟩
      | counted count => exact ⟨hbefore.grace, hbefore.row⟩
      | round hround => exact hbefore.round hround hafter
      | checked probe => exact hbefore

/-- What a healthy container means: the check can read the database, and the last snapshot that was
persisted is recent and had no critical condition. -/
def ContainerHealthy (config : Settings) (history : ContainerHistory)
    (probe : Healthcheck.Probe) : Prop :=
  probe.fault = none ∧
    ∃ threshold, Healthcheck.heartbeatStaleSeconds probe.staleSeconds = .ok threshold ∧
      ∃ beat, history.last = some beat ∧ Healthcheck.Recent threshold probe.now beat.stamp ∧
        ∀ issue, ¬ beat.Critical config issue

/-- **The health of a container.** In every history of a container, however often the application
starts and whatever its rounds raise, the check exits with 0 exactly if it can read the database,
its threshold is one, and the last snapshot that was persisted is recent and had no condition that
failed in every snapshot of its process for the grace, or was a failure of the database. -/
theorem container_healthy_iff (str : Json → String) (excName : PyExc → String) (config : Settings)
    (events : List ContainerEvent) (hclock : ClockMonotonic events) :
    Trace.EveryStepAfter (ContainerStep str excName config) {} events fun earlier _ event _ =>
      match event with
      | .checked probe code =>
          code = 0 ↔ ContainerHealthy config (ContainerHistory.ofEvents earlier) probe
      | _ => True := by
  intro k event s s' hk hrun hstep
  cases hstep with
  | started => trivial
  | counted count => trivial
  | round h => trivial
  | checked probe =>
      have hclock' : ClockMonotonic (events.take k) := fun earlier later heq =>
        hclock earlier (later ++ events.drop k) (by
          rw [← List.append_assoc, ← heq, List.take_append_drop])
      have hrow := (containerInvariant hrun hclock').row
      simp only [ContainerHealthy]
      cases hlast : (ContainerHistory.ofEvents (events.take k)).last with
      | none =>
          rw [hlast] at hrow
          simpa using Healthcheck.exitCode_of_missing hrow
      | some beat =>
          rw [hlast] at hrow
          obtain ⟨state, text, htext, hvalue, hoverall⟩ := hrow
          rw [Healthcheck.exitCode_of_payload htext hvalue, Ne, hoverall]
          simp

/-- The clock of a history, by a test of its initial parts. -/
theorem clockMonotonic_of_inits {events : List ContainerEvent}
    (h : ∀ earlier ∈ events.inits, (ContainerHistory.ofEvents earlier).reports.Pairwise
      fun r r' => r.monotonic ≤ r'.monotonic) : ClockMonotonic events :=
  fun earlier later heq => h earlier ((List.mem_inits _ _).mpr ⟨later, heq.symm⟩)

/-- A round of the default settings without faults. -/
def ContainerState.roundAt (s : ContainerState) (readings : HealthReadings) (stamp : ℤ) :
    RoundOutcome × HealthMonitor × List KvRow :=
  s.monitor.round {} readings {} stamp stamp s.rows

/-- The container after such a round. -/
def ContainerState.afterRound (s : ContainerState) (readings : HealthReadings) (stamp : ℤ) :
    ContainerState :=
  { monitor := (s.roundAt readings stamp).2.1, rows := (s.roundAt readings stamp).2.2 }

theorem ContainerState.roundAt_eq (s : ContainerState) (readings : HealthReadings) (stamp : ℤ) :
    s.monitor.round {} readings {} stamp stamp s.rows =
      ((s.roundAt readings stamp).1, (s.afterRound readings stamp).monitor,
        (s.afterRound readings stamp).rows) := by
  rw [ContainerState.afterRound]
  dsimp only
  rw [Prod.mk.eta, ContainerState.roundAt]

/-- The round is an event of the history. -/
theorem ContainerState.roundAt_step (s : ContainerState) (readings : HealthReadings) (stamp : ℤ) :
    ContainerStep str excName {} s (.round readings stamp (s.roundAt readings stamp).1)
      (s.afterRound readings stamp) :=
  .round (s.roundAt_eq readings stamp)

/-- A round that persists its snapshot leaves it in the table. -/
theorem ContainerState.roundAt_persisted {s : ContainerState} {readings : HealthReadings}
    {stamp : ℤ} {overall : Overall}
    (h : (match (s.roundAt readings stamp).1 with
      | .persisted state => some state.overall
      | _ => none) = some overall) :
    ∃ state : HealthState, ∃ text, state.overall = overall ∧
      Json.dumps (state.payload stamp) = .ok text ∧
      Repository.kvValue (s.afterRound readings stamp).rows HealthMonitor.snapshotKey =
        some text := by
  rcases HealthMonitor.round_cases (s.roundAt_eq readings stamp) with
    ⟨exc, hraised, -⟩ | ⟨state, -, hpersist⟩
  · rw [hraised] at h
    cases h
  · rcases hpersist with ⟨exc, hraised, -⟩ | ⟨text, htext, hpersisted, hrows⟩
    · rw [hraised] at h
      cases h
    · rw [hpersisted] at h
      exact ⟨state, text, Option.some.inj h, htext, by
        rw [hrows, Repository.kvValue_kvUpsert, if_pos rfl]⟩

theorem heartbeatStaleSeconds_none : Healthcheck.heartbeatStaleSeconds none = .ok 120 := by
  have htext : PyFloat.ofText "120" = some 120 := by decide +kernel
  simp only [Healthcheck.heartbeatStaleSeconds, TelegramClient.floatOf, Option.getD_none, htext]
  rfl

/-- The container after a round at its start, while the discovery has not succeeded yet. -/
def outageStart : ContainerState := ContainerState.afterRound {} (outage 0) 1700000000

/-- The container after a round at the end of the grace of 180 s, while it still has not. -/
def outageEnd : ContainerState := outageStart.afterRound (outage 180) 1700000180

/-- The exit code of a check of the outage. -/
def outageExitCode (now : ℚ) (s : ContainerState) : ℤ :=
  Healthcheck.exitCode Json.typeName (fun _ => "") { now } s.rows

/-- The check of a container with the default threshold, by the verdict of its last snapshot. -/
theorem outageExitCode_eq_zero_iff (s : ContainerState) (readings : HealthReadings) (stamp : ℤ)
    (overall : Overall) {now : ℚ}
    (h : (match (s.roundAt readings stamp).1 with
      | .persisted state => some state.overall
      | _ => none) = some overall) (hstamp : |stamp| < 2 ^ 53)
    (hage : (120 : PyFloat).lt ((PyFloat.finite now).add (PyFloat.finite stamp).neg) = false) :
    outageExitCode now (s.afterRound readings stamp) = 0 ↔ overall ≠ .unhealthy := by
  obtain ⟨state, text, rfl, htext, hrow⟩ := ContainerState.roundAt_persisted h
  have hrecent : Healthcheck.Recent 120 now stamp :=
    ⟨_, by rw [PyFloat.ofInt, PyFloat.roundBinary64_intCast hstamp], hage⟩
  rw [outageExitCode, Healthcheck.exitCode_of_payload htext hrow, heartbeatStaleSeconds_none]
  simp [hrecent]

/-- A round at the start, a check, a round at the end of the grace, and a check. -/
def outageEvents : List ContainerEvent :=
  [.round (outage 0) 1700000000 (ContainerState.roundAt {} (outage 0) 1700000000).1,
    .checked { now := 1700000060 } (outageExitCode 1700000060 outageStart),
    .round (outage 180) 1700000180 (outageStart.roundAt (outage 180) 1700000180).1,
    .checked { now := 1700000240 } (outageExitCode 1700000240 outageEnd)]

theorem clockMonotonic_outageEvents : ClockMonotonic outageEvents := by
  have hall (o o' : RoundOutcome) (c c' : ℤ) :
      ∀ earlier ∈ List.inits [ContainerEvent.round (outage 0) 1700000000 o,
        .checked { now := 1700000060 } c, .round (outage 180) 1700000180 o',
        .checked { now := 1700000240 } c'],
      (ContainerHistory.ofEvents earlier).reports.Pairwise
        fun r r' => r.monotonic ≤ r'.monotonic := by
    have hle : (0 : ℚ) ≤ 180 := by norm_num
    cases o <;> cases o' <;>
      simp [ContainerHistory.ofEvents, ContainerHistory.next, outage, hle]
  refine clockMonotonic_of_inits ?_
  rw [outageEvents]
  exact hall _ _ _ _

/-- The histories until the two checks. -/
theorem trace_outageEvents :
    Trace (ContainerStep Json.typeName (fun _ => "") {}) {} (outageEvents.take 1) outageStart ∧
      Trace (ContainerStep Json.typeName (fun _ => "") {}) {} (outageEvents.take 3) outageEnd := by
  have hfirst : Trace (ContainerStep Json.typeName (fun _ => "") {}) {} (outageEvents.take 1)
      outageStart := by
    rw [outageEvents, outageStart]
    exact Trace.nil.snoc (ContainerState.roundAt_step {} (outage 0) 1700000000)
  have hlast := (hfirst.snoc (.checked { now := 1700000060 })).snoc
    (ContainerState.roundAt_step outageStart (outage 180) 1700000180)
  rw [outageEvents] at hlast ⊢
  exact ⟨hfirst, hlast⟩

/-- The two checks. -/
theorem outageExitCode_spec :
    outageExitCode 1700000060 outageStart = 0 ∧ outageExitCode 1700000240 outageEnd ≠ 0 := by
  have hstart := @outageExitCode_eq_zero_iff {} (outage 0) 1700000000 .degraded 1700000060
    (by decide +kernel) (by decide) (by decide +kernel)
  have hend := @outageExitCode_eq_zero_iff outageStart (outage 180) 1700000180 .unhealthy 1700000240
    (by decide +kernel) (by decide) (by decide +kernel)
  rw [outageEnd, Ne, hend, outageStart, hstart]
  simp

/-- The check passes within the grace, and fails after it. -/
theorem container_healthy_iff_outage :
    (outageExitCode 1700000060 outageStart = 0 ∧
      ContainerHealthy {} (ContainerHistory.ofEvents (outageEvents.take 1))
        { now := 1700000060 }) ∧
    (outageExitCode 1700000240 outageEnd ≠ 0 ∧
      ¬ ContainerHealthy {} (ContainerHistory.ofEvents (outageEvents.take 3))
        { now := 1700000240 }) := by
  obtain ⟨hpass, hfail⟩ := outageExitCode_spec
  have hiff := container_healthy_iff Json.typeName (fun _ => "") {} outageEvents
    clockMonotonic_outageEvents
  have hfirst := hiff 1 (.checked { now := 1700000060 } (outageExitCode 1700000060 outageStart))
    outageStart outageStart rfl trace_outageEvents.1 (.checked { now := 1700000060 })
  have hsecond := hiff 3 (.checked { now := 1700000240 } (outageExitCode 1700000240 outageEnd))
    outageEnd outageEnd rfl trace_outageEvents.2 (.checked { now := 1700000240 })
  exact ⟨⟨hpass, hfirst.mp hpass⟩, hfail, mt hsecond.mpr hfail⟩

end BybitMonitor
