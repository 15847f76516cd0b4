import Mathlib
import BybitMonitor.Health.Grace
import BybitMonitor.Persistence.KeyValue

/-!
# The persisted health snapshot

`HealthMonitor.persist_snapshot` and one round of `run_forever`, which takes a snapshot and persists
it. A round that raises is logged, and the next one follows.

* `HealthState.loads_payload`: what is persisted is read back field by field.
* `HealthMonitor.round_cases`: what a round does to the monitor and to the table `kv`.
-/

namespace BybitMonitor

/-- The name of a verdict. -/
def Overall.name : Overall → String
  | healthy => "healthy"
  | degraded => "degraded"
  | unhealthy => "unhealthy"

/-- The name of a degradation. -/
def DegradedIssue.name : DegradedIssue → String
  | telegram => "telegram"
  | retryQueue => "retry_queue"

namespace HealthState

/-- `"ok"` or `"fail"`. -/
def okText (good : Bool) : Json := .string (if good then "ok" else "fail")

/-- An age, which may be `None`. -/
def ageValue : Option ℤ → Json
  | none => .null
  | some seconds => .int seconds

/-- A list of names. -/
def namesValue (names : List String) : Json := .array (names.map .string)

/-- The members of the payload of `persist_snapshot`. -/
def payloadFields (self : HealthState) (now : ℤ) : List (String × Json) :=
  [("last_updated_at", .int now),
    ("overall", .string self.overall.name),
    ("database", okText self.databaseHealthy),
    ("dispatcher", okText self.dispatcherHealthy),
    ("rest", okText self.restHealthy),
    ("spot_ws", okText self.spotWsConnected),
    ("linear_ws", okText self.linearWsConnected),
    ("last_discovery_age", ageValue self.lastDiscoveryAge),
    ("last_spot_ticker_age", ageValue self.lastSpotTickerAge),
    ("last_linear_ticker_age", ageValue self.lastLinearTickerAge),
    ("critical_issues", namesValue (self.criticalIssues.map CriticalIssue.name)),
    ("pending_critical_issues", namesValue self.pendingCriticalIssues),
    ("degraded_issues", namesValue (self.degradedIssues.map DegradedIssue.name))]

/-- The payload of `persist_snapshot`. -/
def payload (self : HealthState) (now : ℤ) : Json := .object (self.payloadFields now)

theorem wellFormed_ageValue (seconds : Option ℤ) : (ageValue seconds).WellFormed := by
  cases seconds with
  | none => exact .null
  | some seconds => exact .int seconds

theorem wellFormed_namesValue (names : List String) : (namesValue names).WellFormed := by
  refine .array fun v hv => ?_
  obtain ⟨name, -, rfl⟩ := List.mem_map.mp hv
  exact .string name

theorem keys_payloadFields (self : HealthState) (now : ℤ) :
    ((self.payloadFields now).map Prod.fst).Nodup := by
  simp [payloadFields]

theorem wellFormed_payload (self : HealthState) (now : ℤ) : (self.payload now).WellFormed := by
  refine .object (self.keys_payloadFields now) fun field hfield => ?_
  simp only [payloadFields, List.mem_cons, List.not_mem_nil, or_false] at hfield
  rcases hfield with rfl | rfl | rfl | rfl | rfl | rfl | rfl | rfl | rfl | rfl | rfl | rfl | rfl <;>
    first
    | exact .int _
    | exact .string _
    | exact wellFormed_ageValue _
    | exact wellFormed_namesValue _

/-- What is persisted is read back: the text has each member of the payload. -/
theorem loads_payload {self : HealthState} {now : ℤ} {text : String}
    (h : Json.dumps (self.payload now) = .ok text) :
    ∃ fields, Json.loads text = .ok (.object fields) ∧
      ∀ field ∈ self.payloadFields now, fields.lookup field.1 = some field.2.sortKeys := by
  obtain ⟨fields, hsorted, hfields⟩ := Json.lookup_sortKeys (self.keys_payloadFields now)
  refine ⟨fields, ?_, hfields⟩
  rw [Json.loads_dumps (self.wellFormed_payload now) h, payload, hsorted]

end HealthState

namespace HealthMonitor

/-- The key of the snapshot. -/
def snapshotKey : String := "health:snapshot"

/-- `persist_snapshot` of a monitor with a repository, which the payload and `kv_set` give two
readings of the clock. -/
def persistSnapshot (faults : KvFaults) (now kvNow : ℤ) (state : HealthState) :
    Db PyExc (List KvRow) Unit :=
  Repository.kvSetJson faults kvNow snapshotKey (state.payload now)

/-- Persisting writes the text of the payload, or raises and leaves the table as it was. -/
theorem persistSnapshot_run (faults : KvFaults) (now kvNow : ℤ) (state : HealthState)
    (rows : List KvRow) :
    (∃ exc, (persistSnapshot faults now kvNow state).run ⟨rows, none⟩ =
      (.error exc, ⟨rows, none⟩)) ∨
    ∃ text, Json.dumps (state.payload now) = .ok text ∧
      (persistSnapshot faults now kvNow state).run ⟨rows, none⟩ =
        (.ok (), ⟨Repository.kvUpsert snapshotKey text kvNow rows, none⟩) :=
  Repository.kvSetJson_run faults kvNow snapshotKey (state.payload now) rows

end HealthMonitor

/-! ## The loop -/

/-- What a round of `run_forever` does. What it raises is logged. -/
inductive RoundOutcome
  /-- `snapshot` raises. -/
  | raised (exc : PyExc)
  /-- `persist_snapshot` raises. -/
  | unpersisted (state : HealthState) (exc : PyExc)
  | persisted (state : HealthState)

/-- One round of `run_forever`, which takes a snapshot and persists it. -/
def HealthMonitor.round (config : Settings) (self : HealthMonitor) (readings : HealthReadings)
    (faults : KvFaults) (now kvNow : ℤ) (rows : List KvRow) :
    RoundOutcome × HealthMonitor × List KvRow :=
  match self.snapshot config readings with
  | .error exc => (.raised exc, self, rows)
  | .ok (state, monitor) =>
      match (persistSnapshot faults now kvNow state).run ⟨rows, none⟩ with
      | (.ok (), conn) => (.persisted state, monitor, conn.committed)
      | (.error exc, conn) => (.unpersisted state exc, monitor, conn.committed)

/-- What a round does. -/
theorem HealthMonitor.round_cases {config : Settings} {self monitor : HealthMonitor}
    {readings : HealthReadings} {faults : KvFaults} {now kvNow : ℤ} {rows rows' : List KvRow}
    {outcome : RoundOutcome}
    (h : self.round config readings faults now kvNow rows = (outcome, monitor, rows')) :
    (∃ exc, outcome = .raised exc ∧ monitor = self ∧ rows' = rows) ∨
      ∃ state, self.snapshot config readings = .ok (state, monitor) ∧
        ((∃ exc, outcome = .unpersisted state exc ∧ rows' = rows) ∨
          ∃ text, Json.dumps (state.payload now) = .ok text ∧ outcome = .persisted state ∧
            rows' = Repository.kvUpsert snapshotKey text kvNow rows) := by
  unfold round at h
  cases hsnapshot : self.snapshot config readings with
  | error exc =>
      rw [hsnapshot] at h
      cases h
      exact Or.inl ⟨exc, rfl, rfl, rfl⟩
  | ok result =>
      obtain ⟨state, monitor'⟩ := result
      rcases persistSnapshot_run faults now kvNow state rows with ⟨exc, hrun⟩ | ⟨text, htext, hrun⟩
      · simp only [hsnapshot, hrun] at h
        cases h
        exact Or.inr ⟨state, rfl, Or.inl ⟨exc, rfl, rfl⟩⟩
      · simp only [hsnapshot, hrun] at h
        cases h
        exact Or.inr ⟨state, rfl, Or.inr ⟨text, htext, rfl, rfl⟩⟩

end BybitMonitor
