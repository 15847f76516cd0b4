import Mathlib
import BybitMonitor.Alerts.Cycle
import BybitMonitor.ToMathlib.Trace

/-!
# Runs of committed cycles

A run evaluates and persists one cycle after the other from an empty table, and a fresh machine may
replace the old one between any two cycles.

* `RunInvariant`: the row stands for the phase of the whole history, and records the last
  classification and the hour bucket that was claimed last.
* `Run.invariant`: every run keeps it.
-/

namespace BybitMonitor

/-- A committed cycle: whether a fresh machine took over before it, its input and its decision. -/
structure Cycle where
  restarted : Bool := false
  qualifying : QualifyingSet
  now : ℤ
  decision : AlertDecision
  deriving DecidableEq, Repr

/-- The machine object and the table that it writes. -/
structure MachineState where
  machine : AlertStateMachine
  row : Option AlertState
  deriving DecidableEq, Repr

/-- A fresh machine on an empty table. -/
def MachineState.start (config : AdmittedSettings) : MachineState where
  machine := { config := config.toSettings }
  row := none

/-- `evaluate` and `persist_no_commit` of the old machine, or of a fresh one. -/
def MachineState.cycle (config : AdmittedSettings) (self : MachineState) (restarted : Bool)
    (qualifying : QualifyingSet) (now : ℤ) : Except PyExc (AlertDecision × MachineState) := do
  let machine := if restarted then { config := config.toSettings } else self.machine
  -- both machines read the row, never what the old one has cached
  let (decision, state) ← machine.evaluate self.row qualifying now
  let row ← AlertStateMachine.persistNoCommit state
  return (decision, { machine, row := some row })

/-- One committed cycle. -/
def CycleStep (config : AdmittedSettings) (s : MachineState) (cycle : Cycle) (s' : MachineState) :
    Prop :=
  s.cycle config cycle.restarted cycle.qualifying cycle.now = .ok (cycle.decision, s')

/-- A run of committed cycles from an empty table. -/
def Run (config : AdmittedSettings) (cycles : List Cycle) (s : MachineState) : Prop :=
  Trace (CycleStep config) (MachineState.start config) cycles s

/-- The classification of the cycle before index `k`, and `EMPTY` before the first cycle. -/
def classificationBefore (config : AdmittedSettings) (cycles : List Cycle) (k : ℕ) : GroupState :=
  match (cycles.take k).getLast? with
  | none => .empty
  | some cycle => config.classify cycle.qualifying

/-- Whether a cycle claims its hourly bucket. -/
def Cycle.claimsHour (self : Cycle) : Bool :=
  self.decision.liveTransition || self.decision.hourlyUpdate

/-- The hour bucket that a run has claimed last. -/
def lastClaim (cycles : List Cycle) : Option String :=
  (cycles.filter Cycle.claimsHour).getLast?.map fun cycle => hourText (cycle.now / 3600)

/-- The phase of the debounce automaton after a run. -/
def runPhase (config : AdmittedSettings) (cycles : List Cycle) : Debounce.Phase ℤ :=
  Debounce.phase config.debounce (fun cycle => config.inRange cycle.qualifying) Cycle.now cycles

/-- What the row says about the run that wrote it. -/
structure RunInvariant (config : AdmittedSettings) (cycles : List Cycle) (s : MachineState) :
    Prop where
  machine_config : s.machine.config = config.toSettings
  wellFormed : (AlertStateRepository.load s.row).WellFormed
  phase_eq : (AlertStateRepository.load s.row).phase = runPhase config cycles
  state_eq : (AlertStateRepository.load s.row).state =
    classificationBefore config cycles cycles.length
  bucket_eq : (AlertStateRepository.load s.row).lastHourlyBucket = lastClaim cycles

/-- A committed cycle evaluates the loaded row and writes the resulting one. -/
theorem CycleStep.cases {config : AdmittedSettings} {s s' : MachineState} {cycle : Cycle}
    (hconfig : s.machine.config = config.toSettings)
    (hrow : (AlertStateRepository.load s.row).WellFormed) (h : CycleStep config s cycle s') :
    s'.machine.config = config.toSettings ∧
      CycleSpec config (AlertStateRepository.load s.row) cycle.qualifying cycle.now
        cycle.decision (AlertStateRepository.load s'.row) ∧
      (AlertStateRepository.load s'.row).WellFormed := by
  obtain ⟨⟨decision, state⟩, hevaluate, h⟩ := PyExc.bind_eq_ok.mp h
  obtain ⟨row, hpersist, h⟩ := PyExc.bind_eq_ok.mp h
  obtain ⟨rfl, rfl⟩ := Prod.mk.inj (Except.ok.inj h)
  -- a fresh machine and the old one have the same settings
  have hmachine : (if cycle.restarted then { config := config.toSettings } else s.machine :
      AlertStateMachine).config = config.toSettings := by
    split
    · rfl
    · exact hconfig
  have hspec := AlertStateMachine.evaluate_spec hmachine hrow hevaluate
  obtain ⟨hbinds, rfl⟩ :=
    (AlertStateMachine.persistNoCommit_eq_ok_iff hspec.fingerprint_eq).mp hpersist
  exact ⟨hmachine, hspec, hspec.wellFormed hbinds⟩

theorem lastClaim_append (cycles : List Cycle) (cycle : Cycle) :
    lastClaim (cycles ++ [cycle]) =
      if cycle.claimsHour then some (hourText (cycle.now / 3600)) else lastClaim cycles := by
  rw [lastClaim, List.filter_append]
  by_cases hclaim : cycle.claimsHour = true
  · simp [hclaim]
  · simp [hclaim, lastClaim]

theorem classificationBefore_append {config : AdmittedSettings} {cycles : List Cycle} {k : ℕ}
    (hk : k ≤ cycles.length) (cycle : Cycle) :
    classificationBefore config (cycles ++ [cycle]) k = classificationBefore config cycles k := by
  rw [classificationBefore, List.take_append_of_le_length hk, classificationBefore]

/-- The classification before the end of a run is the one of its last cycle. -/
theorem classificationBefore_last {config : AdmittedSettings} (cycles : List Cycle)
    (cycle : Cycle) :
    classificationBefore config (cycles ++ [cycle]) (cycles.length + 1) =
      config.classify cycle.qualifying := by
  rw [classificationBefore, List.take_of_length_le (by simp), List.getLast?_concat]

/-- One cycle keeps the invariant. -/
theorem RunInvariant.step {config : AdmittedSettings} {cycles : List Cycle} {s s' : MachineState}
    {cycle : Cycle} (hs : RunInvariant config cycles s) (h : CycleStep config s cycle s') :
    RunInvariant config (cycles ++ [cycle]) s' := by
  obtain ⟨hconfig, hspec, hrow⟩ := h.cases hs.machine_config hs.wellFormed
  -- phase, classification and bucket each grow by the new cycle
  refine ⟨hconfig, hrow, ?_, ?_, ?_⟩
  · rw [hspec.phase_eq, hs.phase_eq, runPhase, runPhase, Debounce.phase_append_singleton]
  · rw [hspec.state_eq, List.length_append, List.length_singleton, classificationBefore_last]
  · rw [hspec.lastHourlyBucket_eq, hs.bucket_eq, lastClaim_append]
    rfl

/-- Every run keeps the invariant. -/
theorem Run.invariant {config : AdmittedSettings} {cycles : List Cycle} {s : MachineState}
    (h : Run config cycles s) : RunInvariant config cycles s := by
  refine Trace.invariant ?_ (fun _ _ _ _ _ hs hstep => hs.step hstep) h
  exact ⟨rfl, AlertState.wellFormed_initial, rfl, rfl, rfl⟩

/-- The cycle at index `k` of a run, with what the row before it says about the first `k`
cycles. -/
theorem Run.cycle_at {config : AdmittedSettings} {cycles : List Cycle} {s : MachineState}
    (h : Run config cycles s) {k : ℕ} {cycle : Cycle} (hk : cycles[k]? = some cycle) :
    ∃ s₁ s₂, RunInvariant config (cycles.take k) s₁ ∧ Run config (cycles.take k) s₁ ∧
      CycleSpec config (AlertStateRepository.load s₁.row) cycle.qualifying cycle.now
        cycle.decision (AlertStateRepository.load s₂.row) ∧
      RunInvariant config (cycles.take (k + 1)) s₂ := by
  obtain ⟨s₁, s₂, h₁, hstep, h₂⟩ := Trace.step_at h hk
  have hs₁ := Run.invariant h₁
  exact ⟨s₁, s₂, hs₁, h₁, (hstep.cases hs₁.machine_config hs₁.wellFormed).2.1, Run.invariant h₂⟩

/-- The input of a cycle: whether a fresh machine takes over, the qualifying set and the time. -/
abbrev CycleInput := Bool × QualifyingSet × ℤ

/-- Execute cycles from an empty table until one of them raises. -/
def runCycles (config : AdmittedSettings) (inputs : List CycleInput) : List Cycle × MachineState :=
  Trace.exec
    (fun s (restarted, qualifying, now) =>
      match s.cycle config restarted qualifying now with
      | .ok (decision, s') => some ({ restarted, qualifying, now, decision }, s')
      | .error _ => none)
    (MachineState.start config) [] inputs

theorem run_runCycles (config : AdmittedSettings) (inputs : List CycleInput) :
    Run config (runCycles config inputs).1 (runCycles config inputs).2 := by
  refine Trace.exec_trace (fun s input cycle s' h => ?_) inputs Trace.nil
  obtain ⟨restarted, qualifying, now⟩ := input
  dsimp only at h
  split at h
  · rename_i decision s'' hcycle
    obtain ⟨rfl, rfl⟩ := Prod.mk.inj (Option.some.inj h)
    exact hcycle
  · cases h

end BybitMonitor
