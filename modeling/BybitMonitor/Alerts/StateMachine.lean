import Mathlib
import BybitMonitor.Config
import BybitMonitor.Market.Deduplication
import BybitMonitor.Persistence.AlertState
import BybitMonitor.Python.Time

/-!
# The alert state machine

`AlertStateMachine.evaluate` computes the decision and the next persisted state of one update cycle
from the stored `alert_state` row, and `AlertStateMachine.persistNoCommit` the row that is written
for it.

* `AlertStateMachine.RangeOutcome`: the ways through the debounce part of a cycle.
* `AlertStateMachine.evaluateHourly_outcome`: what the hourly part adds.
-/

namespace BybitMonitor

/-- `classify_state`. -/
def classifyState (count minCoins maxCoins : ℤ) : GroupState :=
  if count < minCoins then .empty
  else if count ≤ maxCoins then .activeRange
  else .overRange

/-- UTC hourly bucket identifier. -/
def hourlyBucket (ts : ℤ) : Except PyExc String := gmtime ts >>= strftimeHour

/-- What the state machine wants done for one update cycle. -/
structure AlertDecision where
  state : GroupState
  qualifyingCount : ℕ
  fingerprint : List String
  liveTransition : Bool := false
  compositionUpdate : Bool := false
  hourlyUpdate : Bool := false
  transitionReason : String := ""
  deriving DecidableEq, Repr

/-- The machine object: its configuration and the state it cached on the test path. -/
structure AlertStateMachine where
  config : Settings
  cached : Option AlertState := none
  deriving DecidableEq, Repr

namespace AlertStateMachine

/-- `AlertStateMachine._maybe_composition_update`. -/
def maybeCompositionUpdate (config : Settings) (decision : AlertDecision) (state : AlertState)
    (now : ℤ) : Except PyExc (AlertDecision × AlertState) :=
  let updated := ({ decision with compositionUpdate := true },
    { state with lastCompositionAt := some now })
  if config.compositionChangeAlerts then
    match state.lastCompositionAt with
    | none => return updated
    | some last => do
        let cooldown ← config.compositionChangeCooldownSeconds.toInt
        -- an update within the cooldown is dropped, not postponed
        if now - last < cooldown then return (decision, state) else return updated
  else return (decision, state)

/-- A debounced transition: the live alert, which owns the hourly bucket, or a silent one. -/
def settleTransition (config : Settings) (prevState : GroupState) (decision : AlertDecision)
    (state : AlertState) (now : ℤ) : Except PyExc (AlertDecision × AlertState) :=
  if config.immediateTransitionAlerts then do
    -- a transition alert owns the hourly bucket
    let bucket ← hourlyBucket now
    let reason := (state.pendingFrom.getD prevState).name ++ " -> " ++ decision.state.name
    return ({ decision with liveTransition := true, transitionReason := reason },
      { state with lastTransitionAt := some now, lastHourlyBucket := some bucket,
                   pendingSince := none, pendingFrom := none })
  else return (decision, { state with pendingSince := none, pendingFrom := none })

/-- The stored state with the range entered at `now` if it was not entered before. -/
def entered (stored : AlertState) (now : ℤ) : AlertState :=
  if stored.state ≠ .activeRange ∧ stored.pendingSince = none then
    { stored with pendingSince := some now, pendingFrom := some stored.state }
  else stored

/-- The debounce part of `evaluate`: entering, waiting for, confirming and leaving the range. -/
def evaluateRange (config : Settings) (decision : AlertDecision) (stored : AlertState)
    (now : ℤ) : Except PyExc (AlertDecision × AlertState) :=
  if decision.state = .activeRange then
    let state := entered stored now
    match state.pendingSince with
    | none => do
        -- stable in the active range: only composition updates apply
        let prevFingerprint ← decodeFingerprint state.fingerprint
        if decision.fingerprint ≠ prevFingerprint then
          maybeCompositionUpdate config decision state now
        else return (decision, state)
    | some pending => do
        let debounce ← config.alertDebounceSeconds.toInt
        if now - pending ≥ debounce then
          settleTransition config stored.state decision state now
        else return (decision, state)
  -- leaving the range cancels any pending transition
  else return (decision, { stored with pendingSince := none, pendingFrom := none })

/-- The hourly part of `evaluate`. -/
def evaluateHourly (config : Settings) (decision : AlertDecision) (state : AlertState)
    (now : ℤ) : Except PyExc (AlertDecision × AlertState) :=
  if decision.state = .activeRange ∧ state.pendingSince = none ∧
      config.hourlyActiveAlerts = true ∧ decision.liveTransition = false then do
    let bucket ← hourlyBucket now
    if state.lastHourlyBucket ≠ some bucket then
      return ({ decision with hourlyUpdate := true },
        { state with lastHourlyBucket := some bucket })
    else return (decision, state)
  else return (decision, state)

/-- `AlertStateMachine.evaluate`: the next decision and state, from the stored row. -/
def evaluate (self : AlertStateMachine) (row : Option AlertState) (qualifying : QualifyingSet)
    (now : ℤ) : Except PyExc (AlertDecision × AlertState) := do
  let stored := AlertStateRepository.load row
  let newState := classifyState qualifying.count self.config.minQualifyingCoins
    self.config.maxQualifyingCoins
  let decision : AlertDecision :=
    { state := newState
      qualifyingCount := qualifying.count
      fingerprint := qualifying.fingerprint }
  let (decision, state) ← evaluateRange self.config decision stored now
  -- runs for every state, but emits in a confirmed range only
  let (decision, state) ← evaluateHourly self.config decision state now
  return (decision, { state with state := newState
                                 fingerprint := JsonText.dumps qualifying.fingerprint
                                 updatedAt := now })

/-- `AlertStateMachine.persist_no_commit`: the fingerprint is decoded and encoded again on the
way to the row. -/
def persistNoCommit (state : AlertState) : Except PyExc AlertState := do
  let fingerprint ← decodeFingerprint state.fingerprint
  AlertStateRepository.saveNoCommit state fingerprint

/-! ## What one cycle decides -/

section Outcomes

variable {config : AdmittedSettings} {stored state : AlertState} {now : ℤ}
  {decision decision' : AlertDecision}

/-- Composition updates are on, the coins differ from the stored ones, and the cooldown has passed
since the last update. -/
def CompositionDue (config : AdmittedSettings) (stored : AlertState) (coins : List String)
    (now : ℤ) : Prop :=
  config.compositionChangeAlerts = true ∧ stored.fingerprint ≠ JsonText.dumps coins ∧
    ∀ last ∈ stored.lastCompositionAt, config.cooldown ≤ now - last

/-- The ways through the debounce part of a cycle. -/
inductive RangeOutcome (config : AdmittedSettings) (decision : AlertDecision)
    (stored : AlertState) (now : ℤ) : AlertDecision → AlertState → Prop
  | outside (hstate : decision.state ≠ .activeRange) :
      RangeOutcome config decision stored now decision
        { stored with pendingSince := none, pendingFrom := none }
  | waits {since : ℤ} (hstate : decision.state = .activeRange)
      (hsince : (entered stored now).pendingSince = some since)
      (hdelay : ¬ config.debounce ≤ now - since) :
      RangeOutcome config decision stored now decision (entered stored now)
  | announced {since : ℤ} (hstate : decision.state = .activeRange)
      (hsince : (entered stored now).pendingSince = some since)
      (hdelay : config.debounce ≤ now - since)
      (hon : config.immediateTransitionAlerts = true) (haccepts : strftimeAccepts now = true) :
      RangeOutcome config decision stored now
        { decision with
          liveTransition := true
          transitionReason := stored.origin.name ++ " -> " ++ decision.state.name }
        { stored with
          lastTransitionAt := some now
          lastHourlyBucket := some (hourText (now / 3600))
          pendingSince := none
          pendingFrom := none }
  | silent {since : ℤ} (hstate : decision.state = .activeRange)
      (hsince : (entered stored now).pendingSince = some since)
      (hdelay : config.debounce ≤ now - since)
      (hoff : config.immediateTransitionAlerts = false) :
      RangeOutcome config decision stored now decision
        { stored with pendingSince := none, pendingFrom := none }
  | stable (hstate : decision.state = .activeRange) (hphase : stored.phase = .confirmed)
      (hdue : ¬ CompositionDue config stored decision.fingerprint now) :
      RangeOutcome config decision stored now decision stored
  | recomposed (hstate : decision.state = .activeRange) (hphase : stored.phase = .confirmed)
      (hdue : CompositionDue config stored decision.fingerprint now) :
      RangeOutcome config decision stored now { decision with compositionUpdate := true }
        { stored with lastCompositionAt := some now }

/-- A time that `strftime` refuses has no bucket. -/
theorem hourlyBucket_late (hgmtime : gmtimeAccepts now = true)
    (hlate : strftimeAccepts now = false) : hourlyBucket now = .error yearOverflow := by
  obtain ⟨t, ht, hyear⟩ := strftimeYear_gmtime_late hgmtime hlate
  rw [hourlyBucket, ht]
  change strftimeHour t = .error yearOverflow
  rw [strftimeHour, hyear]
  rfl

theorem hourlyBucket_eq_ok_iff {bucket : String} :
    hourlyBucket now = .ok bucket ↔
      strftimeAccepts now = true ∧ bucket = hourText (now / 3600) := by
  cases haccepts : strftimeAccepts now with
  | true =>
      rw [hourlyBucket, strftimeHour_gmtime haccepts]
      simp [eq_comm]
  | false =>
      by_cases hgmtime : gmtimeAccepts now = true
      · rw [hourlyBucket_late hgmtime haccepts]
        simp
      · rw [hourlyBucket, gmtime, if_neg hgmtime]
        split <;> simp [bind, Except.bind]

/-- An entered range waits since the time that the automaton waits since. -/
theorem enter_phase {since : ℤ} (hstored : stored.WellFormed)
    (hsince : (entered stored now).pendingSince = some since) :
    stored.phase.enter now = .waiting since ∧ stored.phase ≠ .confirmed := by
  -- inside the range the pending time is stored; outside the range is entered now
  by_cases hstate : stored.state = .activeRange
  · rw [entered, if_neg (by simp [hstate])] at hsince
    rw [AlertState.phase_eq_waiting_iff.mpr ⟨hstate, hsince⟩]
    exact ⟨rfl, by simp⟩
  · have hpending := hstored.pending_active hstate
    rw [entered, if_pos ⟨hstate, hpending⟩] at hsince
    rw [AlertState.phase_eq_idle_iff.mpr hstate, ← Option.some.inj hsince]
    exact ⟨rfl, by simp⟩

/-- A range that is entered without a pending transition was confirmed before. -/
theorem confirmed_of_entered (hstored : stored.WellFormed)
    (hsince : (entered stored now).pendingSince = none) :
    stored.phase = .confirmed ∧ entered stored now = stored := by
  -- a range that is entered in this cycle is pending, so that it was entered before
  by_cases hstate : stored.state = .activeRange
  · rw [entered, if_neg (by simp [hstate])] at hsince ⊢
    exact ⟨AlertState.phase_eq_confirmed_iff.mpr ⟨hstate, hsince⟩, rfl⟩
  · rw [entered, if_pos ⟨hstate, hstored.pending_active hstate⟩] at hsince
    cases hsince

/-- The state that a pending transition started from. -/
theorem entered_pendingFrom (hstored : stored.WellFormed) {since : ℤ}
    (hsince : (entered stored now).pendingSince = some since) :
    (entered stored now).pendingFrom.getD .activeRange = stored.origin ∧
      (entered stored now).pendingFrom.getD stored.state = stored.origin := by
  by_cases hstate : stored.state = .activeRange
  · rw [entered, if_neg (by simp [hstate])] at hsince ⊢
    rw [AlertState.origin, hsince, hstate]
    exact ⟨rfl, rfl⟩
  · have hpending := hstored.pending_active hstate
    rw [entered, if_pos ⟨hstate, hpending⟩, AlertState.origin, hpending]
    exact ⟨rfl, rfl⟩

/-- Entering the range changes the pending fields only, which an announced transition clears. -/
theorem entered_announced (stored : AlertState) (now : ℤ) (transition : Option ℤ)
    (bucket : Option String) :
    { entered stored now with
      lastTransitionAt := transition, lastHourlyBucket := bucket, pendingSince := none,
      pendingFrom := none } =
    { stored with
      lastTransitionAt := transition, lastHourlyBucket := bucket, pendingSince := none,
      pendingFrom := none } := by
  rw [entered]
  split <;> rfl

/-- A silent transition clears them as well. -/
theorem entered_silent (stored : AlertState) (now : ℤ) :
    { entered stored now with pendingSince := none, pendingFrom := none } =
    { stored with pendingSince := none, pendingFrom := none } := by
  rw [entered]
  split <;> rfl

theorem settleTransition_outcome {since : ℤ} (hstored : stored.WellFormed)
    (hstate : decision.state = .activeRange)
    (hsince : (entered stored now).pendingSince = some since)
    (hdelay : config.debounce ≤ now - since)
    (h : settleTransition config.toSettings stored.state decision (entered stored now) now =
      .ok (decision', state)) :
    RangeOutcome config decision stored now decision' state := by
  -- the branches of the switch `immediate_transition_alerts`
  rw [settleTransition] at h
  split at h
  · rename_i hon
    obtain ⟨bucket, hbucket, h⟩ := PyExc.bind_eq_ok.mp h
    obtain ⟨haccepts, rfl⟩ := hourlyBucket_eq_ok_iff.mp hbucket
    obtain ⟨rfl, rfl⟩ := Prod.mk.inj (Except.ok.inj h)
    rw [entered_announced, (entered_pendingFrom hstored hsince).2]
    exact .announced hstate hsince hdelay hon haccepts
  · rename_i hoff
    obtain ⟨rfl, rfl⟩ := Prod.mk.inj (Except.ok.inj h)
    rw [entered_silent]
    exact .silent hstate hsince hdelay (by simpa using hoff)

theorem maybeCompositionUpdate_outcome (hstate : decision.state = .activeRange)
    (hphase : stored.phase = .confirmed)
    (hcoins : stored.fingerprint ≠ JsonText.dumps decision.fingerprint)
    (h : maybeCompositionUpdate config.toSettings decision stored now = .ok (decision', state)) :
    RangeOutcome config decision stored now decision' state := by
  rw [maybeCompositionUpdate] at h
  split at h
  · rename_i hon
    -- the cooldown counts from the last update, if there was one
    cases hlast : stored.lastCompositionAt with
    | none =>
        rw [hlast] at h
        obtain ⟨rfl, rfl⟩ := Prod.mk.inj (Except.ok.inj h)
        exact .recomposed hstate hphase ⟨hon, hcoins, by simp [hlast]⟩
    | some last =>
        simp only [hlast] at h
        rw [config.cooldown_spec.1] at h
        obtain ⟨cooldown, hcooldown, h⟩ := PyExc.bind_eq_ok.mp h
        obtain rfl := Except.ok.inj hcooldown
        split at h
        · rename_i hrecent
          obtain ⟨rfl, rfl⟩ := Prod.mk.inj (Except.ok.inj h)
          refine .stable hstate hphase fun hdue => ?_
          have := hdue.2.2 last hlast
          omega
        · rename_i hpassed
          obtain ⟨rfl, rfl⟩ := Prod.mk.inj (Except.ok.inj h)
          refine .recomposed hstate hphase ⟨hon, hcoins, fun last' hlast' => ?_⟩
          obtain rfl : last = last' := Option.some.inj (hlast.symm.trans hlast')
          exact not_lt.mp hpassed
  · rename_i hoff
    obtain ⟨rfl, rfl⟩ := Prod.mk.inj (Except.ok.inj h)
    exact .stable hstate hphase fun hdue => hoff hdue.1

/-- Every way through the debounce part of a cycle is one of `RangeOutcome`. -/
theorem evaluateRange_outcome (hstored : stored.WellFormed)
    (h : evaluateRange config.toSettings decision stored now = .ok (decision', state)) :
    RangeOutcome config decision stored now decision' state := by
  rw [evaluateRange] at h
  split at h
  · rename_i hstate
    -- no pending transition: the range is confirmed, and only its composition may change
    cases hsince : (entered stored now).pendingSince with
    | none =>
        obtain ⟨hphase, hsame⟩ := confirmed_of_entered hstored hsince
        obtain ⟨coins, hcoins⟩ := hstored.encoded
        simp only [hsince] at h
        rw [hsame, hcoins, decodeFingerprint_dumps] at h
        obtain ⟨_, hstoredCoins, h⟩ := PyExc.bind_eq_ok.mp h
        obtain rfl := Except.ok.inj hstoredCoins
        split at h
        · rename_i hchanged
          exact maybeCompositionUpdate_outcome hstate hphase
            (by rw [hcoins]; exact fun heq => hchanged (JsonText.dumps_injective heq).symm) h
        · rename_i hsame'
          obtain ⟨rfl, rfl⟩ := Prod.mk.inj (Except.ok.inj h)
          refine .stable hstate hphase fun hdue => hdue.2.1 ?_
          rw [hcoins, not_not.mp hsame']
    | some since =>
        simp only [hsince] at h
        rw [config.debounce_spec.1] at h
        obtain ⟨debounce, hdebounce, h⟩ := PyExc.bind_eq_ok.mp h
        obtain rfl := Except.ok.inj hdebounce
        split at h
        · rename_i hdelay
          exact settleTransition_outcome hstored hstate hsince hdelay h
        · rename_i hdelay
          obtain ⟨rfl, rfl⟩ := Prod.mk.inj (Except.ok.inj h)
          exact .waits hstate hsince hdelay
  · rename_i hstate
    obtain ⟨rfl, rfl⟩ := Prod.mk.inj (Except.ok.inj h)
    exact .outside hstate

/-- The hourly update is on, the range is confirmed without a live alert in this cycle, and the
stored bucket is another hour's. -/
def HourlyDue (config : AdmittedSettings) (decision : AlertDecision) (state : AlertState)
    (now : ℤ) : Prop :=
  decision.state = .activeRange ∧ state.pendingSince = none ∧
    config.hourlyActiveAlerts = true ∧ decision.liveTransition = false ∧
    state.lastHourlyBucket ≠ some (hourText (now / 3600))

/-- The hourly part of a cycle emits and claims the bucket, or changes nothing. -/
theorem evaluateHourly_outcome (hnone : decision.hourlyUpdate = false)
    (h : evaluateHourly config.toSettings decision state now = .ok (decision', stored)) :
    ∃ hourly : Bool, (hourly = true ↔ HourlyDue config decision state now) ∧
      decision' = { decision with hourlyUpdate := hourly } ∧
      stored = { state with
        lastHourlyBucket :=
          if hourly then some (hourText (now / 3600)) else state.lastHourlyBucket } := by
  have hkept : decision = { decision with hourlyUpdate := false } := by rw [← hnone]
  rw [evaluateHourly] at h
  -- the guard of the hourly part, then the comparison of the buckets
  split at h
  · rename_i hactive
    obtain ⟨bucket, hbucket, h⟩ := PyExc.bind_eq_ok.mp h
    obtain ⟨-, rfl⟩ := hourlyBucket_eq_ok_iff.mp hbucket
    split at h
    · rename_i hother
      obtain ⟨rfl, rfl⟩ := Prod.mk.inj (Except.ok.inj h)
      obtain ⟨hstate, hpending, hon, hlive⟩ := hactive
      have hdue : HourlyDue config decision state now := ⟨hstate, hpending, hon, hlive, hother⟩
      exact ⟨true, iff_of_true rfl hdue, rfl, rfl⟩
    · rename_i hsame
      obtain ⟨rfl, rfl⟩ := Prod.mk.inj (Except.ok.inj h)
      exact ⟨false, iff_of_false (by simp) fun hdue => hsame hdue.2.2.2.2, hkept, rfl⟩
  · rename_i hinactive
    obtain ⟨rfl, rfl⟩ := Prod.mk.inj (Except.ok.inj h)
    refine ⟨false, iff_of_false (by simp) fun hdue => hinactive ?_, hkept, rfl⟩
    exact ⟨hdue.1, hdue.2.1, hdue.2.2.1, hdue.2.2.2.1⟩

end Outcomes

end AlertStateMachine

end BybitMonitor
