import Mathlib
import BybitMonitor.Alerts.StateMachine

/-!
# One update cycle

What `AlertStateMachine.evaluate` decides and stores, in terms of the debounce automaton that the
stored row stands for.

* `CycleSpec`: the specification of a cycle.
* `AlertStateMachine.evaluate_spec`: every cycle that returns meets it.
* `CycleSpec.wellFormed`: the row of a cycle is well formed.
-/

namespace BybitMonitor

namespace AdmittedSettings

variable (config : AdmittedSettings)

/-- The classification of a qualifying set. -/
def classify (qualifying : QualifyingSet) : GroupState :=
  classifyState qualifying.count config.minQualifyingCoins config.maxQualifyingCoins

/-- Whether the number of qualifying coins lies in the alert range. -/
def inRange (qualifying : QualifyingSet) : Bool :=
  config.minQualifyingCoins ≤ qualifying.count && (qualifying.count : ℤ) ≤ config.maxQualifyingCoins

theorem classify_eq_activeRange_iff {qualifying : QualifyingSet} :
    config.classify qualifying = .activeRange ↔ config.inRange qualifying = true := by
  rw [classify, classifyState, inRange, Bool.and_eq_true, decide_eq_true_iff, decide_eq_true_iff]
  split
  · rename_i hlow
    exact iff_of_false (by simp) fun hrange => absurd hrange.1 (not_le.mpr hlow)
  · rename_i hlow
    split
    · rename_i hhigh
      exact iff_of_true rfl ⟨not_lt.mp hlow, hhigh⟩
    · rename_i hhigh
      exact iff_of_false (by simp) fun hrange => hhigh hrange.2

end AdmittedSettings

/-- What one cycle decides and stores. -/
structure CycleSpec (config : AdmittedSettings) (stored : AlertState) (qualifying : QualifyingSet)
    (now : ℤ) (decision : AlertDecision) (state : AlertState) : Prop where
  decision_state : decision.state = config.classify qualifying
  decision_fingerprint : decision.fingerprint = qualifying.fingerprint
  live_iff : decision.liveTransition = true ↔ config.immediateTransitionAlerts = true ∧
    stored.phase.fires config.debounce (config.inRange qualifying) now
  reason : decision.liveTransition = true →
    decision.transitionReason = stored.origin.name ++ " -> " ++ GroupState.activeRange.name
  composition_iff : decision.compositionUpdate = true ↔ config.inRange qualifying = true ∧
    stored.phase = .confirmed ∧
    AlertStateMachine.CompositionDue config stored qualifying.fingerprint now
  hourly_iff : decision.hourlyUpdate = true ↔ config.hourlyActiveAlerts = true ∧
    state.phase = .confirmed ∧ decision.liveTransition = false ∧
    stored.lastHourlyBucket ≠ some (hourText (now / 3600))
  phase_eq : state.phase =
    stored.phase.step config.debounce (config.inRange qualifying) now
  state_eq : state.state = config.classify qualifying
  fingerprint_eq : state.fingerprint = JsonText.dumps qualifying.fingerprint
  updatedAt_eq : state.updatedAt = now
  pendingSince_eq : state.pendingSince = none ∨ state.pendingSince = some now ∨
    state.pendingSince = stored.pendingSince
  pending_active : state.state ≠ .activeRange → state.pendingSince = none
  lastTransitionAt_eq : state.lastTransitionAt =
    if decision.liveTransition then some now else stored.lastTransitionAt
  lastCompositionAt_eq : state.lastCompositionAt =
    if decision.compositionUpdate then some now else stored.lastCompositionAt
  lastHourlyBucket_eq : state.lastHourlyBucket =
    if decision.liveTransition || decision.hourlyUpdate then some (hourText (now / 3600))
    else stored.lastHourlyBucket
  origin_eq : ∀ since, state.phase = .waiting since → state.origin = stored.origin

namespace AlertStateMachine

variable {config : AdmittedSettings} {stored state : AlertState} {now : ℤ}
  {decision : AlertDecision} {qualifying : QualifyingSet}

/-- The decision before the debounce part has run. -/
def initialDecision (config : AdmittedSettings) (qualifying : QualifyingSet) : AlertDecision where
  state := config.classify qualifying
  qualifyingCount := qualifying.count
  fingerprint := qualifying.fingerprint

/-- The row that a cycle stores. -/
def stamped (config : AdmittedSettings) (qualifying : QualifyingSet) (now : ℤ)
    (state : AlertState) : AlertState :=
  { state with
    state := config.classify qualifying
    fingerprint := JsonText.dumps qualifying.fingerprint
    updatedAt := now }

/-- The two parts of a cycle. -/
theorem evaluate_parts {self : AlertStateMachine} {row : Option AlertState}
    (hself : self.config = config.toSettings)
    (h : self.evaluate row qualifying now = .ok (decision, state)) :
    ∃ decision₁ state₁ state₂,
      evaluateRange config.toSettings (initialDecision config qualifying)
        (AlertStateRepository.load row) now = .ok (decision₁, state₁) ∧
      evaluateHourly config.toSettings decision₁ state₁ now = .ok (decision, state₂) ∧
      state = stamped config qualifying now state₂ := by
  simp only [evaluate, hself] at h
  obtain ⟨⟨decision₁, state₁⟩, hrange, h⟩ := PyExc.bind_eq_ok.mp h
  obtain ⟨⟨decision₂, state₂⟩, hhourly, h⟩ := PyExc.bind_eq_ok.mp h
  obtain ⟨rfl, rfl⟩ := Prod.mk.inj (Except.ok.inj h)
  exact ⟨decision₁, state₁, state₂, hrange, hhourly, rfl⟩

/-- What the debounce part of a cycle decides and leaves for the hourly part. -/
structure RangeSpec (config : AdmittedSettings) (stored : AlertState)
    (qualifying : QualifyingSet) (now : ℤ) (decision : AlertDecision) (state : AlertState) :
    Prop where
  decision_state : decision.state = config.classify qualifying
  decision_fingerprint : decision.fingerprint = qualifying.fingerprint
  live_iff : decision.liveTransition = true ↔ config.immediateTransitionAlerts = true ∧
    stored.phase.fires config.debounce (config.inRange qualifying) now
  reason : decision.liveTransition = true →
    decision.transitionReason = stored.origin.name ++ " -> " ++ GroupState.activeRange.name
  composition_iff : decision.compositionUpdate = true ↔ config.inRange qualifying = true ∧
    stored.phase = .confirmed ∧ CompositionDue config stored qualifying.fingerprint now
  hourly : decision.hourlyUpdate = false
  phase_eq : (stamped config qualifying now state).phase =
    stored.phase.step config.debounce (config.inRange qualifying) now
  pendingSince_eq : state.pendingSince = none ∨ state.pendingSince = some now ∨
    state.pendingSince = stored.pendingSince
  pending_active : config.inRange qualifying = false → state.pendingSince = none
  lastTransitionAt_eq : state.lastTransitionAt =
    if decision.liveTransition then some now else stored.lastTransitionAt
  lastCompositionAt_eq : state.lastCompositionAt =
    if decision.compositionUpdate then some now else stored.lastCompositionAt
  lastHourlyBucket_eq : state.lastHourlyBucket =
    if decision.liveTransition then some (hourText (now / 3600)) else stored.lastHourlyBucket
  origin_eq : ∀ since, state.pendingSince = some since →
    state.pendingFrom.getD .activeRange = stored.origin

/-- The phase of a stored row in terms of its pending time. -/
theorem phase_stamped_of_inRange (hrange : config.inRange qualifying = true) :
    (stamped config qualifying now state).phase =
      match state.pendingSince with
      | none => .confirmed
      | some since => .waiting since := by
  have hstate : (stamped config qualifying now state).state = .activeRange :=
    config.classify_eq_activeRange_iff.mpr hrange
  rw [AlertState.phase, if_pos hstate]
  rfl

/-- Outside the range a stored row stands for the idle phase. -/
theorem phase_stamped_of_not_inRange (hrange : config.inRange qualifying = false) :
    (stamped config qualifying now state).phase = .idle := by
  refine AlertState.phase_eq_idle_iff.mpr fun hstate => ?_
  rw [config.classify_eq_activeRange_iff.mp hstate] at hrange
  cases hrange

/-- The automaton's step while a transition is pending. -/
theorem step_phase_of_entered (hstored : stored.WellFormed) {since : ℤ}
    (hsince : (entered stored now).pendingSince = some since) (delay : ℤ) :
    stored.phase.step delay true now =
      if delay ≤ now - since then .confirmed else .waiting since := by
  rw [Debounce.Phase.step, if_pos rfl, (enter_phase hstored hsince).1]
  rfl

/-- Entering the range leaves the pending time of the stored row or sets it to the present. -/
theorem entered_pendingSince (stored : AlertState) (now : ℤ) :
    (entered stored now).pendingSince = some now ∨
      (entered stored now).pendingSince = stored.pendingSince := by
  rw [entered]
  split
  · exact Or.inl rfl
  · exact Or.inr rfl

/-- Entering the range leaves what earlier messages recorded. -/
theorem entered_last (stored : AlertState) (now : ℤ) :
    (entered stored now).lastTransitionAt = stored.lastTransitionAt ∧
      (entered stored now).lastCompositionAt = stored.lastCompositionAt ∧
      (entered stored now).lastHourlyBucket = stored.lastHourlyBucket := by
  rw [entered]
  split <;> exact ⟨rfl, rfl, rfl⟩

/-- Each way through the debounce part meets its specification. -/
theorem RangeOutcome.spec (hstored : stored.WellFormed)
    (h : RangeOutcome config (initialDecision config qualifying) stored now decision state) :
    RangeSpec config stored qualifying now decision state := by
  cases h with
  | outside hstate =>
      -- outside the range the automaton is idle and every flag stays off
      have hrange : config.inRange qualifying = false := by
        simpa using fun h => hstate (config.classify_eq_activeRange_iff.mpr h)
      constructor <;>
        simp [initialDecision, hrange, Debounce.Phase.fires, phase_stamped_of_not_inRange]
  | waits hstate hsince hdelay =>
      have hrange := config.classify_eq_activeRange_iff.mp hstate
      -- the automaton waits since the same time as the entered row
      have hphase := (enter_phase hstored hsince).2
      have hstep := step_phase_of_entered hstored hsince config.debounce
      rw [if_neg hdelay] at hstep
      obtain ⟨htransition, hcomposition, hhourly⟩ := entered_last stored now
      constructor <;>
        simp [initialDecision, hrange, Debounce.Phase.fires, phase_stamped_of_inRange, hstep,
          hphase, hsince, htransition, hcomposition, hhourly]
      case pendingSince_eq =>
        have hpending := entered_pendingSince stored now
        rw [hsince] at hpending
        simpa using hpending
      case origin_eq => exact (entered_pendingFrom hstored hsince).1
  | announced hstate hsince hdelay hon haccepts =>
      have hrange := config.classify_eq_activeRange_iff.mp hstate
      have hphase := (enter_phase hstored hsince).2
      have hstep := step_phase_of_entered hstored hsince config.debounce
      rw [if_pos hdelay] at hstep
      constructor <;>
        simp [initialDecision, hrange, Debounce.Phase.fires, phase_stamped_of_inRange, hstep,
          hphase, hon]
      case reason => rw [config.classify_eq_activeRange_iff.mpr hrange]
  | silent hstate hsince hdelay hoff =>
      have hrange := config.classify_eq_activeRange_iff.mp hstate
      have hphase := (enter_phase hstored hsince).2
      have hstep := step_phase_of_entered hstored hsince config.debounce
      rw [if_pos hdelay] at hstep
      constructor <;>
        simp [initialDecision, hrange, phase_stamped_of_inRange, hstep, hphase, hoff]
  | stable hstate hphase hdue =>
      have hrange := config.classify_eq_activeRange_iff.mp hstate
      have hpending := (AlertState.phase_eq_confirmed_iff.mp hphase).2
      constructor <;>
        simp [initialDecision, hrange, Debounce.Phase.fires, phase_stamped_of_inRange, hphase,
          hpending, show ¬ CompositionDue config stored qualifying.fingerprint now from hdue]
  | recomposed hstate hphase hdue =>
      have hrange := config.classify_eq_activeRange_iff.mp hstate
      have hpending := (AlertState.phase_eq_confirmed_iff.mp hphase).2
      constructor <;>
        simp [initialDecision, hrange, Debounce.Phase.fires, phase_stamped_of_inRange, hphase,
          hpending, show CompositionDue config stored qualifying.fingerprint now from hdue]

/-- The range is confirmed after the debounce part. -/
theorem RangeSpec.active_iff (h : RangeSpec config stored qualifying now decision state) :
    decision.state = .activeRange ∧ state.pendingSince = none ↔
      (stamped config qualifying now state).phase = .confirmed := by
  rw [h.decision_state, AlertState.phase_eq_confirmed_iff]
  rfl

/-- When the hourly part emits, in terms of the stored row. -/
theorem RangeSpec.hourlyDue_iff (h : RangeSpec config stored qualifying now decision state) :
    HourlyDue config decision state now ↔ config.hourlyActiveAlerts = true ∧
      (stamped config qualifying now state).phase = .confirmed ∧
      decision.liveTransition = false ∧
      stored.lastHourlyBucket ≠ some (hourText (now / 3600)) := by
  -- only a live transition has replaced the bucket before the hourly part
  have hbucket : decision.liveTransition = false →
      state.lastHourlyBucket = stored.lastHourlyBucket := by
    intro hlive
    rw [h.lastHourlyBucket_eq, hlive]
    rfl
  rw [HourlyDue, ← and_assoc, h.active_iff]
  constructor
  · rintro ⟨hphase, hon, hlive, hother⟩
    exact ⟨hon, hphase, hlive, hbucket hlive ▸ hother⟩
  · rintro ⟨hon, hphase, hlive, hother⟩
    exact ⟨hphase, hon, hlive, (hbucket hlive).symm ▸ hother⟩

/-- Every cycle that returns meets its specification. -/
theorem evaluate_spec {self : AlertStateMachine} {row : Option AlertState}
    (hself : self.config = config.toSettings)
    (hrow : (AlertStateRepository.load row).WellFormed)
    (h : self.evaluate row qualifying now = .ok (decision, state)) :
    CycleSpec config (AlertStateRepository.load row) qualifying now decision state := by
  obtain ⟨decision₁, state₁, state₂, hrange, hhourly, rfl⟩ := evaluate_parts hself h
  have hspec := (evaluateRange_outcome hrow hrange).spec hrow
  -- the hourly part changes its own flag and the bucket only
  obtain ⟨hourly, hdue, rfl, rfl⟩ := evaluateHourly_outcome hspec.hourly hhourly
  refine
    { decision_state := hspec.decision_state
      decision_fingerprint := hspec.decision_fingerprint
      live_iff := hspec.live_iff
      reason := hspec.reason
      composition_iff := hspec.composition_iff
      hourly_iff := hdue.trans hspec.hourlyDue_iff
      phase_eq := hspec.phase_eq
      state_eq := rfl
      fingerprint_eq := rfl
      updatedAt_eq := rfl
      pendingSince_eq := hspec.pendingSince_eq
      pending_active := ?_
      lastTransitionAt_eq := hspec.lastTransitionAt_eq
      lastCompositionAt_eq := hspec.lastCompositionAt_eq
      lastHourlyBucket_eq := ?_
      origin_eq := ?_ }
  · intro hstate
    refine hspec.pending_active (Bool.eq_false_iff.mpr fun hrange => hstate ?_)
    exact config.classify_eq_activeRange_iff.mpr hrange
  · change (if hourly then _ else state₁.lastHourlyBucket) = _
    rw [hspec.lastHourlyBucket_eq]
    cases hourly <;> cases decision₁.liveTransition <;> rfl
  · intro since hphase
    obtain ⟨hstate, hsince⟩ := AlertState.phase_eq_waiting_iff.mp hphase
    rw [AlertState.origin, hsince, hstate]
    -- the hourly part and the stamp keep `pending_from`
    exact hspec.origin_eq since hsince

/-- Persisting a state whose fingerprint is encoded writes the state itself. -/
theorem persistNoCommit_eq_ok_iff {row : AlertState} {coins : List String}
    (hcoins : state.fingerprint = JsonText.dumps coins) :
    persistNoCommit state = .ok row ↔ state.Binds ∧ row = state := by
  have hsame : { state with fingerprint := JsonText.dumps coins } = state := by rw [← hcoins]
  rw [persistNoCommit, hcoins, decodeFingerprint_dumps]
  change AlertStateRepository.saveNoCommit state coins = .ok row ↔ _
  rw [AlertState.saveNoCommit_eq_ok_iff, hsame]

theorem persistNoCommit_eq_error {coins : List String} {exc : PyExc}
    (hcoins : state.fingerprint = JsonText.dumps coins)
    (h : persistNoCommit state = .error exc) : ¬ state.Binds ∧ exc ≠ .integrityError := by
  rw [persistNoCommit, hcoins, decodeFingerprint_dumps] at h
  exact AlertState.saveNoCommit_eq_error h

end AlertStateMachine

namespace CycleSpec

variable {config : AdmittedSettings} {stored state : AlertState} {now : ℤ}
  {decision : AlertDecision} {qualifying : QualifyingSet}

/-- Outside the range a cycle emits nothing. -/
theorem silent_of_not_inRange
    (h : CycleSpec config stored qualifying now decision state)
    (hrange : config.inRange qualifying = false) :
    decision.liveTransition = false ∧ decision.compositionUpdate = false ∧
      decision.hourlyUpdate = false := by
  have hidle : stored.phase.step config.debounce (config.inRange qualifying) now = .idle := by
    rw [hrange, Debounce.Phase.step_inactive]
  -- each flag needs the confirmed phase or the range, and the phase is idle here
  refine ⟨?_, ?_, ?_⟩
  · refine Bool.eq_false_iff.mpr fun hlive => ?_
    have hfires := (h.live_iff.mp hlive).2.2
    rw [hidle] at hfires
    cases hfires
  · refine Bool.eq_false_iff.mpr fun hcomposition => ?_
    rw [(h.composition_iff.mp hcomposition).1] at hrange
    cases hrange
  · refine Bool.eq_false_iff.mpr fun hhourly => ?_
    have hconfirmed := (h.hourly_iff.mp hhourly).2.1
    rw [h.phase_eq, hidle] at hconfirmed
    cases hconfirmed

/-- With immediate transition alerts, a cycle before or at the confirmation of its episode emits at
most the live transition. -/
theorem only_live_of_not_confirmed
    (h : CycleSpec config stored qualifying now decision state)
    (hon : config.immediateTransitionAlerts = true) (hphase : stored.phase ≠ .confirmed) :
    decision.compositionUpdate = false ∧ decision.hourlyUpdate = false := by
  constructor
  · exact Bool.eq_false_iff.mpr fun hcomposition => hphase (h.composition_iff.mp hcomposition).2.1
  · refine Bool.eq_false_iff.mpr fun hhourly => ?_
    obtain ⟨-, hconfirmed, hlive, -⟩ := h.hourly_iff.mp hhourly
    -- a cycle that confirms the episode is the live transition itself
    rw [h.phase_eq] at hconfirmed
    rw [h.live_iff.mpr ⟨hon, hphase, hconfirmed⟩] at hlive
    cases hlive

/-- A composition update needs a confirmed range, which a live transition has not yet. -/
theorem not_live_of_composition (h : CycleSpec config stored qualifying now decision state)
    (hcomposition : decision.compositionUpdate = true) : decision.liveTransition = false := by
  refine Bool.eq_false_iff.mpr fun hlive => ?_
  exact (h.live_iff.mp hlive).2.1 (h.composition_iff.mp hcomposition).2.1

/-- A cycle stores a well-formed row if its integers fit. -/
theorem wellFormed (h : CycleSpec config stored qualifying now decision state)
    (hbinds : state.Binds) : state.WellFormed where
  pending_active := h.pending_active
  encoded := ⟨_, h.fingerprint_eq⟩
  binds := hbinds

/-- The integers of a stored row fit if those of the row before and the time of the cycle do. -/
theorem binds (h : CycleSpec config stored qualifying now decision state)
    (hstored : stored.Binds) (hnow : sqliteBinds now = true) : state.Binds := by
  obtain ⟨-, htransition, hpending, hcomposition⟩ := hstored
  refine ⟨by rw [h.updatedAt_eq, hnow], ?_, ?_, ?_⟩
  · rw [h.lastTransitionAt_eq]
    split
    · exact hnow
    · exact htransition
  · rcases h.pendingSince_eq with heq | heq | heq
    · rw [heq, Option.all_none]
    · rw [heq, Option.all_some, hnow]
    · rw [heq, hpending]
  · rw [h.lastCompositionAt_eq]
    split
    · exact hnow
    · exact hcomposition

end CycleSpec

end BybitMonitor
