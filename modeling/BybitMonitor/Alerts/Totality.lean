import Mathlib
import BybitMonitor.Alerts.Suppression

/-!
# Calls that return

Whether a call returns when its database operations succeed, in every state that a run can reach.

* `ZeroWindow`: a composition update is due while the integer part of the cooldown is zero, which
  `Settings._validate_ranges` admits.
* `LateYear`: a time is written in a year that `gmtime` accepts and `strftime` refuses.
* `ServiceRun.returns_iff`: a call returns normally exactly if it meets neither, and raises
  `ZeroDivisionError` or `OverflowError` otherwise.
* `process_returns_iff`: so do the calls of every run.
-/

namespace BybitMonitor

section Conditions

variable (config : AdmittedSettings) (stored : AlertState) (qualifying : QualifyingSet) (now : ℤ)

/-- A composition update is due in a confirmed range. -/
def Recomposes : Prop :=
  config.inRange qualifying = true ∧ stored.phase = .confirmed ∧
    AlertStateMachine.CompositionDue config stored qualifying.fingerprint now

/-- A composition update is due in a confirmed range, and its window has no length. -/
def ZeroWindow : Prop := config.cooldown = 0 ∧ Recomposes config stored qualifying now

/-- The cycle writes the bucket of its hour: the range is confirmed after it, and hourly updates are
on, or the range is confirmed by it and announced. -/
def WritesHour : Prop :=
  stored.phase.step config.debounce (config.inRange qualifying) now = .confirmed ∧
    (config.hourlyActiveAlerts = true ∨
      (config.immediateTransitionAlerts = true ∧ stored.phase ≠ .confirmed))

/-- The call writes its time, which lies in a year after 2147483647. -/
def LateYear : Prop :=
  strftimeAccepts now = false ∧
    (WritesHour config stored qualifying now ∨ Recomposes config stored qualifying now)

/-- The service cannot process the call. -/
def Unprocessable : Prop :=
  ZeroWindow config stored qualifying now ∨ LateYear config stored qualifying now

/-- What a call raises that the service cannot process. -/
def refusal : PyExc := if strftimeAccepts now then .zeroDivisionError else yearOverflow

end Conditions

namespace AlertStateMachine

variable {config : AdmittedSettings} {stored state : AlertState} {now : ℤ}
  {decision : AlertDecision} {qualifying : QualifyingSet}

/-! ## Cycles that return -/

theorem maybeCompositionUpdate_returns :
    PyExc.Returns (maybeCompositionUpdate config.toSettings decision state now) := by
  refine PyExc.returns_ite (fun _ => ?_) fun _ => PyExc.returns_pure _
  split
  · exact PyExc.returns_pure _
  · refine PyExc.returns_bind config.cooldown_spec.1 ?_
    exact PyExc.returns_ite (fun _ => PyExc.returns_pure _) fun _ => PyExc.returns_pure _

theorem settleTransition_returns {prevState : GroupState}
    (haccepts : config.immediateTransitionAlerts = true → strftimeAccepts now = true) :
    PyExc.Returns (settleTransition config.toSettings prevState decision state now) := by
  refine PyExc.returns_ite (fun hon => ?_) fun _ => PyExc.returns_pure _
  exact PyExc.returns_bind (hourlyBucket_eq_ok_iff.mpr ⟨haccepts hon, rfl⟩) (PyExc.returns_pure _)

/-- The transitions that fire are those that have waited for the debounce. -/
theorem fires_iff_entered (hstored : stored.WellFormed) :
    stored.phase.fires config.debounce (config.inRange qualifying) now ↔
      config.inRange qualifying = true ∧
        ∃ since, (entered stored now).pendingSince = some since ∧
          config.debounce ≤ now - since := by
  cases hrange : config.inRange qualifying with
  | false => simp [Debounce.Phase.fires]
  | true =>
      cases hsince : (entered stored now).pendingSince with
      | none => simp [Debounce.Phase.fires, (confirmed_of_entered hstored hsince).1]
      | some since =>
          have hphase := (enter_phase hstored hsince).2
          rw [Debounce.Phase.fires, step_phase_of_entered hstored hsince]
          simp [hphase]

/-- The debounce part of a cycle returns for every well-formed row, unless it has to announce a
transition at a time that is refused. -/
theorem evaluateRange_returns (hstored : stored.WellFormed)
    (haccepts : stored.phase.fires config.debounce (config.inRange qualifying) now →
      config.immediateTransitionAlerts = true → strftimeAccepts now = true) :
    PyExc.Returns (evaluateRange config.toSettings (initialDecision config qualifying) stored
      now) := by
  refine PyExc.returns_ite (fun hstate => ?_) fun _ => PyExc.returns_pure _
  have hrange := config.classify_eq_activeRange_iff.mp hstate
  cases hsince : (entered stored now).pendingSince with
  | none =>
      -- the stored fingerprint was encoded by an earlier cycle, so that it decodes
      obtain ⟨coins, hcoins⟩ := hstored.encoded
      have hdecode : decodeFingerprint (entered stored now).fingerprint = .ok coins := by
        rw [(confirmed_of_entered hstored hsince).2, hcoins, decodeFingerprint_dumps]
      simp only [hsince]
      refine PyExc.returns_bind hdecode ?_
      exact PyExc.returns_ite (fun _ => maybeCompositionUpdate_returns) fun _ =>
        PyExc.returns_pure _
  | some since =>
      simp only [hsince]
      refine PyExc.returns_bind config.debounce_spec.1 ?_
      refine PyExc.returns_ite (fun hdelay => ?_) fun _ => PyExc.returns_pure _
      exact settleTransition_returns
        (haccepts ((fires_iff_entered hstored).mpr ⟨hrange, since, hsince, hdelay⟩))

/-- The debounce part raises if it has to. -/
theorem evaluateRange_late (hstored : stored.WellFormed) (hgmtime : gmtimeAccepts now = true)
    (hlate : strftimeAccepts now = false) (hon : config.immediateTransitionAlerts = true)
    (hfires : stored.phase.fires config.debounce (config.inRange qualifying) now) :
    evaluateRange config.toSettings (initialDecision config qualifying) stored now =
      .error yearOverflow := by
  obtain ⟨hrange, since, hsince, hdelay⟩ := (fires_iff_entered hstored).mp hfires
  have hstate : (initialDecision config qualifying).state = .activeRange :=
    config.classify_eq_activeRange_iff.mpr hrange
  rw [evaluateRange, if_pos hstate]
  simp only [hsince]
  rw [config.debounce_spec.1]
  change (if now - since ≥ config.debounce then _ else _) = _
  rw [if_pos hdelay, settleTransition, if_pos hon, hourlyBucket_late hgmtime hlate]
  rfl

/-- The hourly part of a cycle asks for the bucket. -/
def AsksHour (config : AdmittedSettings) (decision : AlertDecision) (state : AlertState) : Prop :=
  decision.state = .activeRange ∧ state.pendingSince = none ∧
    config.hourlyActiveAlerts = true ∧ decision.liveTransition = false

/-- The hourly part of a cycle returns, unless it asks for the bucket of a time that is refused. -/
theorem evaluateHourly_returns
    (haccepts : AsksHour config decision state → strftimeAccepts now = true) :
    PyExc.Returns (evaluateHourly config.toSettings decision state now) := by
  refine PyExc.returns_ite (fun hasks => ?_) fun _ => PyExc.returns_pure _
  refine PyExc.returns_bind (hourlyBucket_eq_ok_iff.mpr ⟨haccepts hasks, rfl⟩) ?_
  exact PyExc.returns_ite (fun _ => PyExc.returns_pure _) fun _ => PyExc.returns_pure _

theorem evaluateHourly_late (hgmtime : gmtimeAccepts now = true)
    (hlate : strftimeAccepts now = false) (hasks : AsksHour config decision state) :
    evaluateHourly config.toSettings decision state now = .error yearOverflow := by
  unfold AsksHour at hasks
  rw [evaluateHourly, if_pos hasks, hourlyBucket_late hgmtime hlate]
  rfl

/-- After the debounce part, the hourly part asks for the bucket if the cycle has not written it
yet. -/
theorem RangeSpec.asksHour_iff (h : RangeSpec config stored qualifying now decision state) :
    AsksHour config decision state ↔
      WritesHour config stored qualifying now ∧ decision.liveTransition = false := by
  rw [AsksHour, ← and_assoc, h.active_iff, h.phase_eq, WritesHour]
  -- a live transition is the one that writes the bucket without hourly updates
  have hlive := h.live_iff
  rw [Debounce.Phase.fires] at hlive
  cases hflag : decision.liveTransition with
  | true => simp
  | false =>
      simp only [hflag, Bool.false_eq_true, false_iff] at hlive
      tauto

/-- A cycle returns for every well-formed row, unless it writes the bucket of a time that is
refused. -/
theorem evaluate_returns {self : AlertStateMachine} (hself : self.config = config.toSettings)
    {row : Option AlertState} (hrow : (AlertStateRepository.load row).WellFormed)
    (haccepts : WritesHour config (AlertStateRepository.load row) qualifying now →
      strftimeAccepts now = true) :
    PyExc.Returns (self.evaluate row qualifying now) := by
  simp only [evaluate, hself]
  obtain ⟨⟨decision₁, state₁⟩, hrange⟩ := evaluateRange_returns hrow fun hfires hon =>
    haccepts ⟨hfires.2, Or.inr ⟨hon, hfires.1⟩⟩
  refine PyExc.returns_bind hrange ?_
  have hspec := (evaluateRange_outcome hrow hrange).spec hrow
  obtain ⟨⟨decision₂, state₂⟩, hhourly⟩ := evaluateHourly_returns fun hasks =>
    haccepts (hspec.asksHour_iff.mp hasks).1
  exact PyExc.returns_bind hhourly (PyExc.returns_pure _)

/-- A cycle that writes the bucket of a time in a late year raises. -/
theorem evaluate_late {self : AlertStateMachine} (hself : self.config = config.toSettings)
    {row : Option AlertState} (hrow : (AlertStateRepository.load row).WellFormed)
    (hgmtime : gmtimeAccepts now = true) (hlate : strftimeAccepts now = false)
    (hwrites : WritesHour config (AlertStateRepository.load row) qualifying now) :
    self.evaluate row qualifying now = .error yearOverflow := by
  simp only [evaluate, hself]
  by_cases hlive : (AlertStateRepository.load row).phase.fires config.debounce
      (config.inRange qualifying) now ∧ config.immediateTransitionAlerts = true
  · -- the live alert owns the bucket
    have hrange := evaluateRange_late hrow hgmtime hlate hlive.2 hlive.1
    change (evaluateRange config.toSettings (initialDecision config qualifying) _ now >>= _) = _
    rw [hrange]
    rfl
  · obtain ⟨⟨decision₁, state₁⟩, hrange⟩ := evaluateRange_returns hrow fun hfires hon =>
      absurd ⟨hfires, hon⟩ hlive
    have hspec := (evaluateRange_outcome hrow hrange).spec hrow
    have hsilent : decision₁.liveTransition = false :=
      Bool.eq_false_iff.mpr fun h => hlive (hspec.live_iff.mp h).symm
    have hhourly := evaluateHourly_late hgmtime hlate (hspec.asksHour_iff.mpr ⟨hwrites, hsilent⟩)
    change (evaluateRange config.toSettings (initialDecision config qualifying) _ now >>= _) = _
    rw [hrange]
    change (evaluateHourly config.toSettings decision₁ state₁ now >>= _) = _
    rw [hhourly]
    rfl

end AlertStateMachine

/-- A cycle with a message has a count that the formatter accepts. -/
theorem CycleSpec.count_le_max {config : AdmittedSettings} {stored state : AlertState}
    {qualifying : QualifyingSet} {now : ℤ} {decision : AlertDecision} {kind : AlertKind}
    (h : CycleSpec config stored qualifying now decision state)
    (hkind : decision.kind = some kind) :
    (qualifying.count : ℤ) ≤ config.maxQualifyingCoins := by
  have hrange : config.inRange qualifying = true := by
    by_contra hout
    obtain ⟨hlive, hcomposition, hhourly⟩ :=
      h.silent_of_not_inRange (Bool.eq_false_iff.mpr hout)
    rw [AlertDecision.kind_eq_none_iff.mpr (by simp [AlertDecision.hasFlag, *])] at hkind
    cases hkind
  rw [AdmittedSettings.inRange, Bool.and_eq_true] at hrange
  exact of_decide_eq_true hrange.2

/-- A cycle with a message writes a time. -/
theorem CycleSpec.writesTime {config : AdmittedSettings} {stored state : AlertState}
    {qualifying : QualifyingSet} {now : ℤ} {decision : AlertDecision} {kind : AlertKind}
    (h : CycleSpec config stored qualifying now decision state)
    (hkind : decision.kind = some kind) :
    WritesHour config stored qualifying now ∨ Recomposes config stored qualifying now := by
  rw [AlertDecision.kind] at hkind
  -- the flags in the order of their messages
  split_ifs at hkind with hlive hcomposition hhourly
  · obtain ⟨hon, hfires⟩ := h.live_iff.mp hlive
    exact Or.inl ⟨hfires.2, Or.inr ⟨hon, hfires.1⟩⟩
  · exact Or.inr (h.composition_iff.mp hcomposition)
  · obtain ⟨hon, hphase, -, -⟩ := h.hourly_iff.mp hhourly
    exact Or.inl ⟨h.phase_eq.symm.trans hphase, Or.inl hon⟩

namespace AlertService

variable {self : AlertService} {call : Call} {row : Option AlertState}

/-- A call that the service can process reaches its transaction. -/
theorem plan_returns (hload : call.faults.load = none)
    (hrow : (AlertStateRepository.load row).WellFormed)
    (hcan : ¬ Unprocessable self.config (AlertStateRepository.load row) call.qualifying
      call.now) :
    PyExc.Returns (self.plan call row) := by
  have haccepts (hwrites : WritesHour self.config (AlertStateRepository.load row) call.qualifying
        call.now ∨ Recomposes self.config (AlertStateRepository.load row) call.qualifying
        call.now) : strftimeAccepts call.now = true := by
    by_contra hlate
    exact hcan (Or.inr ⟨Bool.eq_false_iff.mpr hlate, hwrites⟩)
  obtain ⟨⟨decision, state⟩, hevaluate⟩ :=
    AlertStateMachine.evaluate_returns self.wired hrow fun hwrites => haccepts (Or.inl hwrites)
  have hspec := AlertStateMachine.evaluate_spec self.wired hrow hevaluate
  refine @PyExc.returns_bind _ _ _ _ () (by rw [hload]; rfl) ?_
  refine PyExc.returns_bind hevaluate ?_
  have halert : PyExc.Returns (outgoingAlert self.config.toSettings call.qualifying decision
      call.now) := by
    rw [outgoingAlert]
    cases hkind : decision.kind with
    | none => exact PyExc.returns_pure _
    | some kind =>
        -- an emitted count lies in the range, which is what the formatter requires
        have htime := haccepts (hspec.writesTime hkind)
        obtain ⟨message, hmessage⟩ := formatAlert_isOk kind (hspec.count_le_max hkind) htime
        refine PyExc.returns_bind hmessage ?_
        refine PyExc.returns_bind (dedupeKey_eq_ok_iff.mpr ⟨fun _ => htime, ?_, rfl⟩)
          (PyExc.returns_pure _)
        rintro rfl hzero
        exact hcan (Or.inl ⟨hzero,
          hspec.composition_iff.mp (hspec.kind_eq_composition_iff.mp hkind)⟩)
  obtain ⟨alert, halert⟩ := halert
  exact PyExc.returns_bind halert (PyExc.returns_pure _)

/-- The message of a composition update that raises makes the call raise. -/
theorem plan_of_recomposes {exc : PyExc} (hload : call.faults.load = none)
    (hrow : (AlertStateRepository.load row).WellFormed)
    (haccepts : WritesHour self.config (AlertStateRepository.load row) call.qualifying call.now →
      strftimeAccepts call.now = true)
    (hdue : Recomposes self.config (AlertStateRepository.load row) call.qualifying call.now)
    (halert : ∀ decision, decision.kind = some .composition →
      (call.qualifying.count : ℤ) ≤ self.config.maxQualifyingCoins →
        outgoingAlert self.config.toSettings call.qualifying decision call.now = .error exc) :
    self.plan call row = .error exc := by
  obtain ⟨⟨decision, state⟩, hevaluate⟩ :=
    AlertStateMachine.evaluate_returns self.wired hrow haccepts
  have hspec := AlertStateMachine.evaluate_spec self.wired hrow hevaluate
  have hkind := hspec.kind_eq_composition_iff.mpr (hspec.composition_iff.mpr hdue)
  rw [plan, hload]
  change (self.stateMachine.evaluate row call.qualifying call.now >>= _) = _
  rw [hevaluate]
  change (outgoingAlert self.config.toSettings call.qualifying decision call.now >>= _) = _
  rw [halert decision hkind (hspec.count_le_max hkind)]
  rfl

/-- A call that the service cannot process raises before the transaction. -/
theorem plan_eq_refusal (hload : call.faults.load = none)
    (hrow : (AlertStateRepository.load row).WellFormed)
    (hgmtime : gmtimeAccepts call.now = true)
    (hcannot : Unprocessable self.config (AlertStateRepository.load row) call.qualifying
      call.now) :
    self.plan call row = .error (refusal call.now) := by
  cases htime : strftimeAccepts call.now with
  | true =>
      rw [refusal, htime, if_pos rfl]
      -- the time is formatted, so that the window is what is wrong
      obtain ⟨hzero, hdue⟩ : ZeroWindow self.config (AlertStateRepository.load row)
          call.qualifying call.now :=
        hcannot.resolve_right fun hyear => Bool.false_ne_true (hyear.1.symm.trans htime)
      refine plan_of_recomposes hload hrow (fun _ => htime) hdue fun decision hkind hcount => ?_
      obtain ⟨message, hmessage⟩ : ∃ message, formatAlert call.qualifying self.config.toSettings
          call.now .composition = .ok message := formatAlert_isOk .composition hcount htime
      have hkey : dedupeKey self.config.toSettings .composition decision call.now =
          .error .zeroDivisionError := by
        rw [dedupeKey, self.config.cooldown_spec.1]
        exact if_pos hzero
      rw [outgoingAlert, hkind]
      dsimp only
      rw [hmessage, hkey]
      rfl
  | false =>
      rw [refusal, htime, if_neg Bool.false_ne_true]
      by_cases hwrites : WritesHour self.config (AlertStateRepository.load row) call.qualifying
          call.now
      · have hevaluate := AlertStateMachine.evaluate_late self.wired hrow hgmtime htime hwrites
        rw [plan, hload]
        change (self.stateMachine.evaluate row call.qualifying call.now >>= _) = _
        rw [hevaluate]
        rfl
      · -- the hour is not written, so that a composition update is due
        have hdue : Recomposes self.config (AlertStateRepository.load row) call.qualifying
            call.now := by
          rcases hcannot with hwindow | hyear
          · exact hwindow.2
          · exact hyear.2.resolve_left hwrites
        refine plan_of_recomposes hload hrow (fun h => absurd h hwrites) hdue
          fun decision hkind hcount => ?_
        rw [outgoingAlert, hkind]
        dsimp only
        rw [formatAlert_late .composition hcount hgmtime htime]
        rfl

end AlertService

/-- Times that `gmtime` accepts fit the columns. -/
theorem sqliteBinds_of_accepts {now : ℤ} (h : gmtimeAccepts now = true) :
    sqliteBinds now = true := by
  rw [gmtimeAccepts, Bool.and_eq_true, decide_eq_true_iff, decide_eq_true_iff] at h
  rw [sqliteBinds, Bool.and_eq_true, decide_eq_true_iff, decide_eq_true_iff]
  omega

/-- In every state that a run can reach, with any admitted settings, a call whose database
operations succeed returns normally at every time of `gmtime` exactly if the service can process
it; otherwise it raises `ZeroDivisionError` or `OverflowError`. -/
theorem ServiceRun.returns_iff (config : AdmittedSettings) {events : List ServiceEvent}
    {s s' : ServiceState} (hrun : ServiceRun config events s) {call : Call} {reply : Reply}
    (hfaults : call.faults = {}) (hgmtime : gmtimeAccepts call.now = true)
    (hstep : ServiceStep s (.process call, reply) s') :
    (reply.returned = true ↔
      ¬ Unprocessable s.service.config s.stored call.qualifying call.now) ∧
    (reply.returned = false → reply = .processed (.error (refusal call.now)) none) := by
  have hs := hrun.invariant
  have hload : call.faults.load = none := by rw [hfaults]
  by_cases hcannot : Unprocessable s.service.config s.stored call.qualifying call.now
  · have hplan' := AlertService.plan_eq_refusal hload hs.wellFormed hgmtime hcannot
    -- without a fault the plan decides the outcome of the call
    cases hstep.move hs with
    | unplanned hplan =>
        rw [hplan'] at hplan
        obtain rfl := Except.error.inj hplan
        exact ⟨iff_of_false (by simp [Reply.returned]) fun hnot => hnot hcannot, fun _ => rfl⟩
    | rolledBack hplan => rw [hplan'] at hplan; cases hplan
    | suppressed hplan => rw [hplan'] at hplan; cases hplan
    | committed hplan => rw [hplan'] at hplan; cases hplan
  · obtain ⟨planned, hplan'⟩ := AlertService.plan_returns hload hs.wellFormed hcannot
    cases hstep.move hs with
    | unplanned hplan => rw [hplan'] at hplan; cases hplan
    | rolledBack hplan hcause =>
        have hspec := (hs.planned hplan).spec
        -- the transaction can fail neither on the integers of the row nor by a fault
        rcases hcause with hbinds | hfault
        · exact absurd (hspec.binds hs.wellFormed.binds (sqliteBinds_of_accepts hgmtime)) hbinds
        · rw [hfaults] at hfault
          simp [Faults.Raises] at hfault
    | suppressed hplan => exact ⟨iff_of_true rfl hcannot, by simp [Reply.returned]⟩
    | committed hplan => exact ⟨iff_of_true rfl hcannot, by simp [Reply.returned]⟩

/-- A call whose database operations succeed returns normally at every time of `gmtime`. -/
def CallReturns (_ : ServiceState) (event : ServiceEvent) (_ : ServiceState) : Prop :=
  ∀ call, event.1 = .process call → call.faults = {} → gmtimeAccepts call.now = true →
    event.2.returned = true

/-- The service cannot process a call whose database operations succeed, at a time of `gmtime`. -/
def MeetsUnprocessable (s : ServiceState) (event : ServiceEvent) : Prop :=
  ∃ call, event.1 = .process call ∧ call.faults = {} ∧ gmtimeAccepts call.now = true ∧
    Unprocessable s.service.config s.stored call.qualifying call.now

/-- In every run, each call whose database operations succeed returns normally at every time of
`gmtime`, if and only if no such call meets a zero window or writes a time in a late year. -/
theorem process_returns_iff (config : AdmittedSettings) (events : List ServiceEvent) :
    Trace.EveryStep ServiceStep (ServiceState.start config) events CallReturns ↔
      Trace.EveryStep ServiceStep (ServiceState.start config) events
        fun s event _ => ¬ MeetsUnprocessable s event := by
  refine Trace.EveryStep.congr fun k event s s' hk hrun hstep => ?_
  obtain ⟨request, reply⟩ := event
  cases request with
  | process call =>
      have hreturns (hfaults : call.faults = {}) (hgmtime : gmtimeAccepts call.now = true) :=
        (ServiceRun.returns_iff config hrun hfaults hgmtime hstep).1
      constructor
      · rintro hall ⟨_, ⟨⟩, hfaults, hgmtime, hcannot⟩
        exact (hreturns hfaults hgmtime).mp (hall call rfl hfaults hgmtime) hcannot
      · rintro hnot _ ⟨⟩ hfaults hgmtime
        exact (hreturns hfaults hgmtime).mpr fun hcannot =>
          hnot ⟨call, rfl, hfaults, hgmtime, hcannot⟩
  | restart config' => exact iff_of_true (fun _ h => nomatch h) fun ⟨_, h, _⟩ => nomatch h
  | enqueue notice => exact iff_of_true (fun _ h => nomatch h) fun ⟨_, h, _⟩ => nomatch h

/-- Composition updates with a cooldown of half a second. -/
def zeroWindowConfig : AdmittedSettings where
  toSettings :=
    { alertDebounceSeconds := 0
      compositionChangeAlerts := true
      compositionChangeCooldownSeconds := .finite (1 / 2) }
  admitted := by decide +kernel

/-- A different coin divides by zero. -/
theorem process_divides_by_zero :
    ¬ ∀ config events s, ServiceRun config events s → KeepsConfig config events →
      (∀ call ∈ calls events, 0 ≤ call.now ∧
        ∃ values, call.qualifying = aggregateQualifying values config.alertThresholdPercent) →
      Trace.EveryStep ServiceStep (ServiceState.start config) events CallReturns := by
  intro hclaim
  let rising (coin : String) : MomentumValue :=
    { category := "spot", symbol := coin ++ "USDT", baseCoin := coin, change1h := some 6,
      status := .ok }
  let announced : Call := { qualifying := .ofCoins ["BTC"], now := 1000 }
  let changed : Call := { qualifying := .ofCoins ["ETH"], now := 1001 }
  have haggregated : ∀ call ∈ [announced, changed], 0 ≤ call.now ∧ ∃ values, call.qualifying =
      aggregateQualifying values zeroWindowConfig.alertThresholdPercent := by
    rintro call hcall
    rcases List.mem_pair.mp hcall with rfl | rfl
    · exact ⟨by decide, [rising "BTC"], by decide +kernel⟩
    · exact ⟨by decide, [rising "ETH"], by decide +kernel⟩
  have hevery := hclaim zeroWindowConfig _ _
    (run_serveAll zeroWindowConfig [.process announced, .process changed])
    (keepsConfig_serveAll (by simp)) (by rw [calls_serveAll]; exact haggregated)
  have hreturned := hevery.of_append.2 _ _ (run_serveAll zeroWindowConfig [.process announced]) rfl
    changed rfl rfl (by decide)
  exact absurd hreturned (by decide +kernel)

end BybitMonitor
