import Mathlib
import BybitMonitor.Alerts.DedupeKeys

/-!
# Suppressed duplicates

A call whose message has a key of the outbox is rolled back and still returns normally.

* `SameSecondReentry`: without debounce, the range is entered again in the second of an earlier
  transition of the same coins.
* `ServiceRun.persists_iff`: a call that returns normally has persisted the state that it has
  evaluated exactly if it is not such a call.
* `persisted_iff_not_reentry`: so have the calls of every run.
-/

namespace BybitMonitor

/-- The range is entered, its transition is announced without debounce, and the outbox holds the key
of that transition already. -/
def SameSecondReentry (config : AdmittedSettings) (tables : Tables) (stored : AlertState)
    (qualifying : QualifyingSet) (now : ℤ) : Prop :=
  config.inRange qualifying = true ∧ stored.state ≠ .activeRange ∧
    config.immediateTransitionAlerts = true ∧ config.debounce = 0 ∧
    transitionKey now (joinedCoins qualifying.fingerprint) ∈ tables.dedupeKeys

/-- The call returned normally. -/
def Reply.returned : Reply → Bool
  | .processed (.ok _) _ => true
  | _ => false

/-- The table holds the state that `evaluate` returned for the call. -/
def PersistsEvaluated (s s' : ServiceState) (call : Call) : Prop :=
  ∃ decision state, s.service.stateMachine.evaluate s.tables.alertState call.qualifying call.now =
    .ok (decision, state) ∧ s'.tables.alertState = some state

section Reentry

variable {config : AdmittedSettings} {tables : Tables} {stored state : AlertState}
  {decision : AlertDecision} {call : Call} {alert : Option OutgoingAlert}

/-- A re-entry is announced with the key that the outbox holds. -/
theorem SameSecondReentry.duplicate
    (h : SameSecondReentry config tables stored call.qualifying call.now)
    (hplanned : Planned config stored call decision state alert) :
    ∃ a ∈ alert, a.key ∈ tables.dedupeKeys := by
  obtain ⟨hrange, hstate, hon, hdebounce, hkey⟩ := h
  have hidle := AlertState.phase_eq_idle_iff.mpr hstate
  have hlive : decision.liveTransition = true := by
    refine hplanned.spec.live_iff.mpr ⟨hon, by simp [hidle], ?_⟩
    rw [hrange, hidle, Debounce.Phase.step_idle, if_pos (by omega)]
  have hkind := hplanned.kind_eq
  rw [AlertDecision.kind_eq_transition_iff.mpr hlive] at hkind
  obtain ⟨a, rfl, ha⟩ := Option.map_eq_some_iff.mp hkind
  refine ⟨a, rfl, ?_⟩
  rw [hplanned.key_eq a rfl, ha]
  exact hkey

/-- A re-entry changes the stored state. -/
theorem SameSecondReentry.state_ne
    (h : SameSecondReentry config tables stored call.qualifying call.now)
    (hspec : CycleSpec config stored call.qualifying call.now decision state) :
    stored ≠ state := by
  rintro rfl
  exact h.2.1 (hspec.state_eq.trans (config.classify_eq_activeRange_iff.mpr h.1))

end Reentry

/-- After a run whose clock does not step back, a call that returns normally persists the state that
it has evaluated exactly if it is not a re-entry in the second of an earlier transition. -/
theorem ServiceRun.persists_iff (config : AdmittedSettings) {events : List ServiceEvent}
    {s s' : ServiceState} (hrun : ServiceRun config events s)
    (hconfig : KeepsConfig config events) {call : Call}
    (hclock : (calls events ++ [call]).Pairwise fun earlier later => earlier.now ≤ later.now)
    {reply : Reply} (hstep : ServiceStep s (.process call, reply) s')
    (hreturned : reply.returned = true) (hfaults : ¬ call.faults.Raises .integrityError) :
    PersistsEvaluated s s' call ↔
      ¬ SameSecondReentry config s.tables s.stored call.qualifying call.now := by
  obtain ⟨hearlier, -, hlater⟩ := List.pairwise_append.mp hclock
  have hbefore : ∀ earlier ∈ calls events, earlier.now ≤ call.now := fun earlier hearlier =>
    hlater earlier hearlier call (List.mem_singleton_self call)
  have hkeys := hrun.keyInvariant hconfig hearlier
  -- a call that raises does not return normally
  cases hstep.move hrun.invariant with
  | unplanned => cases hreturned
  | rolledBack => cases hreturned
  | @suppressed _ decision state alert hplan hcause =>
      have hplanned := hrun.invariant.planned hplan
      rw [hkeys.config_eq] at hplanned
      obtain ⟨a, ha, hkey⟩ := hcause.resolve_left hfaults
      -- the duplicate is the key of a transition without debounce
      obtain ⟨hkind, -, hidle, hdebounce⟩ := hkeys.collision hplanned hbefore ha hkey
      have htransition : decision.kind = some .transition := by
        rw [← hplanned.kind_eq, ha, ← hkind]
        rfl
      obtain ⟨hon, -, hconfirmed⟩ :=
        hplanned.spec.live_iff.mp (AlertDecision.kind_eq_transition_iff.mp htransition)
      have hrange : config.inRange call.qualifying = true := by
        by_contra hout
        rw [Bool.eq_false_iff.mpr hout, Debounce.Phase.step_inactive] at hconfirmed
        cases hconfirmed
      have hreentry : SameSecondReentry config s.tables s.stored call.qualifying call.now := by
        refine ⟨hrange, AlertState.phase_eq_idle_iff.mp hidle, hon, hdebounce, ?_⟩
        rw [hplanned.key_eq a ha, hkind] at hkey
        exact hkey
      -- the row is the one before the call, not the evaluated one
      refine iff_of_false ?_ fun hnot => hnot hreentry
      rintro ⟨decision', state', hevaluate, hrow⟩
      rw [(AlertService.parts_of_plan hplan).1] at hevaluate
      obtain ⟨-, rfl⟩ := Prod.mk.inj (Except.ok.inj hevaluate)
      refine hreentry.state_ne hplanned.spec ?_
      rw [ServiceState.stored, hrow]
      rfl
  | @committed _ decision state alert tables' fed hplan hcommits =>
      have hplanned := hrun.invariant.planned hplan
      rw [hkeys.config_eq] at hplanned
      refine iff_of_true ⟨decision, state, (AlertService.parts_of_plan hplan).1, ?_⟩ ?_
      · exact hcommits.alertState_eq
      · intro hreentry
        obtain ⟨a, ha, hkey⟩ := hreentry.duplicate hplanned
        exact hcommits.fresh a ha hkey

/-- A call that returns normally has persisted the state that it has evaluated. -/
def StatePersisted (s : ServiceState) (event : ServiceEvent) (s' : ServiceState) : Prop :=
  ∀ call, event.1 = .process call → event.2.returned = true → PersistsEvaluated s s' call

/-- A call that returns normally is a re-entry in the second of an earlier transition. -/
def Reenters (config : AdmittedSettings) (s : ServiceState) (event : ServiceEvent) : Prop :=
  ∃ call, event.1 = .process call ∧ event.2.returned = true ∧
    SameSecondReentry config s.tables s.stored call.qualifying call.now

/-- The calls before a step and the call of the step are calls of the run in this order. -/
theorem calls_take_append_sublist {events : List ServiceEvent} {k : ℕ} {call : Call}
    {reply : Reply} (hk : events[k]? = some (.process call, reply)) :
    (calls (events.take k) ++ [call]).Sublist (calls events) := by
  have hprefix : events.take k ++ [(Request.process call, reply)] = events.take (k + 1) := by
    rw [List.take_add_one, hk, Option.toList_some]
  have hcalls : calls (events.take k) ++ [call] = calls (events.take (k + 1)) := by
    rw [← hprefix, calls_append]
    rfl
  rw [hcalls]
  exact (List.take_sublist _ _).filterMap _

/-- In every run whose clock does not step back, each call that returns normally persists the state
that it has evaluated, if and only if no such call is a re-entry in the second of an earlier
transition. -/
theorem persisted_iff_not_reentry (config : AdmittedSettings) {events : List ServiceEvent}
    (hconfig : KeepsConfig config events)
    (hclock : (calls events).Pairwise fun earlier later => earlier.now ≤ later.now)
    (hfaults : ∀ call ∈ calls events, ¬ call.faults.Raises .integrityError) :
    Trace.EveryStep ServiceStep (ServiceState.start config) events StatePersisted ↔
      Trace.EveryStep ServiceStep (ServiceState.start config) events
        fun s event _ => ¬ Reenters config s event := by
  refine Trace.EveryStep.congr fun k event s s' hk hrun hstep => ?_
  obtain ⟨request, reply⟩ := event
  cases request with
  | process call =>
      have hsub := calls_take_append_sublist hk
      have hbefore : KeepsConfig config (events.take k) := fun event hevent =>
        hconfig event (List.mem_of_mem_take hevent)
      have hcall : ¬ call.faults.Raises .integrityError :=
        hfaults call (hsub.subset (List.mem_append_right _ (List.mem_singleton_self call)))
      have hpersists (hreturned : reply.returned = true) :=
        ServiceRun.persists_iff config hrun hbefore (hclock.sublist hsub) hstep hreturned hcall
      constructor
      · rintro hpersisted ⟨_, ⟨⟩, hreturned, hreentry⟩
        exact (hpersists hreturned).mp (hpersisted call rfl hreturned) hreentry
      · rintro hnot _ ⟨⟩ hreturned
        exact (hpersists hreturned).mpr fun hreentry => hnot ⟨call, rfl, hreturned, hreentry⟩
  | restart config' => exact iff_of_true (fun _ h => nomatch h) fun ⟨_, h, _⟩ => nomatch h
  | enqueue notice => exact iff_of_true (fun _ h => nomatch h) fun ⟨_, h, _⟩ => nomatch h

/-- With the debounce of the defaults, flickering within one second is persisted. -/
theorem persisted_with_debounce :
    Trace.EveryStep ServiceStep (ServiceState.start .default)
      (serveAll .default
        [.process { qualifying := .ofCoins ["BTC"], now := 1000 },
          .process { qualifying := .ofCoins [], now := 1000 },
          .process { qualifying := .ofCoins ["BTC"], now := 1000 }]).1 StatePersisted := by
  have hdebounce : AdmittedSettings.default.debounce ≠ 0 := by decide +kernel
  refine (persisted_iff_not_reentry .default (keepsConfig_serveAll (by simp))
    (by rw [calls_serveAll]; decide) (by simp [calls_serveAll, Faults.Raises])).mpr ?_
  rintro _ _ s s' _ _ _ ⟨call, _, _, hreentry⟩
  exact hdebounce hreentry.2.2.2.1

theorem undebounced_admitted :
    ({ alertDebounceSeconds := 0 } : Settings).validateRanges = .ok () := by decide +kernel

/-- Settings without a debounce. -/
def undebouncedConfig : AdmittedSettings where
  toSettings := { alertDebounceSeconds := 0 }
  admitted := undebounced_admitted

/-- A coin that has been announced and has left, all in second 1000. -/
def leftInSameSecond : List ServiceEvent × ServiceState :=
  serveAll undebouncedConfig
    [.process { qualifying := .ofCoins ["BTC"], now := 1000 },
      .process { qualifying := .ofCoins [], now := 1000 }]

/-- Without a debounce it is not: the duplicate is suppressed, and the next cycle does not continue
from the state just decided. -/
theorem suppression_loses_state :
    ¬ ∀ config events s, ServiceRun config events s → KeepsConfig config events →
      ((calls events).Pairwise fun earlier later => earlier.now ≤ later.now) →
      Trace.EveryStep ServiceStep (ServiceState.start config) events StatePersisted := by
  intro hclaim
  let call : Call := { qualifying := .ofCoins ["BTC"], now := 1000 }
  have hrun : ServiceRun undebouncedConfig leftInSameSecond.1 leftInSameSecond.2 :=
    run_serveAll undebouncedConfig _
  have hevery := hclaim undebouncedConfig _ _
    (run_serveAll undebouncedConfig
      [.process { qualifying := .ofCoins ["BTC"], now := 1000 },
        .process { qualifying := .ofCoins [], now := 1000 }, .process call])
    (keepsConfig_serveAll (by simp)) (by rw [calls_serveAll]; decide)
  obtain ⟨decision, state, hevaluate, hrow⟩ :=
    hevery.of_append.2 _ _ hrun rfl call rfl (by decide +kernel)
  have hdecided : (leftInSameSecond.2.service.stateMachine.evaluate
      leftInSameSecond.2.tables.alertState call.qualifying call.now).map
        (fun result => result.2.state) = .ok .activeRange := by decide +kernel
  have hkept : (leftInSameSecond.2.serve (.process call)).2.tables.alertState.map
      AlertState.state = some .empty := by decide +kernel
  have hrow : (leftInSameSecond.2.serve (.process call)).2.tables.alertState = some state := hrow
  rw [hevaluate] at hdecided
  rw [hrow] at hkept
  have hactive : state.state = .activeRange := Except.ok.inj hdecided
  have hempty : state.state = .empty := Option.some.inj hkept
  rw [hactive] at hempty
  cases hempty

end BybitMonitor
