import Mathlib
import BybitMonitor.Alerts.Atomicity

/-!
# Claimed hour buckets and their messages

The state machine claims the hour bucket, but the service chooses the message, and a composition
update goes before an hourly update.

* `CompositionPreempts`: a composition update falls into the first cycle of an hour that would have
  an hourly update.
* `ServiceInvariant.bucketAnnounced_iff`: a step that changes the stored bucket inserts a transition
  or an hourly message exactly if it is not such a cycle.
* `hourBucket_announced_iff`: so do the steps of every run.
-/

namespace BybitMonitor

variable {s s' : ServiceState}

/-- The step from `s` to `s'` has inserted a row with this tag. -/
def Inserts (s s' : ServiceState) (tag : String) : Prop :=
  ∃ row ∈ s'.tables.outgoing, row ∉ s.tables.outgoing ∧ row.messageTag = tag

instance (s s' : ServiceState) (tag : String) : Decidable (Inserts s s' tag) :=
  inferInstanceAs (Decidable (∃ row ∈ s'.tables.outgoing, _))

/-- In a confirmed range, a composition update and the hourly update of a new hour are due in the
same cycle. -/
def CompositionPreempts (config : AdmittedSettings) (stored : AlertState)
    (qualifying : QualifyingSet) (now : ℤ) : Prop :=
  config.inRange qualifying = true ∧ stored.phase = .confirmed ∧
    AlertStateMachine.CompositionDue config stored qualifying.fingerprint now ∧
    config.hourlyActiveAlerts = true ∧ stored.lastHourlyBucket ≠ some (hourText (now / 3600))

/-- Both updates are decided exactly if the composition update preempts the hourly one. -/
theorem CycleSpec.preempts_iff {config : AdmittedSettings} {stored state : AlertState}
    {qualifying : QualifyingSet} {now : ℤ} {decision : AlertDecision}
    (h : CycleSpec config stored qualifying now decision state) :
    CompositionPreempts config stored qualifying now ↔
      decision.compositionUpdate = true ∧ decision.hourlyUpdate = true := by
  constructor
  · rintro ⟨hrange, hphase, hdue, hon, hbucket⟩
    have hcomposition := h.composition_iff.mpr ⟨hrange, hphase, hdue⟩
    have hconfirmed : state.phase = .confirmed := by
      rw [h.phase_eq, hphase, hrange, Debounce.Phase.step_confirmed]
    have hlive := h.not_live_of_composition hcomposition
    exact ⟨hcomposition, h.hourly_iff.mpr ⟨hon, hconfirmed, hlive, hbucket⟩⟩
  · rintro ⟨hcomposition, hhourly⟩
    obtain ⟨hrange, hphase, hdue⟩ := h.composition_iff.mp hcomposition
    obtain ⟨hon, -, -, hbucket⟩ := h.hourly_iff.mp hhourly
    exact ⟨hrange, hphase, hdue, hon, hbucket⟩

/-- A committed call inserts a message of exactly the kind of its decision. -/
theorem Commits.inserts_iff {call : Call} {decision : AlertDecision} {state : AlertState}
    {alert : Option OutgoingAlert} {tables' : Tables} {fed : Option ℕ}
    (hcommits : Commits s.tables call state alert tables' fed)
    (hplanned : Planned s.service.config s.stored call decision state alert)
    (hkeyed : s.tables.WellKeyed) (kind : AlertKind) :
    Inserts s (s.withTables tables') kind.tag ↔ decision.kind = some kind := by
  rw [Inserts, ServiceState.withTables_tables, hcommits.outgoing_eq, ← hplanned.kind_eq]
  constructor
  · rintro ⟨row, hrow, hnew, htag⟩
    rcases List.mem_append.mp hrow with hrow | hrow
    · exact absurd hrow hnew
    · obtain ⟨a, ha, rfl⟩ := List.mem_map.mp hrow
      rw [Option.mem_toList.mp ha]
      exact congrArg some (AlertKind.tag_injective htag)
  · intro hkind
    obtain ⟨a, rfl, rfl⟩ := Option.map_eq_some_iff.mp hkind
    refine ⟨_, List.mem_append_right _ (List.mem_singleton_self _), fun hold => ?_, rfl⟩
    -- the new id lies above every old one
    exact absurd (hkeyed.id_le _ hold) (Nat.not_succ_le_self _)

/-- A step that changes the stored hour bucket inserts a transition or an hourly message, and an
hourly one if it has decided an hourly update. -/
def BucketAnnounced (s : ServiceState) (event : ServiceEvent) (s' : ServiceState) : Prop :=
  s'.stored.lastHourlyBucket ≠ s.stored.lastHourlyBucket →
    (Inserts s s' AlertKind.transition.tag ∨ Inserts s s' AlertKind.hourly.tag) ∧
      ∀ decision fed, event.2 = .processed (.ok decision) fed → decision.hourlyUpdate = true →
        Inserts s s' AlertKind.hourly.tag

/-- A step that changes the stored hour bucket is a call in which a composition update preempts the
hourly one. -/
def BucketPreempted (s : ServiceState) (event : ServiceEvent) (s' : ServiceState) : Prop :=
  s'.stored.lastHourlyBucket ≠ s.stored.lastHourlyBucket ∧
    ∃ call, event.1 = .process call ∧
      CompositionPreempts s.service.config s.stored call.qualifying call.now

/-- A decision that claims the bucket has a transition or an hourly message, unless both updates are
decided. -/
theorem CycleSpec.kind_of_claims {config : AdmittedSettings} {stored state : AlertState}
    {qualifying : QualifyingSet} {now : ℤ} {decision : AlertDecision}
    (h : CycleSpec config stored qualifying now decision state)
    (hclaims : decision.liveTransition = true ∨ decision.hourlyUpdate = true)
    (hnot : ¬ CompositionPreempts config stored qualifying now) :
    (decision.kind = some .transition ∧ decision.hourlyUpdate = false) ∨
      decision.kind = some .hourly := by
  rw [h.preempts_iff] at hnot
  rw [AlertDecision.kind]
  by_cases hlive : decision.liveTransition = true
  · have hhourly : decision.hourlyUpdate = false :=
      Bool.eq_false_iff.mpr fun hdue => absurd hlive (by simp [(h.hourly_iff.mp hdue).2.2.1])
    exact Or.inl ⟨if_pos hlive, hhourly⟩
  · have hhourly := hclaims.resolve_left hlive
    have hcomposition : ¬ decision.compositionUpdate = true := fun hdue => hnot ⟨hdue, hhourly⟩
    right
    rw [if_neg hlive, if_neg hcomposition, if_pos hhourly]

/-- A step announces the bucket that it claims exactly if no composition update preempts it. -/
theorem ServiceInvariant.bucketAnnounced_iff (hs : ServiceInvariant s) {event : ServiceEvent}
    (hstep : ServiceStep s event s') :
    BucketAnnounced s event s' ↔ ¬ BucketPreempted s event s' := by
  cases hstep.move hs with
  | @committed call decision state alert tables' fed hplan hcommits =>
      have hplanned := hs.planned hplan
      have hspec := hplanned.spec
      constructor
      · rintro hannounced ⟨hchanged, _, ⟨⟩, hpreempts⟩
        obtain ⟨hcomposition, -⟩ := hspec.preempts_iff.mp hpreempts
        -- the message is the composition update
        have hkind := hspec.kind_eq_composition_iff.mpr hcomposition
        rcases (hannounced hchanged).1 with hinserts | hinserts
        · rw [hcommits.inserts_iff hplanned hs.wellKeyed, hkind] at hinserts
          cases hinserts
        · rw [hcommits.inserts_iff hplanned hs.wellKeyed, hkind] at hinserts
          cases hinserts
      · intro hnot hchanged
        have hclaims : decision.liveTransition = true ∨ decision.hourlyUpdate = true := by
          rw [hcommits.stored_eq, hspec.lastHourlyBucket_eq] at hchanged
          by_contra hnone
          rw [← Bool.or_eq_true] at hnone
          exact hchanged (if_neg hnone)
        have hkind := hspec.kind_of_claims hclaims fun hpreempts =>
          hnot ⟨hchanged, call, rfl, hpreempts⟩
        rw [hcommits.inserts_iff hplanned hs.wellKeyed, hcommits.inserts_iff hplanned hs.wellKeyed]
        refine ⟨hkind.imp And.left id, fun decision' fed' hreply hhourly => ?_⟩
        obtain ⟨hdecision, -⟩ := Reply.processed.inj hreply
        obtain rfl : decision = decision' := Except.ok.inj hdecision
        exact hkind.resolve_left fun htransition =>
          absurd hhourly (by simp [htransition.2])
  | _ => exact iff_of_true (fun hchanged => absurd rfl hchanged) fun h => h.1 rfl

/-- In every run, each step that changes the stored hour bucket inserts a message about it, if and
only if in no such step a composition update preempts the hourly one. -/
theorem hourBucket_announced_iff (config : AdmittedSettings) (events : List ServiceEvent) :
    Trace.EveryStep ServiceStep (ServiceState.start config) events BucketAnnounced ↔
      Trace.EveryStep ServiceStep (ServiceState.start config) events
        fun s event s' => ¬ BucketPreempted s event s' :=
  Trace.EveryStep.congr fun _ _ _ _ _ hrun hstep =>
    (ServiceRun.invariant hrun).bucketAnnounced_iff hstep

/-- Settings with composition updates and no debounce. -/
def compositionConfig : AdmittedSettings where
  toSettings := { alertDebounceSeconds := 0, compositionChangeAlerts := true }
  admitted := by decide +kernel

/-- A different coin in the next hour takes the hour without an hourly message. -/
theorem hourBucket_consumed_silently :
    ¬ ∀ config events s, ServiceRun config events s → KeepsConfig config events →
      ((calls events).Pairwise fun earlier later => earlier.now ≤ later.now) →
      Trace.EveryStep ServiceStep (ServiceState.start config) events BucketAnnounced := by
  intro hclaim
  have hrun := run_serveAll compositionConfig
    [.process { qualifying := .ofCoins ["BTC"], now := 1000 }]
  have hevery := hclaim compositionConfig _ _
    (run_serveAll compositionConfig
      [.process { qualifying := .ofCoins ["BTC"], now := 1000 },
        .process { qualifying := .ofCoins ["ETH"], now := 3600 }])
    (keepsConfig_serveAll (by simp)) (by rw [calls_serveAll]; decide)
  obtain ⟨hinserted, -⟩ := hevery.of_append.2 _ _ hrun rfl (by decide +kernel)
  exact absurd hinserted (by decide +kernel)

end BybitMonitor
