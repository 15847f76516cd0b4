import Mathlib
import BybitMonitor.Alerts.Run

/-!
# Debounced transitions

An episode is a maximal block of consecutive cycles whose number of qualifying coins is in range.

* `Run.origin_eq`: until an episode is confirmed, the row remembers the classification of the cycle
  before its first one.
* `liveTransition_iff_debounced`: an episode announces its transition in the first cycle that lies
  the debounce time after its first one, and nothing else before that.
-/

namespace BybitMonitor

variable {config : AdmittedSettings} {cycles : List Cycle} {s : MachineState}

/-- The cycles `start` to `k` are in range, and `start` begins the block. -/
abbrev Episode (config : AdmittedSettings) (cycles : List Cycle) (start k : ℕ) : Prop :=
  Debounce.InEpisode (fun cycle => config.inRange cycle.qualifying) cycles start k

/-- No cycle from `start` to the one before `k` lies the debounce time after `first`, the cycle at
`start`. -/
def NotDebouncedBefore (config : AdmittedSettings) (cycles : List Cycle) (start k : ℕ)
    (first : Cycle) : Prop :=
  ∀ j cycle, start ≤ j → j < k → cycles[j]? = some cycle →
    cycle.now - first.now < config.debounce

/-- Until an episode is confirmed, the row remembers the classification of the cycle before its
first one. -/
theorem Run.origin_eq (h : Run config cycles s) {start : ℕ}
    (hopen : Debounce.OpenSince (fun cycle => config.inRange cycle.qualifying) cycles start)
    (hphase : (AlertStateRepository.load s.row).phase ≠ .confirmed) :
    (AlertStateRepository.load s.row).origin = classificationBefore config cycles start := by
  induction h with
  | nil =>
      obtain rfl : start = 0 := Nat.le_zero.mp hopen.start_le
      rfl
  | @snoc cycles s cycle s' prior last ih =>
      have hs := Run.invariant prior
      obtain ⟨-, hspec, hrow⟩ := last.cases hs.machine_config hs.wellFormed
      rcases hopen.of_append with ⟨rfl, hinactive⟩ | ⟨hle, hopen, hactive⟩
      · -- outside the range the row is idle and stores the last classification
        have hidle : (AlertStateRepository.load s'.row).phase = .idle := by
          rw [hspec.phase_eq, hinactive, Debounce.Phase.step_inactive]
        rw [AlertState.origin_of_idle hrow hidle, hspec.state_eq, classificationBefore_last]
      · rw [classificationBefore_append hle]
        have hearlier : (AlertStateRepository.load s.row).phase ≠ .confirmed := by
          intro hconfirmed
          rw [hspec.phase_eq, hconfirmed, hactive] at hphase
          exact hphase rfl
        have hwaiting : ∃ since, (AlertStateRepository.load s'.row).phase = .waiting since := by
          rw [hspec.phase_eq, hactive] at hphase ⊢
          exact Debounce.Phase.step_active_of_ne_confirmed hphase
        obtain ⟨since, hwaiting⟩ := hwaiting
        rw [hspec.origin_eq since hwaiting, ih hopen hearlier]

/-- No cycle of an episode lies the debounce time after its first one before `k` exactly if the
automaton has not confirmed the episode before `k`. -/
theorem notDebouncedBefore_iff {start k : ℕ} {first : Cycle}
    (hepisode : Episode config cycles start k) (hfirst : cycles[start]? = some first) :
    NotDebouncedBefore config cycles start k first ↔
      runPhase config (cycles.take k) ≠ .confirmed := by
  rw [runPhase, Ne, hepisode.phase_take_eq_confirmed_iff]
  simp only [not_exists, not_and]
  rw [Debounce.forall_not_confirmedBy_iff hfirst]
  simp only [NotDebouncedBefore, not_le]

/-- How the cycles of a run announce the entry into the range. -/
structure AnnouncesEpisodes (config : AdmittedSettings) (cycles : List Cycle) : Prop where
  /-- An episode has its live transition in exactly the first cycle that lies the debounce time
  after its first one. -/
  live_iff : ∀ (start k : ℕ) (first cycle : Cycle), Episode config cycles start k →
    cycles[start]? = some first → cycles[k]? = some cycle →
    (cycle.decision.liveTransition = true ↔
      config.debounce ≤ cycle.now - first.now ∧ NotDebouncedBefore config cycles start k first)
  /-- Its reason names the classification of the cycle before the episode. -/
  reason : ∀ (start k : ℕ) (cycle : Cycle), Episode config cycles start k →
    cycles[k]? = some cycle → cycle.decision.liveTransition = true →
    cycle.decision.transitionReason =
      (classificationBefore config cycles start).name ++ " -> " ++ GroupState.activeRange.name
  /-- Up to that cycle the episode has no other message. -/
  silent_before : ∀ (start k : ℕ) (first cycle : Cycle), Episode config cycles start k →
    cycles[start]? = some first → cycles[k]? = some cycle →
    NotDebouncedBefore config cycles start k first →
    cycle.decision.compositionUpdate = false ∧ cycle.decision.hourlyUpdate = false
  /-- Outside the episodes there is no message. -/
  silent_outside : ∀ (k : ℕ) (cycle : Cycle), cycles[k]? = some cycle →
    config.inRange cycle.qualifying = false →
    cycle.decision.liveTransition = false ∧ cycle.decision.compositionUpdate = false ∧
      cycle.decision.hourlyUpdate = false

/-- Every run with immediate transition alerts announces its episodes once they are debounced. -/
theorem liveTransition_iff_debounced (config : AdmittedSettings)
    (hon : config.immediateTransitionAlerts = true) {cycles : List Cycle} {s : MachineState}
    (hrun : Run config cycles s) : AnnouncesEpisodes config cycles where
  live_iff := by
    intro start k first cycle hepisode hfirst hk
    obtain ⟨s₁, s₂, hs₁, -, hspec, -⟩ := hrun.cycle_at hk
    -- the row stands for the phase of the history, which fires once in an episode
    rw [hspec.live_iff, hs₁.phase_eq, runPhase, hepisode.fires_iff hfirst hk,
      Debounce.forall_not_confirmedBy_iff hfirst]
    simp only [hon, true_and, NotDebouncedBefore, not_le]
  reason := by
    intro start k cycle hepisode hk hlive
    obtain ⟨s₁, s₂, -, hrun₁, hspec, -⟩ := hrun.cycle_at hk
    have hphase := (hspec.live_iff.mp hlive).2.1
    rw [hspec.reason hlive, hrun₁.origin_eq hepisode.openSince hphase, classificationBefore,
      classificationBefore, List.take_take, Nat.min_eq_left hepisode.start_le]
  silent_before := by
    intro start k first cycle hepisode hfirst hk hnone
    obtain ⟨s₁, s₂, hs₁, -, hspec, -⟩ := hrun.cycle_at hk
    refine hspec.only_live_of_not_confirmed hon ?_
    rw [hs₁.phase_eq]
    exact (notDebouncedBefore_iff hepisode hfirst).mp hnone
  silent_outside := by
    intro k cycle hk hrange
    obtain ⟨s₁, s₂, -, -, hspec, -⟩ := hrun.cycle_at hk
    exact hspec.silent_of_not_inRange hrange

/-- A coin that stays for the 20 seconds of the default settings is announced, through a change of
the composition and a restart. -/
theorem liveTransition_after_twenty_seconds :
    let cycles := (runCycles AdmittedSettings.default
      [(false, .ofCoins ["BTC"], 1000), (false, .ofCoins ["BTC", "ETH"], 1019),
        (true, .ofCoins ["BTC"], 1020)]).1
    cycles.map (fun cycle => cycle.decision.liveTransition) = [false, false, true] ∧
      AnnouncesEpisodes AdmittedSettings.default cycles :=
  ⟨by decide +kernel,
    liveTransition_iff_debounced AdmittedSettings.default (by decide +kernel)
      (run_runCycles AdmittedSettings.default _)⟩

end BybitMonitor
