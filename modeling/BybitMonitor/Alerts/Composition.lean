import Mathlib
import BybitMonitor.Alerts.Hourly

/-!
# Composition updates

The row remembers the coins of the cycle before and the time of the last composition update. An
update is due when the coins differ from those of the last message, but emitted only in a cycle that
changes them: a change within the cooldown is dropped.

* `CompositionInvariant`: what the row says about coins and updates.
* `composition_rule`: the distance of updates, and which of the due ones are emitted.
-/

namespace BybitMonitor

variable {config : AdmittedSettings} {cycles : List Cycle} {s s' : MachineState}

/-- The time of the last composition update. -/
def lastComposition (cycles : List Cycle) : Option ℤ :=
  (cycles.filter fun cycle => cycle.decision.compositionUpdate).getLast?.map Cycle.now

/-- The coins of the last cycle. -/
def lastCoins (cycles : List Cycle) : List String :=
  (cycles.getLast?.map fun cycle => cycle.qualifying.fingerprint).getD []

/-- Whether a cycle has a message that names its coins as a change. -/
def Cycle.announcesCoins (self : Cycle) : Bool :=
  self.decision.liveTransition || self.decision.compositionUpdate

/-- The coins of the last transition or composition message of the cycles from `start` to the one
before `k`. -/
def announcedCoins (cycles : List Cycle) (start k : ℕ) : Option (List String) :=
  (((cycles.take k).drop start).filter Cycle.announcesCoins).getLast?.map fun cycle =>
    cycle.qualifying.fingerprint

/-- The row remembers the coins of the last cycle and the time of the last composition update. -/
structure CompositionInvariant (cycles : List Cycle) (s : MachineState) : Prop where
  fingerprint_eq : (AlertStateRepository.load s.row).fingerprint = JsonText.dumps (lastCoins cycles)
  lastCompositionAt_eq :
    (AlertStateRepository.load s.row).lastCompositionAt = lastComposition cycles

theorem lastComposition_append (cycles : List Cycle) (cycle : Cycle) :
    lastComposition (cycles ++ [cycle]) =
      if cycle.decision.compositionUpdate then some cycle.now else lastComposition cycles := by
  rw [lastComposition, List.filter_append]
  by_cases hupdate : cycle.decision.compositionUpdate = true
  · simp [hupdate]
  · simp [hupdate, lastComposition]

theorem lastCoins_append (cycles : List Cycle) (cycle : Cycle) :
    lastCoins (cycles ++ [cycle]) = cycle.qualifying.fingerprint := by
  rw [lastCoins, List.getLast?_concat]
  rfl

/-- One cycle keeps the invariant. -/
theorem CompositionInvariant.step {cycle : Cycle} (h : CompositionInvariant cycles s)
    (hs : RunInvariant config cycles s) (hstep : CycleStep config s cycle s') :
    CompositionInvariant (cycles ++ [cycle]) s' := by
  obtain ⟨-, hspec, -⟩ := hstep.cases hs.machine_config hs.wellFormed
  refine ⟨?_, ?_⟩
  · rw [hspec.fingerprint_eq, lastCoins_append]
  · rw [hspec.lastCompositionAt_eq, h.lastCompositionAt_eq, lastComposition_append]

/-- Every run keeps it. -/
theorem Run.compositionInvariant (h : Run config cycles s) : CompositionInvariant cycles s := by
  have hempty : (AlertStateRepository.load none).fingerprint = JsonText.dumps (lastCoins []) := by
    decide
  refine Trace.invariant ⟨hempty, rfl⟩ (fun _ _ _ _ prior hs hstep => ?_) h
  exact hs.step (Run.invariant prior) hstep

/-- With a clock that does not step back, no update is later than the last one. -/
theorem le_lastComposition (hsorted : NonDecreasing cycles) {cycle : Cycle} (hmem : cycle ∈ cycles)
    (hupdate : cycle.decision.compositionUpdate = true) :
    ∃ last ∈ lastComposition cycles, cycle.now ≤ last := by
  induction cycles using List.reverseRecOn with
  | nil => cases hmem
  | append_singleton cycles last ih =>
      obtain ⟨hsorted, -, hlast⟩ := List.pairwise_append.mp hsorted
      rw [lastComposition_append]
      rcases List.mem_append.mp hmem with hmem | hmem
      · split
        · exact ⟨last.now, rfl, hlast cycle hmem last (List.mem_singleton_self last)⟩
        · exact ih hsorted hmem
      · rw [List.mem_singleton] at hmem
        subst hmem
        rw [if_pos hupdate]
        exact ⟨cycle.now, rfl, le_rfl⟩

/-- When a cycle has a composition update, in terms of the cycles before it. -/
theorem compositionUpdate_iff (hrun : Run config cycles s) {k : ℕ} {cycle : Cycle}
    (hk : cycles[k]? = some cycle) :
    cycle.decision.compositionUpdate = true ↔ config.inRange cycle.qualifying = true ∧
      runPhase config (cycles.take k) = .confirmed ∧ config.compositionChangeAlerts = true ∧
      lastCoins (cycles.take k) ≠ cycle.qualifying.fingerprint ∧
      ∀ last ∈ lastComposition (cycles.take k), config.cooldown ≤ cycle.now - last := by
  obtain ⟨s₁, s₂, hs₁, hrun₁, hspec, -⟩ := hrun.cycle_at hk
  have hrow := hrun₁.compositionInvariant
  rw [hspec.composition_iff, AlertStateMachine.CompositionDue, hs₁.phase_eq, hrow.fingerprint_eq,
    hrow.lastCompositionAt_eq, Ne, JsonText.dumps_injective.eq_iff]

/-- An update is due in cycle `k`: its episode was confirmed before, its coins differ from those of
the last transition or composition message of the episode, and the cooldown is over. -/
structure UpdateDue (config : AdmittedSettings) (cycles : List Cycle) (start k : ℕ)
    (cycle : Cycle) : Prop where
  episode : Episode config cycles start k
  debounced : ∃ j < k, DebouncedBy config cycles start j
  changed : ∃ coins ∈ announcedCoins cycles start k, cycle.qualifying.fingerprint ≠ coins
  cooldown : ∀ last ∈ lastComposition (cycles.take k), config.cooldown ≤ cycle.now - last

/-- How the cycles of a run announce changes of the composition. -/
structure CompositionRule (config : AdmittedSettings) (cycles : List Cycle) : Prop where
  /-- Two updates are the cooldown apart. -/
  spaced : ∀ (i j : ℕ) (earlier later : Cycle), i < j → cycles[i]? = some earlier →
    cycles[j]? = some later → earlier.decision.compositionUpdate = true →
    later.decision.compositionUpdate = true → config.cooldown ≤ later.now - earlier.now
  /-- An update that is due is emitted exactly if the coins are not those of the cycle before. -/
  due_iff : ∀ (start k : ℕ) (previous cycle : Cycle), cycles[k]? = some previous →
    cycles[k + 1]? = some cycle → UpdateDue config cycles start (k + 1) cycle →
    (cycle.decision.compositionUpdate = true ↔
      cycle.qualifying.fingerprint ≠ previous.qualifying.fingerprint)

/-- Every run with composition alerts whose clock does not step back keeps the rule. -/
theorem composition_rule (config : AdmittedSettings) (hon : config.compositionChangeAlerts = true)
    {cycles : List Cycle} {s : MachineState} (hrun : Run config cycles s)
    (hsorted : NonDecreasing cycles) : CompositionRule config cycles where
  spaced := by
    intro i j earlier later hij hi hj hearlier hlater
    obtain ⟨-, -, -, -, hcooldown⟩ := (compositionUpdate_iff hrun hj).mp hlater
    have hmem : earlier ∈ cycles.take j :=
      List.mem_iff_getElem?.mpr ⟨i, by rw [List.getElem?_take_of_lt hij, hi]⟩
    obtain ⟨last, hlast, hle⟩ :=
      le_lastComposition (hsorted.sublist (List.take_sublist j cycles)) hmem hearlier
    have := hcooldown last hlast
    omega
  due_iff := by
    intro start k previous cycle hprevious hk hdue
    have hrange : config.inRange cycle.qualifying = true :=
      hdue.episode.active_of_mem (k + 1) cycle hdue.episode.start_le le_rfl hk
    have hphase : runPhase config (cycles.take (k + 1)) = .confirmed :=
      hdue.episode.phase_take_eq_confirmed_iff.mpr hdue.debounced
    -- the row has the coins of the cycle before
    have hcoins : lastCoins (cycles.take (k + 1)) = previous.qualifying.fingerprint := by
      rw [List.take_add_one, hprevious, Option.toList_some, lastCoins_append]
    rw [compositionUpdate_iff hrun hk, hcoins]
    constructor
    · exact fun h => h.2.2.2.1.symm
    · exact fun h => ⟨hrange, hphase, hon, h.symm, hdue.cooldown⟩

/-- The default settings with composition alerts, whose cooldown is 300 seconds. -/
def changeAlertSettings : AdmittedSettings where
  toSettings := { compositionChangeAlerts := true }
  admitted := by decide +kernel

/-- The second change falls into the cooldown, and the third one is announced after it. -/
theorem composition_rule_third_change :
    let cycles := (runCycles changeAlertSettings
      [(false, .ofCoins ["BTC"], 1000), (false, .ofCoins ["BTC"], 1020),
        (false, .ofCoins ["BTC", "ETH"], 1030), (false, .ofCoins ["BTC", "SOL"], 1040),
        (true, .ofCoins ["BTC", "XRP"], 1400)]).1
    cycles.map (fun cycle => cycle.decision.compositionUpdate) =
        [false, false, true, false, true] ∧
      CompositionRule changeAlertSettings cycles :=
  ⟨by decide +kernel,
    composition_rule changeAlertSettings rfl (run_runCycles _ _)
      (by unfold NonDecreasing; decide +kernel)⟩

/-- The change at 1040 falls into the cooldown and stays; at 1400 it is due, and still dropped. -/
theorem composition_change_lost :
    ¬ ∀ (config : AdmittedSettings) (cycles : List Cycle) (s : MachineState),
      config.compositionChangeAlerts = true → 1 ≤ config.cooldown → Run config cycles s →
        NonDecreasing cycles → ∀ (start k : ℕ) (cycle : Cycle), cycles[k]? = some cycle →
          UpdateDue config cycles start k cycle → cycle.decision.compositionUpdate = true := by
  intro hclaim
  let inputs : List CycleInput :=
    [(false, .ofCoins ["BTC"], 1000), (false, .ofCoins ["BTC"], 1020),
      (false, .ofCoins ["BTC", "ETH"], 1030), (false, .ofCoins ["BTC", "SOL"], 1040),
      (false, .ofCoins ["BTC", "SOL"], 1400)]
  have hrun := run_runCycles changeAlertSettings inputs
  generalize hcycles : (runCycles changeAlertSettings inputs).1 = cycles at hrun
  have htime (k : ℕ) : (cycles[k]?.map Cycle.now) = [1000, 1020, 1030, 1040, 1400][k]? := by
    rw [← List.getElem?_map, ← hcycles]
    exact congrArg (fun times => times[k]?) (by decide +kernel)
  have hcoins : (cycles[4]?.map fun cycle =>
      (cycle.qualifying.fingerprint, cycle.decision.compositionUpdate)) =
        some (["BTC", "SOL"], false) := by
    rw [← hcycles]
    decide +kernel
  have hannounced : announcedCoins cycles 0 4 = some ["BTC", "ETH"] := by
    rw [← hcycles]
    decide +kernel
  have hlast : lastComposition (cycles.take 4) = some 1030 := by
    rw [← hcycles]
    decide +kernel
  have hactive : ∀ cycle ∈ cycles, changeAlertSettings.inRange cycle.qualifying = true := by
    rw [← hcycles]
    decide +kernel
  have hsorted : NonDecreasing cycles := by
    rw [← hcycles]
    unfold NonDecreasing
    decide +kernel
  -- the first cycle, the one that confirms the episode, and the one that drops the update
  obtain ⟨first, hfirst, hfirstNow⟩ := Option.map_eq_some_iff.mp (htime 0)
  obtain ⟨second, hsecond, hsecondNow⟩ := Option.map_eq_some_iff.mp (htime 1)
  obtain ⟨cycle, hcycle, hcycleCoins⟩ := Option.map_eq_some_iff.mp hcoins
  obtain ⟨hfingerprint, hnone⟩ := Prod.mk.inj hcycleCoins
  have hnow : cycle.now = 1400 := by
    have hfour := htime 4
    rw [hcycle] at hfour
    exact Option.some.inj hfour
  have hdue : UpdateDue changeAlertSettings cycles 0 4 cycle :=
    { episode :=
        { start_le := Nat.zero_le 4
          lt_length := (List.getElem?_eq_some_iff.mp hcycle).1
          active_of_mem := fun j earlier _ _ hj => hactive earlier (List.mem_of_getElem? hj)
          starts := fun _ hpos => absurd hpos (lt_irrefl 0) }
      debounced := by
        refine ⟨1, by omega, first, 1, second, hfirst, Nat.zero_le 1, le_rfl, hsecond, ?_⟩
        rw [hfirstNow, hsecondNow]
        decide +kernel
      changed := ⟨_, hannounced, by rw [hfingerprint]; decide⟩
      cooldown := by
        intro last hmem
        rw [hlast] at hmem
        obtain rfl := Option.some.inj hmem
        rw [hnow]
        decide +kernel }
  have hupdate := hclaim changeAlertSettings cycles _ rfl (by decide +kernel) hrun hsorted 0 4 cycle
    hcycle hdue
  rw [hnone] at hupdate
  cases hupdate

end BybitMonitor
