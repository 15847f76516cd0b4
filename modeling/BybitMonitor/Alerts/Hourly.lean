import Mathlib
import BybitMonitor.Alerts.Transition

/-!
# Hourly updates

The single cell `last_hourly_bucket` summarises which hours a run has already spoken in.

* `lastClaim_eq_iff`: with a clock that does not step back, the stored bucket is the present hour's
  exactly if an earlier cycle of that hour had a live transition or an hourly update.
* `hourlyUpdate_iff`: when a cycle has an hourly update, in terms of the history of the run.
-/

namespace BybitMonitor

variable {config : AdmittedSettings} {cycles : List Cycle} {s : MachineState}

/-- The cycles of a run are in the order of their times. -/
def NonDecreasing (cycles : List Cycle) : Prop :=
  cycles.Pairwise fun earlier later => earlier.now ≤ later.now

/-- A cycle from `start` to `k` lies the debounce time after the cycle at `start`. -/
def DebouncedBy (config : AdmittedSettings) (cycles : List Cycle) (start k : ℕ) : Prop :=
  Debounce.ConfirmedBy config.debounce Cycle.now cycles start k

/-- With a clock that does not step back, the bucket claimed last is the one of hour `hour`, which
no cycle lies after, exactly if some cycle has claimed that hour. -/
theorem lastClaim_eq_iff {hour : ℤ} (hsorted : NonDecreasing cycles)
    (hpast : ∀ cycle ∈ cycles, cycle.now / 3600 ≤ hour) :
    lastClaim cycles = some (hourText hour) ↔
      ∃ cycle ∈ cycles, cycle.claimsHour = true ∧ cycle.now / 3600 = hour := by
  induction cycles using List.reverseRecOn with
  | nil => simp [lastClaim]
  | append_singleton cycles last ih =>
      obtain ⟨hsorted, -, hlast⟩ := List.pairwise_append.mp hsorted
      have hle : ∀ cycle ∈ cycles, cycle.now ≤ last.now := fun cycle hcycle =>
        hlast cycle hcycle last (List.mem_singleton_self last)
      have hpast' : ∀ cycle ∈ cycles, cycle.now / 3600 ≤ hour := fun cycle hcycle =>
        hpast cycle (List.mem_append_left _ hcycle)
      rw [lastClaim_append]
      by_cases hclaim : last.claimsHour = true
      · rw [if_pos hclaim]
        constructor
        · intro heq
          exact ⟨last, by simp, hclaim, hourText_injective (Option.some.inj heq)⟩
        · rintro ⟨cycle, hcycle, -, rfl⟩
          have hlastHour := hpast last (by simp)
          rcases List.mem_append.mp hcycle with hcycle | hcycle
          · -- the last claim lies between an earlier one of the hour and the end of the hour
            have hmono := Int.ediv_le_ediv (by decide : (0 : ℤ) < 3600) (hle cycle hcycle)
            rw [le_antisymm hlastHour hmono]
          · rw [List.mem_singleton.mp hcycle]
      · rw [if_neg hclaim, ih hsorted hpast']
        constructor
        · rintro ⟨cycle, hcycle, hrest⟩
          exact ⟨cycle, List.mem_append_left _ hcycle, hrest⟩
        · rintro ⟨cycle, hcycle, hclaimed, hhour⟩
          rcases List.mem_append.mp hcycle with hcycle | hcycle
          · exact ⟨cycle, hcycle, hclaimed, hhour⟩
          · rw [List.mem_singleton.mp hcycle] at hclaimed
            exact absurd hclaimed hclaim

/-- No cycle before index `k` in the hour of `cycle` had an hourly update or a live transition. -/
def HourUnclaimed (cycles : List Cycle) (k : ℕ) (cycle : Cycle) : Prop :=
  ∀ (j : ℕ) (earlier : Cycle), j < k → cycles[j]? = some earlier →
    earlier.now / 3600 = cycle.now / 3600 →
    earlier.decision.hourlyUpdate = false ∧ earlier.decision.liveTransition = false

/-- The bucket stored before cycle `k` is another hour's exactly if the hour is unclaimed. -/
theorem lastClaim_ne_iff (hsorted : NonDecreasing cycles) {k : ℕ} {cycle : Cycle}
    (hk : cycles[k]? = some cycle) :
    lastClaim (cycles.take k) ≠ some (hourText (cycle.now / 3600)) ↔
      HourUnclaimed cycles k cycle := by
  -- a clock that does not step back leaves no later hour behind
  have hpast : ∀ earlier ∈ cycles.take k, earlier.now / 3600 ≤ cycle.now / 3600 := by
    intro earlier hearlier
    obtain ⟨j, hj⟩ := List.mem_iff_getElem?.mp hearlier
    obtain ⟨hjk, hj⟩ := Debounce.getElem?_of_take hj
    obtain ⟨hjlen, hj⟩ := List.getElem?_eq_some_iff.mp hj
    obtain ⟨hklen, hk⟩ := List.getElem?_eq_some_iff.mp hk
    refine Int.ediv_le_ediv (by decide) ?_
    rw [← hj, ← hk]
    exact List.pairwise_iff_getElem.mp hsorted j k hjlen hklen hjk
  have hclaimed (earlier : Cycle) : ¬ earlier.claimsHour = true ↔
      earlier.decision.hourlyUpdate = false ∧ earlier.decision.liveTransition = false := by
    rw [Cycle.claimsHour, Bool.not_eq_true, Bool.or_eq_false_iff, and_comm]
  rw [Ne, lastClaim_eq_iff (hsorted.sublist (List.take_sublist k cycles)) hpast]
  constructor
  · intro hnone j earlier hjk hj hhour
    refine (hclaimed earlier).mp fun hclaim => hnone ⟨earlier, ?_, hclaim, hhour⟩
    refine List.mem_iff_getElem?.mpr ⟨j, ?_⟩
    rw [List.getElem?_take_of_lt hjk, hj]
  · rintro hnone ⟨earlier, hearlier, hclaim, hhour⟩
    obtain ⟨j, hj⟩ := List.mem_iff_getElem?.mp hearlier
    obtain ⟨hjk, hj⟩ := Debounce.getElem?_of_take hj
    exact (hclaimed earlier).mpr (hnone j earlier hjk hj hhour) hclaim

/-- When the cycles of a run have an hourly update. -/
structure HourlyRule (config : AdmittedSettings) (cycles : List Cycle) : Prop where
  /-- Exactly if the updates are on, the cycle is in range in an episode that has been debounced,
  has no live transition itself, and no earlier cycle of its hour had either message. -/
  hourly_iff : ∀ (k : ℕ) (cycle : Cycle), cycles[k]? = some cycle →
    (cycle.decision.hourlyUpdate = true ↔
      config.hourlyActiveAlerts = true ∧ config.inRange cycle.qualifying = true ∧
      (∃ start, Episode config cycles start k ∧ DebouncedBy config cycles start k) ∧
      cycle.decision.liveTransition = false ∧ HourUnclaimed cycles k cycle)
  /-- An hour has at most one hourly update, and none after a live transition. -/
  once : ∀ (j k : ℕ) (earlier cycle : Cycle), j < k → cycles[j]? = some earlier →
    cycles[k]? = some cycle → earlier.now / 3600 = cycle.now / 3600 →
    earlier.decision.hourlyUpdate = true ∨ earlier.decision.liveTransition = true →
    cycle.decision.hourlyUpdate = false

/-- An unclaimed hour is what an hourly update needs, so a claim rules out every later one. -/
theorem HourUnclaimed.elim {k j : ℕ} {cycle earlier : Cycle} (h : HourUnclaimed cycles k cycle)
    (hjk : j < k) (hj : cycles[j]? = some earlier)
    (hhour : earlier.now / 3600 = cycle.now / 3600) :
    ¬ (earlier.decision.hourlyUpdate = true ∨ earlier.decision.liveTransition = true) := by
  obtain ⟨hhourly, hlive⟩ := h j earlier hjk hj hhour
  rw [hhourly, hlive]
  simp

/-- Every run whose clock does not step back keeps the hourly rule. -/
theorem hourlyUpdate_iff (config : AdmittedSettings) {cycles : List Cycle} {s : MachineState}
    (hrun : Run config cycles s) (hsorted : NonDecreasing cycles) : HourlyRule config cycles := by
  have hiff (k : ℕ) (cycle : Cycle) (hk : cycles[k]? = some cycle) :
      cycle.decision.hourlyUpdate = true ↔
        config.hourlyActiveAlerts = true ∧ config.inRange cycle.qualifying = true ∧
        (∃ start, Episode config cycles start k ∧ DebouncedBy config cycles start k) ∧
        cycle.decision.liveTransition = false ∧ HourUnclaimed cycles k cycle := by
    obtain ⟨s₁, s₂, hs₁, -, hspec, hs₂⟩ := hrun.cycle_at hk
    rw [hspec.hourly_iff, hs₂.phase_eq, hs₁.bucket_eq, runPhase,
      Debounce.phase_take_succ_eq_confirmed_iff hk, lastClaim_ne_iff hsorted hk, and_assoc]
    rfl
  refine ⟨hiff, fun j k earlier cycle hjk hj hk hhour hclaim => ?_⟩
  refine Bool.eq_false_iff.mpr fun hhourly => ?_
  exact ((hiff k cycle hk).mp hhourly).2.2.2.2.elim hjk hj hhour hclaim

/-- With the transition alerts off, a debounced coin has one hourly update in each of two hours. -/
theorem hourlyUpdate_each_hour :
    let config : AdmittedSettings :=
      { toSettings := { immediateTransitionAlerts := false }, admitted := by decide +kernel }
    let cycles := (runCycles config
      [(false, .ofCoins ["BTC"], 7000), (false, .ofCoins ["BTC"], 7100),
        (true, .ofCoins ["BTC"], 7199), (false, .ofCoins ["BTC"], 7200)]).1
    cycles.map (fun cycle => cycle.decision.hourlyUpdate) = [false, true, false, true] ∧
      HourlyRule config cycles :=
  ⟨by decide +kernel,
    hourlyUpdate_iff _ (run_runCycles _ _) (by unfold NonDecreasing; decide +kernel)⟩

end BybitMonitor
