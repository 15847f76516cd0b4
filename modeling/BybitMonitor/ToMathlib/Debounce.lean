import Mathlib.Data.List.TakeDrop
import Mathlib.Order.Nat

/-!
# Debounced entry into a condition

A condition that is sampled at discrete times is *confirmed* once it has held in every sample
of an episode and a sample of that episode lies at least `delay` after the episode's first one.
`Debounce.Phase` is the automaton that decides this with one stored time, and the results of
this file say what its phase means in terms of the whole history of samples.

* `Debounce.InEpisode.phase_eq`: the phase inside an episode.
* `Debounce.phase_eq_idle`: the phase outside every episode.
* `Debounce.InEpisode.fires_iff`: a sample confirms its episode exactly if it is the first one of
  the episode that lies `delay` after the start.
-/

namespace Debounce

/-- Where the automaton stands: no episode, an episode begun at `since` that is not confirmed
yet, or a confirmed episode. -/
inductive Phase (τ : Type*)
  | idle
  | waiting (since : τ)
  | confirmed
  deriving DecidableEq, Repr

variable {τ : Type*} [Sub τ] [LE τ] [DecidableLE τ]

namespace Phase

/-- An active sample opens an episode if none is open. -/
def enter (now : τ) : Phase τ → Phase τ
  | idle => waiting now
  | waiting since => waiting since
  | confirmed => confirmed

/-- A waiting episode is confirmed once `delay` has passed since its start. -/
def settle (delay now : τ) : Phase τ → Phase τ
  | idle => idle
  | waiting since => if delay ≤ now - since then confirmed else waiting since
  | confirmed => confirmed

/-- One sample: an inactive one closes the episode. -/
def step (delay : τ) (active : Bool) (now : τ) (phase : Phase τ) : Phase τ :=
  if active then (phase.enter now).settle delay now else idle

/-- The sample that confirms an episode. -/
def fires (delay : τ) (active : Bool) (now : τ) (phase : Phase τ) : Prop :=
  phase ≠ confirmed ∧ phase.step delay active now = confirmed

@[simp]
theorem step_inactive (delay now : τ) (phase : Phase τ) :
    phase.step delay false now = idle := rfl

@[simp]
theorem step_confirmed (delay now : τ) :
    (confirmed : Phase τ).step delay true now = confirmed := rfl

theorem step_idle (delay now : τ) :
    (idle : Phase τ).step delay true now =
      if delay ≤ now - now then confirmed else waiting now := rfl

theorem step_waiting (delay now since : τ) :
    (waiting since).step delay true now =
      if delay ≤ now - since then confirmed else waiting since := rfl

/-- An active sample that does not confirm its episode leaves it waiting. -/
theorem step_active_of_ne_confirmed {delay now : τ} {phase : Phase τ}
    (h : phase.step delay true now ≠ confirmed) :
    ∃ since, phase.step delay true now = waiting since := by
  cases phase with
  | idle =>
      rw [step_idle] at h ⊢
      split at h
      · exact absurd rfl h
      · exact ⟨now, by simp_all⟩
  | waiting since =>
      rw [step_waiting] at h ⊢
      split at h
      · exact absurd rfl h
      · exact ⟨since, by simp_all⟩
  | confirmed => exact absurd rfl h

end Phase

section History

variable {ρ : Type*} (delay : τ) (active : ρ → Bool) (time : ρ → τ)

/-- The phase after a history of samples. -/
def phase (history : List ρ) : Phase τ :=
  history.foldl (fun p r => p.step delay (active r) (time r)) Phase.idle

@[simp]
theorem phase_nil : phase delay active time ([] : List ρ) = Phase.idle := rfl

@[simp]
theorem phase_append_singleton (history : List ρ) (r : ρ) :
    phase delay active time (history ++ [r]) =
      (phase delay active time history).step delay (active r) (time r) := by
  simp [phase]

/-- Sample `k` belongs to the episode that starts at sample `s`: all samples from `s` to `k`
are active, and `s` is the first sample or follows an inactive one. -/
structure InEpisode (history : List ρ) (s k : ℕ) : Prop where
  start_le : s ≤ k
  lt_length : k < history.length
  active_of_mem : ∀ j r, s ≤ j → j ≤ k → history[j]? = some r → active r = true
  starts : ∀ r, 0 < s → history[s - 1]? = some r → active r = false

/-- The next active sample of a history continues the episode that starts at `s`, or opens it if
`s` is the end of the history. -/
structure OpenSince (history : List ρ) (s : ℕ) : Prop where
  start_le : s ≤ history.length
  active_of_mem : ∀ j r, s ≤ j → history[j]? = some r → active r = true
  starts : ∀ r, 0 < s → history[s - 1]? = some r → active r = false

/-- The episode that starts at sample `s` has been confirmed at or before sample `k`: one of
its samples so far lies at least `delay` after its first one. -/
def ConfirmedBy (history : List ρ) (s k : ℕ) : Prop :=
  ∃ r₀ j r, history[s]? = some r₀ ∧ s ≤ j ∧ j ≤ k ∧ history[j]? = some r ∧
    delay ≤ time r - time r₀

variable {delay active time} {history : List ρ} {s k : ℕ}

omit [DecidableLE τ] in
/-- A confirmation at `k + 1` happened before or happens now. -/
theorem confirmedBy_succ_iff {r₀ r : ρ} (hs : history[s]? = some r₀)
    (hk : history[k + 1]? = some r) (hsk : s ≤ k + 1) :
    ConfirmedBy delay time history s (k + 1) ↔
      ConfirmedBy delay time history s k ∨ delay ≤ time r - time r₀ := by
  constructor
  · rintro ⟨r₀', j, r', hs', hsj, hjk, hj, hd⟩
    rcases Nat.lt_or_eq_of_le hjk with hlt | rfl
    · exact Or.inl ⟨r₀', j, r', hs', hsj, Nat.le_of_lt_succ hlt, hj, hd⟩
    · obtain rfl : r₀ = r₀' := Option.some.inj (hs.symm.trans hs')
      obtain rfl : r = r' := Option.some.inj (hk.symm.trans hj)
      exact Or.inr hd
  · rintro (⟨r₀', j, r', hs', hsj, hjk, hj, hd⟩ | hd)
    · exact ⟨r₀', j, r', hs', hsj, Nat.le_succ_of_le hjk, hj, hd⟩
    · exact ⟨r₀, k + 1, r, hs, hsk, le_rfl, hk, hd⟩

omit [DecidableLE τ] in
/-- At its first sample an episode is confirmed if the delay admits a difference of zero. -/
theorem confirmedBy_self_iff {r₀ : ρ} (hs : history[s]? = some r₀) :
    ConfirmedBy delay time history s s ↔ delay ≤ time r₀ - time r₀ := by
  constructor
  · rintro ⟨r₀', j, r', hs', hsj, hjs, hj, hd⟩
    obtain rfl : s = j := le_antisymm hsj hjs
    obtain rfl : r₀ = r₀' := Option.some.inj (hs.symm.trans hs')
    obtain rfl : r₀ = r' := Option.some.inj (hs.symm.trans hj)
    exact hd
  · intro hd
    exact ⟨r₀, s, r₀, hs, le_rfl, le_rfl, hs, hd⟩

omit [DecidableLE τ] in
/-- An episode was not confirmed before sample `k` exactly if none of its earlier samples lies
`delay` after its first one. -/
theorem forall_not_confirmedBy_iff {r₀ : ρ} (hs : history[s]? = some r₀) :
    (∀ j < k, ¬ ConfirmedBy delay time history s j) ↔
      ∀ j r, s ≤ j → j < k → history[j]? = some r → ¬ delay ≤ time r - time r₀ := by
  constructor
  · intro hnone j r hsj hjk hj hd
    exact hnone j hjk ⟨r₀, j, r, hs, hsj, le_rfl, hj, hd⟩
  · rintro hnone j hjk ⟨r₀', i, r, hs', hsi, hij, hi, hd⟩
    obtain rfl : r₀ = r₀' := Option.some.inj (hs.symm.trans hs')
    exact hnone i r hsi (lt_of_le_of_lt hij hjk) hi hd

omit [DecidableLE τ] in
/-- No confirmation lies before the first sample of the episode. -/
theorem not_confirmedBy_of_lt (hks : k < s) : ¬ ConfirmedBy delay time history s k := by
  rintro ⟨_, j, _, _, hsj, hjk, _⟩
  exact absurd (le_trans hsj hjk) (Nat.not_le_of_lt hks)

/-- The phase after sample `k` is one step from the phase before it. -/
theorem phase_take_succ {r : ρ} (hk : history[k]? = some r) :
    phase delay active time (history.take (k + 1)) =
      (phase delay active time (history.take k)).step delay (active r) (time r) := by
  have hlt : k < history.length := (List.getElem?_eq_some_iff.mp hk).1
  have hr : history[k] = r := (List.getElem?_eq_some_iff.mp hk).2
  rw [← List.take_concat_get' history k hlt, phase_append_singleton, hr]

/-- After an inactive sample no episode is open. -/
theorem phase_eq_idle {r : ρ} (hk : history[k]? = some r) (hr : active r = false) :
    phase delay active time (history.take (k + 1)) = Phase.idle := by
  rw [phase_take_succ hk, hr, Phase.step_inactive]

/-- An episode that is open after one more sample starts after that sample, which is inactive, or
was open before it. -/
theorem OpenSince.of_append {r : ρ} (h : OpenSince active (history ++ [r]) s) :
    (s = history.length + 1 ∧ active r = false) ∨
      (s ≤ history.length ∧ OpenSince active history s ∧ active r = true) := by
  have hlast : (history ++ [r])[history.length]? = some r := by simp
  -- the episode starts before the new sample or after it
  rcases Nat.lt_or_eq_of_le h.start_le with hlt | heq
  · rw [List.length_append, List.length_singleton] at hlt
    have hle : s ≤ history.length := Nat.le_of_lt_succ hlt
    refine Or.inr ⟨hle, ⟨hle, fun j r' hsj hj => ?_, fun r' hs hr' => ?_⟩, ?_⟩
    · refine h.active_of_mem j r' hsj ?_
      rw [List.getElem?_append_left (List.getElem?_eq_some_iff.mp hj).1, hj]
    · refine h.starts r' hs ?_
      rw [List.getElem?_append_left (List.getElem?_eq_some_iff.mp hr').1, hr']
    · exact h.active_of_mem _ r hle hlast
  · rw [List.length_append, List.length_singleton] at heq
    refine Or.inl ⟨heq, h.starts r (heq ▸ Nat.succ_pos _) ?_⟩
    rw [heq, Nat.add_sub_cancel, hlast]

theorem getElem?_of_take {j : ℕ} {r : ρ} (h : (history.take k)[j]? = some r) :
    j < k ∧ history[j]? = some r := by
  rw [List.getElem?_take] at h
  split at h
  · rename_i hjk
    exact ⟨hjk, h⟩
  · cases h

namespace InEpisode

/-- The episode of sample `k` is open in the history before it. -/
theorem openSince (h : InEpisode active history s k) :
    OpenSince active (history.take k) s where
  start_le := by
    rw [List.length_take_of_le (Nat.le_of_lt h.lt_length)]
    exact h.start_le
  active_of_mem j r hsj hj := by
    obtain ⟨hjk, hj⟩ := getElem?_of_take hj
    exact h.active_of_mem j r hsj (Nat.le_of_lt hjk) hj
  starts r hs hr := h.starts r hs (getElem?_of_take hr).2

/-- An episode that reaches past its first sample also contains the sample before. -/
theorem pred (h : InEpisode active history s (k + 1)) (hsk : s ≤ k) :
    InEpisode active history s k where
  start_le := hsk
  lt_length := Nat.lt_of_succ_lt h.lt_length
  active_of_mem j r hsj hjk := h.active_of_mem j r hsj (Nat.le_succ_of_le hjk)
  starts := h.starts

/-- No episode is open before the first sample of an episode. -/
theorem phase_start (h : InEpisode active history s k) :
    phase delay active time (history.take s) = Phase.idle := by
  cases s with
  | zero => simp
  | succ p =>
      have hp : p < history.length := by have := h.start_le; have := h.lt_length; omega
      have hget : history[p]? = some history[p] := List.getElem?_eq_getElem hp
      exact phase_eq_idle hget (h.starts _ (Nat.succ_pos p) hget)

/-- Inside an episode the automaton waits since the first sample until it is confirmed. -/
theorem phase_eq {r₀ : ρ} (h : InEpisode active history s k) (hs : history[s]? = some r₀) :
    (ConfirmedBy delay time history s k ∧
        phase delay active time (history.take (k + 1)) = Phase.confirmed) ∨
      (¬ ConfirmedBy delay time history s k ∧
        phase delay active time (history.take (k + 1)) = Phase.waiting (time r₀)) := by
  -- induction on the last sample, whose predecessor is in the same episode or before its start
  induction k with
  | zero =>
      obtain rfl : 0 = s := (Nat.le_zero.mp h.start_le).symm
      rw [phase_take_succ hs, h.phase_start, h.active_of_mem 0 r₀ le_rfl le_rfl hs,
        Phase.step_idle, confirmedBy_self_iff hs]
      by_cases hd : delay ≤ time r₀ - time r₀
      · exact Or.inl ⟨hd, if_pos hd⟩
      · exact Or.inr ⟨hd, if_neg hd⟩
  | succ k ih =>
      obtain ⟨r, hget⟩ : ∃ r, history[k + 1]? = some r :=
        ⟨_, List.getElem?_eq_getElem h.lt_length⟩
      rw [phase_take_succ hget, h.active_of_mem (k + 1) r h.start_le le_rfl hget]
      -- the episode goes on, or this sample is its first
      rcases Nat.lt_or_eq_of_le h.start_le with hlt | rfl
      · rw [confirmedBy_succ_iff hs hget h.start_le]
        rcases ih (h.pred (Nat.le_of_lt_succ hlt)) with ⟨hconf, hphase⟩ | ⟨hconf, hphase⟩
        · rw [hphase]
          exact Or.inl ⟨Or.inl hconf, Phase.step_confirmed _ _⟩
        · rw [hphase, Phase.step_waiting]
          by_cases hd : delay ≤ time r - time r₀
          · exact Or.inl ⟨Or.inr hd, if_pos hd⟩
          · exact Or.inr ⟨not_or.mpr ⟨hconf, hd⟩, if_neg hd⟩
      · obtain rfl : r = r₀ := Option.some.inj (hget.symm.trans hs)
        rw [h.phase_start, Phase.step_idle, confirmedBy_self_iff hs]
        by_cases hd : delay ≤ time r - time r
        · exact Or.inl ⟨hd, if_pos hd⟩
        · exact Or.inr ⟨hd, if_neg hd⟩

/-- The automaton is confirmed after sample `k` exactly if the episode is. -/
theorem phase_eq_confirmed_iff (h : InEpisode active history s k) :
    phase delay active time (history.take (k + 1)) = Phase.confirmed ↔
      ConfirmedBy delay time history s k := by
  have hlt : s < history.length := lt_of_le_of_lt h.start_le h.lt_length
  obtain ⟨r₀, hs⟩ : ∃ r₀, history[s]? = some r₀ := ⟨_, List.getElem?_eq_getElem hlt⟩
  have hphase := @phase_eq _ _ _ _ _ delay active time history s k r₀ h hs
  rcases hphase with ⟨hconf, hphase⟩ | ⟨hconf, hphase⟩
  · exact iff_of_true hphase hconf
  · rw [hphase]
    exact iff_of_false (by simp) hconf

/-- Before sample `k` the automaton is confirmed exactly if the episode was confirmed by an
earlier sample. -/
theorem phase_take_eq_confirmed_iff (h : InEpisode active history s k) :
    phase delay active time (history.take k) = Phase.confirmed ↔
      ∃ j < k, ConfirmedBy delay time history s j := by
  -- before its first sample an episode is not open, so that it is not confirmed
  rcases Nat.lt_or_eq_of_le h.start_le with hlt | rfl
  · obtain ⟨p, rfl⟩ : ∃ p, k = p + 1 := ⟨k - 1, by omega⟩
    rw [(h.pred (Nat.le_of_lt_succ hlt)).phase_eq_confirmed_iff]
    constructor
    · intro hconf
      exact ⟨p, Nat.lt_succ_self p, hconf⟩
    · rintro ⟨j, hjp, r₀, i, r, hs, hsi, hij, hi, hd⟩
      exact ⟨r₀, i, r, hs, hsi, le_trans hij (Nat.le_of_lt_succ hjp), hi, hd⟩
  · rw [h.phase_start]
    constructor
    · intro hcontra
      cases hcontra
    · rintro ⟨j, hjs, hconf⟩
      exact absurd hconf (not_confirmedBy_of_lt hjs)

/-- A sample confirms its episode exactly if it is the first sample of the episode that lies
`delay` after the start. -/
theorem fires_iff {r₀ r : ρ} (h : InEpisode active history s k)
    (hs : history[s]? = some r₀) (hk : history[k]? = some r) :
    Phase.fires delay (active r) (time r) (phase delay active time (history.take k)) ↔
      delay ≤ time r - time r₀ ∧ ∀ j < k, ¬ ConfirmedBy delay time history s j := by
  rw [Phase.fires, ← phase_take_succ hk, h.phase_eq_confirmed_iff, Ne,
    h.phase_take_eq_confirmed_iff]
  -- a sample fires if it completes the delay and no earlier one has
  constructor
  · rintro ⟨hearlier, r₀', j, r', hs', hsj, hjk, hj, hd⟩
    have hnone : ∀ j < k, ¬ ConfirmedBy delay time history s j := by simpa using hearlier
    rcases Nat.lt_or_eq_of_le hjk with hlt | rfl
    · exact absurd ⟨r₀', j, r', hs', hsj, le_rfl, hj, hd⟩ (hnone j hlt)
    · obtain rfl : r₀ = r₀' := Option.some.inj (hs.symm.trans hs')
      obtain rfl : r = r' := Option.some.inj (hk.symm.trans hj)
      exact ⟨hd, hnone⟩
  · rintro ⟨hd, hnone⟩
    exact ⟨by simpa using hnone, r₀, k, r, hs, h.start_le, le_rfl, hk, hd⟩

end InEpisode

/-- Every active sample belongs to an episode. -/
theorem exists_inEpisode {r : ρ} (hk : history[k]? = some r) (hr : active r = true) :
    ∃ s, InEpisode active history s k := by
  -- go back from the sample until one is inactive
  induction k generalizing r with
  | zero =>
      refine ⟨0, le_rfl, (List.getElem?_eq_some_iff.mp hk).1, fun j r' _ hj hget => ?_, ?_⟩
      · obtain rfl : j = 0 := Nat.le_zero.mp hj
        rw [← Option.some.inj (hk.symm.trans hget), hr]
      · intro r' hpos
        exact absurd hpos (lt_irrefl 0)
  | succ k ih =>
      have hlt : k + 1 < history.length := (List.getElem?_eq_some_iff.mp hk).1
      have hprev : history[k]? = some history[k] :=
        List.getElem?_eq_getElem (Nat.lt_of_succ_lt hlt)
      by_cases hactive : active history[k] = true
      · -- the episode of the sample before continues
        obtain ⟨s, hs⟩ := ih hprev hactive
        refine ⟨s, Nat.le_succ_of_le hs.start_le, hlt, fun j r' hsj hjk hget => ?_, hs.starts⟩
        rcases Nat.lt_or_eq_of_le hjk with hjk | rfl
        · exact hs.active_of_mem j r' hsj (Nat.le_of_lt_succ hjk) hget
        · rw [← Option.some.inj (hk.symm.trans hget), hr]
      · refine ⟨k + 1, le_rfl, hlt, fun j r' hsj hjk hget => ?_, fun r' _ hget => ?_⟩
        · obtain rfl : j = k + 1 := le_antisymm hjk hsj
          rw [← Option.some.inj (hk.symm.trans hget), hr]
        · rw [← Option.some.inj (hprev.symm.trans hget)]
          exact Bool.eq_false_iff.mpr hactive

/-- After sample `k` the automaton is confirmed exactly if the sample belongs to an episode that
has been confirmed. -/
theorem phase_take_succ_eq_confirmed_iff {r : ρ} (hk : history[k]? = some r) :
    phase delay active time (history.take (k + 1)) = Phase.confirmed ↔
      active r = true ∧
        ∃ s, InEpisode active history s k ∧ ConfirmedBy delay time history s k := by
  constructor
  · intro hphase
    by_cases hr : active r = true
    · obtain ⟨s, hs⟩ := exists_inEpisode hk hr
      exact ⟨hr, s, hs, hs.phase_eq_confirmed_iff.mp hphase⟩
    · rw [phase_eq_idle hk (Bool.eq_false_iff.mpr hr)] at hphase
      cases hphase
  · rintro ⟨-, s, hs, hconf⟩
    exact hs.phase_eq_confirmed_iff.mpr hconf

end History

end Debounce
