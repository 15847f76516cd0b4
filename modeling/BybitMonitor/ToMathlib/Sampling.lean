import Mathlib.Data.Int.LeastGreatest
import Mathlib.Data.List.Chain
import Mathlib.Data.Rat.Floor
import Mathlib.Tactic.Linarith

/-!
# Downsampled series

A series is visited again and again, and a sample is kept of a visit unless one was kept shortly
before it. Every point in time between the first visit and the last one then has a sample near it.

* `Sampling.exists_near`: the sample.
* `Sampling.length_le_of_spaced`: how many points of an interval a series with a spacing can have.
-/

namespace Sampling

/-- In a chain that begins outside a set and meets it, a link leads into the set. -/
theorem exists_link_into {α : Type*} {R : α → α → Prop} {Q : α → Prop} {first : α} {rest : List α}
    (hchain : List.IsChain R (first :: rest)) (hfirst : ¬ Q first)
    (hmeets : ∃ x ∈ first :: rest, Q x) :
    ∃ x y, x ∈ first :: rest ∧ y ∈ first :: rest ∧ R x y ∧ ¬ Q x ∧ Q y := by
  induction rest generalizing first with
  | nil =>
      obtain ⟨x, hx, hQ⟩ := hmeets
      rw [List.mem_singleton.mp hx] at hQ
      exact absurd hQ hfirst
  | cons next rest ih =>
      obtain ⟨hlink, hchain⟩ := List.isChain_cons_cons.mp hchain
      by_cases hnext : Q next
      · exact ⟨first, next, by simp, by simp, hlink, hfirst, hnext⟩
      · -- the set is met later on
        have hlater : ∃ x ∈ next :: rest, Q x := by
          obtain ⟨x, hx, hQ⟩ := hmeets
          rcases List.mem_cons.mp hx with rfl | hx
          · exact absurd hQ hfirst
          · exact ⟨x, hx, hQ⟩
        obtain ⟨x, y, hx, hy, h⟩ := ih hchain hnext hlater
        exact ⟨x, y, List.mem_cons_of_mem _ hx, List.mem_cons_of_mem _ hy, h⟩

variable {P : ℤ → Prop} {first : ℤ} {rest : List ℤ} {spacing gap tolerance target : ℤ}

/-- A visit has a sample: one of the visit itself, or one less than `spacing` before it. -/
def Covered (P : ℤ → Prop) (spacing n : ℤ) : Prop :=
  ∃ ts, P ts ∧ ts ≤ n ∧ (ts = n ∨ n - ts < spacing)

/-- If visits are at most `gap` apart and each has a sample, then a target between the first visit
and the last has a sample within a tolerance of at least half of `spacing + gap`. -/
theorem exists_near (hspacing : 0 ≤ spacing) (htolerance : spacing + gap ≤ 2 * tolerance)
    (hgaps : List.IsChain (fun n m => n < m ∧ m - n ≤ gap) (first :: rest))
    (hcovered : ∀ n ∈ first :: rest, Covered P spacing n) (hfirst : P first)
    (htarget : first ≤ target) (hlast : ∃ n ∈ first :: rest, target < n ∧ target + spacing ≤ n) :
    ∃ ts, P ts ∧ |ts - target| ≤ tolerance := by
  -- the last sample up to the target
  obtain ⟨before, ⟨hbefore, hle, hge⟩, hgreatest⟩ :=
    @Int.exists_greatest_of_bdd (fun ts => P ts ∧ ts ≤ target ∧ first ≤ ts)
      ⟨target, fun _ h => h.2.1⟩ ⟨first, hfirst, htarget, le_rfl⟩
  -- the first visit that is too late for that sample has one after the target
  obtain ⟨n, m, -, hm, ⟨hlt, hgap⟩, hn, hlate, hspaced⟩ :=
    @exists_link_into _ _ (fun n => before < n ∧ before + spacing ≤ n) _ _ hgaps (by omega)
      (by
        obtain ⟨n, hn, hlt, hle'⟩ := hlast
        exact ⟨n, hn, by omega, by omega⟩)
  obtain ⟨after, hafter, hafterLe, hcover⟩ := hcovered m hm
  have hbeyond : target < after := by
    by_contra hnot
    have := hgreatest after ⟨hafter, by omega, by omega⟩
    omega
  -- the two samples are at most `spacing + gap` apart
  have hclose : after - before ≤ spacing + gap := by omega
  rcases le_or_gt (2 * (target - before)) (spacing + gap) with hnear | hfar
  · exact ⟨before, hbefore, abs_le.mpr ⟨by omega, by omega⟩⟩
  · exact ⟨after, hafter, abs_le.mpr ⟨by omega, by omega⟩⟩

/-- Points that are at least `spacing` apart and lie between two bounds are few. -/
theorem length_le_of_spaced {spacing lower upper : ℚ} {points : List ℤ}
    (hspaced : points.Pairwise fun t later : ℤ => spacing ≤ (later : ℚ) - t)
    (hlower : ∀ t ∈ points, lower ≤ ((t : ℤ) : ℚ)) (hupper : ∀ t ∈ points, ((t : ℤ) : ℚ) ≤ upper)
    (hne : points ≠ []) : ((points.length : ℚ) - 1) * spacing ≤ upper - lower := by
  induction points generalizing lower with
  | nil => exact absurd rfl hne
  | cons t rest ih =>
      obtain ⟨hfirst, hrest⟩ := List.pairwise_cons.mp hspaced
      have hlowerT := hlower t List.mem_cons_self
      cases rest with
      | nil =>
          have hupperT := hupper t List.mem_cons_self
          simp only [List.length_singleton, Nat.cast_one, sub_self, zero_mul]
          linarith
      | cons next rest =>
          -- the other points start one spacing later
          have hstart (later : ℤ) (hmem : later ∈ next :: rest) : (t : ℚ) + spacing ≤ later := by
            linarith [hfirst later hmem]
          have hlater := ih hrest hstart
            (fun later hmem => hupper later (List.mem_cons_of_mem _ hmem)) (List.cons_ne_nil _ _)
          rw [List.length_cons, Nat.cast_succ, add_sub_cancel_right]
          linarith

end Sampling
