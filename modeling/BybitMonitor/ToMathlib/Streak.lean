import Mathlib

/-!
# The start of the current streak

A list of samples is read from the oldest to the newest one. The streak of a property is the
longest end of the list in which every sample has it, and `start` is the time of its first sample.

* `Streak.start_snoc`: the start after one more sample.
* `Streak.exists_tail_iff`: what holds of some sample of the streak and, with it, of every earlier
  time, holds of the start.
* `Streak.le_length_iff`: the streak has a number of samples if that many last ones have the
  property.
-/

namespace Streak

variable {α τ : Type*} {p : α → Prop} [DecidablePred p] {time : α → τ} {l : List α}

/-- The time of the first sample of the streak, if the last sample has the property. -/
def start (p : α → Prop) [DecidablePred p] (time : α → τ) (l : List α) : Option τ :=
  l.foldl (fun since x => if p x then some (since.getD (time x)) else none) none

@[simp]
theorem start_nil : start p time [] = none := rfl

/-- A sample continues the streak, begins one, or ends it. -/
theorem start_snoc (x : α) :
    start p time (l ++ [x]) =
      if p x then some ((start p time l).getD (time x)) else none := by
  rw [start, List.foldl_append]
  rfl

/-- A streak starts at one of the samples, and every sample since then has the property. -/
theorem exists_tail_of_start {t : τ} (h : start p time l = some t) :
    ∃ before first after, l = before ++ first :: after ∧
      (∀ x ∈ first :: after, p x) ∧ time first = t := by
  induction l using List.reverseRecOn generalizing t with
  | nil => cases h
  | append_singleton l x ih =>
      rw [start_snoc] at h
      split at h
      · rename_i hx
        cases hstart : start p time l with
        | none =>
            rw [hstart] at h
            cases h
            exact ⟨l, x, [], rfl, by simpa using hx, rfl⟩
        | some since =>
            rw [hstart] at h
            cases h
            obtain ⟨before, first, after, rfl, hall, htime⟩ := ih hstart
            refine ⟨before, first, after ++ [x], by simp, fun y hy => ?_, htime⟩
            rcases List.mem_append.mp (List.cons_append ▸ hy) with hy | hy
            · exact hall y hy
            · rw [List.mem_singleton.mp hy]
              exact hx
      · cases h

/-- Once the property holds from some sample on, the streak has started by then. -/
theorem start_le_of_tail [Preorder τ] {before after : List α} {first : α}
    (hsorted : (before ++ first :: after).Pairwise fun x y => time x ≤ time y)
    (hall : ∀ x ∈ first :: after, p x) :
    ∃ t, start p time (before ++ first :: after) = some t ∧ t ≤ time first := by
  induction after using List.reverseRecOn with
  | nil =>
      refine ⟨(start p time before).getD (time first), ?_, ?_⟩
      · rw [start_snoc, if_pos (hall first List.mem_cons_self)]
      · cases hstart : start p time before with
        | none => exact le_refl _
        | some since =>
            obtain ⟨earlier, x, later, rfl, -, rfl⟩ := exists_tail_of_start hstart
            refine (List.pairwise_append.mp hsorted).2.2 x ?_ first List.mem_cons_self
            exact List.mem_append_right _ List.mem_cons_self
  | append_singleton after x ih =>
      have hsplit : before ++ first :: (after ++ [x]) = (before ++ first :: after) ++ [x] := by simp
      rw [hsplit] at hsorted ⊢
      obtain ⟨t, hstart, hle⟩ := ih (List.pairwise_append.mp hsorted).1
        fun y hy => hall y (List.cons_append ▸ List.mem_append_left [x] hy)
      refine ⟨t, ?_, hle⟩
      rw [start_snoc, hstart, if_pos (hall x (by simp))]
      rfl

/-- A condition on times that passes to earlier ones holds of a sample of the streak if and only if
it holds of its start. -/
theorem exists_tail_iff [Preorder τ] (hsorted : l.Pairwise fun x y => time x ≤ time y)
    {q : τ → Prop} (hq : ∀ s t, s ≤ t → q t → q s) :
    (∃ before first after, l = before ++ first :: after ∧ (∀ x ∈ first :: after, p x) ∧
        q (time first)) ↔ ∃ t, start p time l = some t ∧ q t := by
  constructor
  · rintro ⟨before, first, after, rfl, hall, hfirst⟩
    obtain ⟨t, hstart, hle⟩ := start_le_of_tail hsorted hall
    exact ⟨t, hstart, hq t (time first) hle hfirst⟩
  · rintro ⟨t, hstart, ht⟩
    obtain ⟨before, first, after, heq, hall, rfl⟩ := exists_tail_of_start hstart
    exact ⟨before, first, after, heq, hall, ht⟩

/-- The number of samples of the streak. -/
def length (p : α → Prop) [DecidablePred p] (l : List α) : ℕ := (l.rtakeWhile p).length

@[simp]
theorem length_nil : length p [] = 0 := rfl

/-- A sample continues the streak or ends it. -/
theorem length_snoc (x : α) : length p (l ++ [x]) = if p x then length p l + 1 else 0 := by
  rw [length, List.rtakeWhile_concat]
  simp only [decide_eq_true_eq]
  split
  · exact List.length_append
  · rfl

/-- The streak is the longest end of the list in which every sample has the property. -/
theorem le_length_iff {n : ℕ} :
    n ≤ length p l ↔
      ∃ before streak, l = before ++ streak ∧ streak.length = n ∧ ∀ x ∈ streak, p x := by
  induction l using List.reverseRecOn generalizing n with
  | nil =>
      rw [length_nil, Nat.le_zero]
      constructor
      · rintro rfl
        exact ⟨[], [], rfl, rfl, by simp⟩
      · rintro ⟨before, streak, heq, rfl, -⟩
        rw [(List.append_eq_nil_iff.mp heq.symm).2, List.length_nil]
  | append_singleton l x ih =>
      rw [length_snoc]
      constructor
      · intro hle
        cases n with
        | zero => exact ⟨l ++ [x], [], (List.append_nil _).symm, rfl, by simp⟩
        | succ n =>
            split at hle
            · rename_i hx
              obtain ⟨before, streak, rfl, rfl, hall⟩ := ih.mp (Nat.le_of_succ_le_succ hle)
              refine ⟨before, streak ++ [x], List.append_assoc _ _ _, List.length_append, ?_⟩
              intro y hy
              rcases List.mem_append.mp hy with hold | hnew
              · exact hall y hold
              · rwa [List.mem_singleton.mp hnew]
            · exact absurd hle (Nat.not_succ_le_zero n)
      · rintro ⟨before, streak, heq, rfl, hall⟩
        -- the last sample is in the streak, unless this is empty
        cases streak using List.reverseRecOn with
        | nil => exact Nat.zero_le _
        | append_singleton streak y =>
            rw [← List.append_assoc] at heq
            obtain ⟨rfl, hlast⟩ := List.append_inj' heq rfl
            obtain rfl : x = y := List.head_eq_of_cons_eq hlast
            rw [if_pos (hall x (by simp)), List.length_append]
            refine Nat.succ_le_succ (ih.mpr ⟨before, streak, rfl, rfl, fun y hy => ?_⟩)
            exact hall y (List.mem_append_left _ hy)

end Streak
