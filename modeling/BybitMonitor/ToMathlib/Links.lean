import Mathlib.Data.Set.Finite.Basic
import Mathlib.Data.Set.Finite.Lattice
import Mathlib.Data.Fintype.EquivFin
import Mathlib.Data.Finite.Prod

/-!
# Following links

Every item may link to another one. Who follows the links from an item and remembers nothing comes
to an end, or comes back to where it has been and goes round for ever.

* `Links.trail`: the items on the way.
* `Links.ends_iff_not_repeats`: if the links lead to finitely many items, the way ends exactly if no
  item is met twice.
-/

namespace Links

variable {α : Type*} (next : α → Option α)

/-- The item after `k` links, if there are so many. -/
def item : ℕ → α → Option α
  | 0, a => some a
  | k + 1, a => (next a).bind (item k)

/-- The first items on the way, at most `n`. -/
def trail : ℕ → α → List α
  | 0, _ => []
  | n + 1, a => a :: (next a).elim [] (trail n)

/-- The way from `a` comes to an end. -/
def Ends (a : α) : Prop := ∃ n, item next n a = none

/-- The way from `a` meets an item twice. -/
def Repeats (a : α) : Prop :=
  ∃ i j b, i < j ∧ item next i a = some b ∧ item next j a = some b

variable {next} {a b : α}

theorem item_add (i k : ℕ) : item next (i + k) a = (item next i a).bind (item next k) := by
  induction i generalizing a with
  | zero => rw [Nat.zero_add, item, Option.bind_some]
  | succ i ih =>
      rw [Nat.succ_add, item, item, Option.bind_assoc]
      exact congrArg _ (funext fun _ => ih)

/-- Beyond its end, a way has no items. -/
theorem item_eq_none_of_le {n m : ℕ} (h : item next n a = none) (hle : n ≤ m) :
    item next m a = none := by
  obtain ⟨k, rfl⟩ := Nat.exists_eq_add_of_le hle
  rw [item_add, h, Option.bind_none]

/-- The trail lists the items in the order of the way. -/
theorem getElem?_trail {n i : ℕ} (hi : i < n) : (trail next n a)[i]? = item next i a := by
  induction n generalizing a i with
  | zero => exact absurd hi (Nat.not_lt_zero i)
  | succ n ih =>
      cases i with
      | zero => rfl
      | succ i =>
          rw [trail, List.getElem?_cons_succ, item]
          cases next a with
          | none => rfl
          | some b => exact ih (Nat.lt_of_succ_lt_succ hi)

theorem length_trail_le (n : ℕ) : (trail next n a).length ≤ n := by
  induction n generalizing a with
  | zero => exact le_rfl
  | succ n ih =>
      rw [trail, List.length_cons]
      cases next a with
      | none => exact Nat.succ_le_succ (Nat.zero_le n)
      | some b => exact Nat.succ_le_succ ih

/-- The last item on a way that ends has no link. -/
theorem getLast?_trail {n : ℕ} (h : item next n a = none) :
    ∃ last, (trail next n a).getLast? = some last ∧ next last = none := by
  induction n generalizing a with
  | zero => cases h
  | succ n ih =>
      rw [item] at h
      rw [trail]
      cases hnext : next a with
      | none => exact ⟨a, rfl, hnext⟩
      | some b =>
          rw [hnext, Option.bind_some] at h
          obtain ⟨last, hlast, hend⟩ := ih h
          refine ⟨last, ?_, hend⟩
          rw [Option.elim_some, List.getLast?_cons, hlast, Option.getD_some]

/-- A way that meets an item twice does not end: it goes on from there as it did before. -/
theorem Repeats.not_ends (h : Repeats next a) : ¬ Ends next a := by
  obtain ⟨i, j, b, hlt, hi, hj⟩ := h
  intro hends
  classical
  -- the first end is beyond `j`, and the same end is as far beyond `i`
  have hend := Nat.find_spec hends
  have hbeyond : j < Nat.find hends := by
    by_contra hle
    rw [item_eq_none_of_le hend (not_lt.mp hle)] at hj
    cases hj
  obtain ⟨k, hk⟩ := Nat.exists_eq_add_of_lt hbeyond
  have hsame : item next (i + (k + 1)) a = none := by
    rw [item_add, hi]
    rw [hk, Nat.add_assoc, item_add, hj] at hend
    exact hend
  exact Nat.find_min hends (by omega) hsame

/-- A way over finitely many items that meets none twice ends. -/
theorem ends_of_not_repeats (hfinite : {b | ∃ c, next c = some b}.Finite)
    (h : ¬ Repeats next a) : Ends next a := by
  by_contra hends
  have hsome (k : ℕ) : ∃ b, item next k a = some b :=
    Option.ne_none_iff_exists'.mp fun hnone => hends ⟨k, hnone⟩
  choose items hitems using hsome
  -- every item but the first is linked to
  have hmem (k : ℕ) : items (k + 1) ∈ {b | ∃ c, next c = some b} := by
    refine ⟨items k, ?_⟩
    have hstep := hitems (k + 1)
    rw [item_add, hitems k, Option.bind_some, item] at hstep
    cases hnext : next (items k) with
    | none =>
        rw [hnext] at hstep
        cases hstep
    | some b =>
        rw [hnext] at hstep
        exact hstep
  obtain ⟨i, j, hne, heq⟩ : ∃ i j, i ≠ j ∧ items (i + 1) = items (j + 1) := by
    by_contra hinj
    push Not at hinj
    refine Set.infinite_of_injective_forall_mem (f := fun k => items (k + 1)) ?_ hmem hfinite
    intro i j hij
    by_contra hne
    exact hinj i j hne hij
  rcases Nat.lt_or_gt_of_ne hne with hlt | hgt
  · exact h ⟨i + 1, j + 1, _, by omega, hitems (i + 1), heq ▸ hitems (j + 1)⟩
  · exact h ⟨j + 1, i + 1, _, by omega, hitems (j + 1), heq ▸ hitems (i + 1)⟩

/-- If the links lead to finitely many items, the way ends exactly if no item is met twice. -/
theorem ends_iff_not_repeats (hfinite : {b | ∃ c, next c = some b}.Finite) :
    Ends next a ↔ ¬ Repeats next a :=
  ⟨fun hends hrepeats => hrepeats.not_ends hends, ends_of_not_repeats hfinite⟩

/-- The trail of a way that meets no item twice has no duplicates. -/
theorem nodup_trail (h : ¬ Repeats next a) (n : ℕ) : (trail next n a).Nodup := by
  rw [List.nodup_iff_getElem?_ne_getElem?]
  intro i j hij hj heq
  have hlen : (trail next n a).length ≤ n := length_trail_le n
  rw [getElem?_trail (by omega), getElem?_trail (by omega)] at heq
  have hsome : item next j a = some (trail next n a)[j] := by
    rw [← getElem?_trail (show j < n by omega), List.getElem?_eq_getElem hj]
  exact h ⟨i, j, _, hij, heq.trans hsome, hsome⟩

end Links
