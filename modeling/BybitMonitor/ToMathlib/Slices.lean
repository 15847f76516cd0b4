import Mathlib.Data.List.TakeDrop
import Mathlib.Data.List.Flatten

/-!
# Slices of a list

`List.slices size l` cuts a list into consecutive parts of `size` items, the last of which may be
shorter.

* `List.flatten_slices`: the parts make up the list.
* `List.length_of_mem_slices`: no part is empty or too long.
-/

namespace List

variable {α : Type*} {l : List α} {size : ℕ}

/-- The parts of `size` items that start at the multiples of `size` below the length. -/
def slices (size : ℕ) (l : List α) : List (List α) :=
  (List.range ((l.length + size - 1) / size)).map fun k => (l.drop (k * size)).take size

/-- The first parts make up a prefix of the list. -/
theorem flatten_map_range_slice (l : List α) (size m : ℕ) :
    ((List.range m).map fun k => (l.drop (k * size)).take size).flatten = l.take (m * size) := by
  induction m with
  | zero => simp
  | succ m ih =>
      rw [List.range_succ, List.map_append, List.flatten_append, ih, Nat.succ_mul, List.take_add]
      simp

/-- The parts make up a prefix of the list, whatever the size. -/
theorem flatten_slices_prefix : (l.slices size).flatten <+: l := by
  rw [slices, flatten_map_range_slice]
  exact List.take_prefix _ _

/-- The parts make up the list. -/
theorem flatten_slices (hsize : 0 < size) : (l.slices size).flatten = l := by
  rw [slices, flatten_map_range_slice]
  refine List.take_of_length_le ?_
  -- the number of parts is the length divided by the size, rounded up
  have hlt := Nat.lt_div_mul_add (a := l.length + size - 1) hsize
  omega

/-- Every part has at least one item and at most `size`. -/
theorem length_of_mem_slices (hsize : 0 < size) {part : List α} (h : part ∈ l.slices size) :
    0 < part.length ∧ part.length ≤ size := by
  obtain ⟨k, hk, rfl⟩ := List.mem_map.mp h
  have hk : k + 1 ≤ (l.length + size - 1) / size := List.mem_range.mp hk
  have hstart : k * size < l.length := by
    have hmul := (Nat.le_div_iff_mul_le hsize).mp hk
    rw [Nat.succ_mul] at hmul
    omega
  rw [List.length_take, List.length_drop]
  omega

end List
