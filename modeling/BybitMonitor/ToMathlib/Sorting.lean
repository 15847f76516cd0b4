import Mathlib

/-!
# Sorting by a key

A list is sorted by a relation that compares a key of its members. Where the members have
different keys, the sorted list depends on the members only, not on their order.

* `SortsBy.pairwise`: the sorted list is increasing in the key.
* `SortsBy.eq_of_perm`: lists with the same members are sorted alike.
-/

namespace List

variable {α β : Type*} [LinearOrder β]

/-- Between members of `l`, the relation `r` compares the keys, and no two members share one. -/
structure SortsBy (r : α → α → Prop) (key : α → β) (l : List α) : Prop where
  le_iff : ∀ x ∈ l, ∀ y ∈ l, r x y ↔ key x ≤ key y
  eq_of_key : ∀ x ∈ l, ∀ y ∈ l, key x = key y → x = y

namespace SortsBy

variable {r : α → α → Prop} {key : α → β} {l l' : List α}

/-- A list with the same members is sorted by the same key. -/
theorem of_perm (h : SortsBy r key l) (hperm : l'.Perm l) : SortsBy r key l' where
  le_iff x hx y hy := h.le_iff x (hperm.subset hx) y (hperm.subset hy)
  eq_of_key x hx y hy := h.eq_of_key x (hperm.subset hx) y (hperm.subset hy)

variable [DecidableRel r]

/-- The relation and the comparison of the keys sort alike. -/
theorem insertionSort_eq (h : SortsBy r key l) :
    l.insertionSort r = l.insertionSort fun x y => key x ≤ key y := by
  have hmap := List.map_insertionSort r (fun x y => key x ≤ key y) id l
    fun x hx y hy => h.le_iff x hx y hy
  simpa using hmap

/-- The sorted list does not decrease in the key. -/
theorem pairwise_le (h : SortsBy r key l) :
    (l.insertionSort r).Pairwise fun x y => key x ≤ key y := by
  have htotal : Std.Total fun x y : α => key x ≤ key y := ⟨fun x y => le_total (key x) (key y)⟩
  have htrans : IsTrans α fun x y => key x ≤ key y := ⟨fun _ _ _ => le_trans⟩
  rw [h.insertionSort_eq]
  exact List.pairwise_insertionSort _ l

/-- The sorted list is strictly increasing in the key when no member stands twice. -/
theorem pairwise (h : SortsBy r key l) (hnodup : l.Nodup) :
    (l.insertionSort r).Pairwise fun x y => key x < key y := by
  have hsorted : (l.insertionSort r).Nodup := (List.perm_insertionSort r l).nodup_iff.mpr hnodup
  refine (h.pairwise_le.and hsorted).imp_of_mem fun {x y} hx hy hxy => ?_
  refine lt_of_le_of_ne hxy.1 fun heq => hxy.2 ?_
  exact h.eq_of_key x ((List.mem_insertionSort r).mp hx) y ((List.mem_insertionSort r).mp hy) heq

/-- Lists with the same members are sorted alike. -/
theorem eq_of_perm (h : SortsBy r key l) (hperm : l'.Perm l) :
    l'.insertionSort r = l.insertionSort r := by
  have hsorted : (l'.insertionSort r).Perm (l.insertionSort r) :=
    (List.perm_insertionSort r l').trans (hperm.trans (List.perm_insertionSort r l).symm)
  refine hsorted.eq_of_pairwise (fun x y hx hy hxy hyx => ?_) (h.of_perm hperm).pairwise_le
    h.pairwise_le
  rw [List.mem_insertionSort] at hx hy
  exact h.eq_of_key x (hperm.subset hx) y hy (le_antisymm hxy hyx)

end SortsBy

end List
