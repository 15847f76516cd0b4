import Mathlib.Data.Finset.Basic
import Mathlib.Data.List.Nodup
import Mathlib.Data.List.Flatten

/-!
# Items in exclusive stages

Items are requested in lots and settled lot by lot. At any moment some items are settled, some are
in an outstanding lot, and some are reserved by a request that is still being issued.
`Exclusive settled lots reserved` says that no item stands in two of these places.

* `Exclusive.reserve`, `Exclusive.submit`, `Exclusive.settle`, `Exclusive.withdraw`,
  `Exclusive.forget`: what may happen to the items.
* `Exclusive.pairwise_disjoint`, `Exclusive.disjoint_settled`: the lots share no item with each
  other or with the settled items.
-/

variable {α : Type*}

/-- No item stands in two places. -/
structure Exclusive (settled : Finset α) (lots : List (List α)) (reserved : List α) : Prop where
  nodup : (lots.flatten ++ reserved).Nodup
  unsettled : ∀ x ∈ lots.flatten ++ reserved, x ∉ settled

namespace Exclusive

variable {settled settled' : Finset α} {lots lots' : List (List α)} {reserved reserved' : List α}

theorem empty : Exclusive (∅ : Finset α) [] [] := ⟨List.nodup_nil, by simp⟩

/-- Lots may be withdrawn and reservations dropped. -/
theorem withdraw (h : Exclusive settled lots reserved) (hlots : lots'.Sublist lots)
    (hreserved : reserved'.Sublist reserved) : Exclusive settled lots' reserved' := by
  have hsub : (lots'.flatten ++ reserved').Sublist (lots.flatten ++ reserved) :=
    hlots.flatten.append hreserved
  exact ⟨h.nodup.sublist hsub, fun x hx => h.unsettled x (hsub.subset hx)⟩

/-- Settled items may be forgotten. -/
theorem forget (h : Exclusive settled lots reserved) (hsub : settled' ⊆ settled) :
    Exclusive settled' lots reserved :=
  ⟨h.nodup, fun x hx hmem => h.unsettled x hx (hsub hmem)⟩

/-- Forgetting everything but the reservation. -/
theorem clear (h : Exclusive settled lots reserved) : Exclusive (∅ : Finset α) [] reserved :=
  (h.withdraw (List.nil_sublist _) (List.Sublist.refl _)).forget (Finset.empty_subset _)

/-- Items that stand nowhere may be reserved. -/
theorem reserve (h : Exclusive settled lots []) (hnodup : reserved.Nodup)
    (hfree : ∀ x ∈ reserved, x ∉ settled ∧ x ∉ lots.flatten) : Exclusive settled lots reserved where
  nodup := by
    refine List.nodup_append'.mpr ⟨by simpa using h.nodup, hnodup, ?_⟩
    exact fun x hlot hreserved => (hfree x hreserved).2 hlot
  unsettled := by
    intro x hx
    rcases List.mem_append.mp hx with hlot | hreserved
    · exact h.unsettled x (List.mem_append_left _ hlot)
    · exact (hfree x hreserved).1

/-- The first reserved items may be submitted as a lot. -/
theorem submit {lot : List α} (h : Exclusive settled lots (lot ++ reserved)) :
    Exclusive settled (lots ++ [lot]) reserved := by
  have hsame : (lots ++ [lot]).flatten ++ reserved = lots.flatten ++ (lot ++ reserved) := by
    simp
  exact ⟨hsame ▸ h.nodup, hsame ▸ h.unsettled⟩

/-- An outstanding lot may be settled. -/
theorem settle [DecidableEq α] {before after : List (List α)} {lot : List α}
    (h : Exclusive settled (before ++ lot :: after) reserved) :
    Exclusive (settled ∪ lot.toFinset) (before ++ after) reserved := by
  have hrest : ((before ++ after).flatten ++ reserved).Sublist
      ((before ++ lot :: after).flatten ++ reserved) :=
    (((List.sublist_cons_self lot after).append_left before).flatten).append
      (List.Sublist.refl _)
  refine ⟨h.nodup.sublist hrest, fun x hx hmem => ?_⟩
  rcases Finset.mem_union.mp hmem with hold | hlot
  · exact h.unsettled x (hrest.subset hx) hold
  · -- an item of the lot that also stands elsewhere would occur twice
    have hperm : ((before ++ lot :: after).flatten ++ reserved).Perm
        (lot ++ ((before ++ after).flatten ++ reserved)) := by
      simp only [List.flatten_append, List.flatten_cons, List.append_assoc]
      rw [← List.append_assoc, ← List.append_assoc lot]
      exact List.perm_append_comm.append_right _
    have hdisjoint := (List.nodup_append'.mp (hperm.nodup_iff.mp h.nodup)).2.2
    exact hdisjoint (List.mem_toFinset.mp hlot) hx

/-- Two lots share no item. -/
theorem pairwise_disjoint (h : Exclusive settled lots reserved) :
    lots.Pairwise List.Disjoint :=
  (List.nodup_flatten.mp (List.nodup_append'.mp h.nodup).1).2

/-- No outstanding item is settled. -/
theorem disjoint_settled (h : Exclusive settled lots reserved) {lot : List α} (hlot : lot ∈ lots)
    {x : α} (hx : x ∈ lot) : x ∉ settled :=
  h.unsettled x (List.mem_append_left _ (List.mem_flatten.mpr ⟨lot, hlot, hx⟩))

end Exclusive
