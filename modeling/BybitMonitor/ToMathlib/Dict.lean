import Mathlib

/-!
# Dictionaries in the order of insertion

A dictionary is the list of its entries. A key that is set keeps its place; a new one comes last.

* `Dict.mem_set`: the entries after an assignment.
* `Dict.get_set`, `Dict.get_set_of_ne`: what an assignment changes.
* `Dict.groups_foldl`: a dictionary of lists, filled value by value, groups the values by key.
-/

namespace Dict

variable {α β : Type*} [DecidableEq α] {d : List (α × β)} {key other : α} {value : β}

/-- `d[key] = value`. -/
def set (d : List (α × β)) (key : α) (value : β) : List (α × β) :=
  if d.any fun entry => entry.1 = key then
    d.map fun entry => if entry.1 = key then (key, value) else entry
  else d ++ [(key, value)]

/-- `d.get(key)`. -/
def get (d : List (α × β)) (key : α) : Option β := d.lookup key

/-- The entries after an assignment. -/
theorem mem_set {entry : α × β} :
    entry ∈ set d key value ↔ entry = (key, value) ∨ (entry ∈ d ∧ entry.1 ≠ key) := by
  rw [set]
  split
  · rename_i hany
    obtain ⟨old, hold, hkey⟩ := List.any_eq_true.mp hany
    rw [List.mem_map]
    constructor
    · rintro ⟨x, hx, rfl⟩
      split
      · exact Or.inl rfl
      · exact Or.inr ⟨hx, ‹_›⟩
    · rintro (rfl | ⟨hmem, hne⟩)
      · exact ⟨old, hold, if_pos (of_decide_eq_true hkey)⟩
      · exact ⟨entry, hmem, if_neg hne⟩
  · rename_i hnone
    rw [List.mem_append, List.mem_singleton, or_comm]
    refine or_congr_right (and_iff_left_of_imp fun hmem heq => hnone ?_).symm
    exact List.any_eq_true.mpr ⟨entry, hmem, decide_eq_true heq⟩

/-- The value of the first entry of a key, entry by entry. -/
theorem get_cons (entry : α × β) (d : List (α × β)) (key : α) :
    get (entry :: d) key = if entry.1 = key then some entry.2 else get d key := by
  rw [get, List.lookup_cons]
  by_cases heq : entry.1 = key
  · simp [heq]
  · rw [if_neg heq, beq_eq_false_iff_ne.mpr (Ne.symm heq)]
    rfl

/-- A value that is found is the value of an entry. -/
theorem mem_of_get (h : get d key = some value) : (key, value) ∈ d := by
  obtain ⟨before, after, heq, -⟩ := List.lookup_eq_some_iff.mp h
  rw [heq]
  exact List.mem_append_right _ List.mem_cons_self

/-- A key that is set has its new value. -/
theorem get_set : get (set d key value) key = some value := by
  rw [set]
  split
  · rename_i hany
    induction d with
    | nil => simp at hany
    | cons entry d ih =>
        rw [List.map_cons, get_cons]
        by_cases heq : entry.1 = key
        · simp [heq]
        · simp only [heq, if_false]
          refine ih ?_
          simpa [heq] using hany
  · rename_i hnone
    rw [get, List.lookup_append, List.lookup_eq_none_iff.mpr]
    · simp
    · intro entry hmem
      have hne : entry.1 ≠ key := fun heq =>
        hnone (List.any_eq_true.mpr ⟨entry, hmem, decide_eq_true heq⟩)
      simpa using hne.symm

/-- Replacing the value of a key leaves the other keys alone. -/
theorem get_replace_of_ne (hne : other ≠ key) :
    get (d.map fun entry => if entry.1 = key then (key, value) else entry) other = get d other := by
  induction d with
  | nil => rfl
  | cons entry d ih =>
      rw [List.map_cons, get_cons, get_cons, ih]
      by_cases heq : entry.1 = key
      · simp [heq, hne.symm]
      · simp [heq]

/-- The other keys keep their values. -/
theorem get_set_of_ne (hne : other ≠ key) :
    get (set d key value) other = get d other := by
  rw [set]
  split
  · exact get_replace_of_ne hne
  · have hsingle : get [(key, value)] other = none := by
      rw [get_cons, if_neg hne.symm]
      rfl
    rw [get, List.lookup_append]
    change (get d other).or (get [(key, value)] other) = get d other
    rw [hsingle, Option.or_none]

/-! ## Groups -/

section Grouping

variable {γ : Type*} {groups : List (α × List γ)} {f : γ → α} {l : List γ}

/-- `d.setdefault(key, []).append(value)`. -/
def append (groups : List (α × List γ)) (key : α) (x : γ) : List (α × List γ) :=
  if groups.any fun group => group.1 = key then
    groups.map fun group => if group.1 = key then (group.1, group.2 ++ [x]) else group
  else groups ++ [(key, [x])]

/-- The groups of `l` by `f`: one for each value of `f`, with its members in their order. -/
structure Groups (f : γ → α) (l : List γ) (groups : List (α × List γ)) : Prop where
  nodup : (groups.map Prod.fst).Nodup
  mem_iff (group : α × List γ) :
    group ∈ groups ↔ group.2 = l.filter (fun x => f x = group.1) ∧ ∃ x ∈ l, f x = group.1

/-- The keys after a value was appended. -/
theorem map_fst_append (key : α) (x : γ) :
    (append groups key x).map Prod.fst =
      if groups.any fun group => group.1 = key then groups.map Prod.fst
      else groups.map Prod.fst ++ [key] := by
  rw [append]
  split
  · rw [List.map_map]
    refine List.map_congr_left fun group _ => ?_
    dsimp only [Function.comp_apply]
    split <;> rfl
  · rw [List.map_append]
    rfl

/-- The groups of other keys stay, and the one of the key ends in the value. -/
theorem mem_append {key : α} {x : γ} {group : α × List γ} :
    group ∈ append groups key x ↔
      (group.1 ≠ key ∧ group ∈ groups) ∨
      (group.1 = key ∧ (∃ old ∈ groups, old.1 = key ∧ group.2 = old.2 ++ [x])) ∨
      (group = (key, [x]) ∧ ∀ old ∈ groups, old.1 ≠ key) := by
  rw [append]
  split
  · rename_i hany
    obtain ⟨first, hfirst, hkey⟩ := List.any_eq_true.mp hany
    have hkey := of_decide_eq_true hkey
    rw [List.mem_map]
    constructor
    · rintro ⟨old, hold, rfl⟩
      split
      · exact Or.inr (Or.inl ⟨‹_›, old, hold, ‹_›, rfl⟩)
      · exact Or.inl ⟨‹_›, hold⟩
    · rintro (⟨hne, hmem⟩ | ⟨rfl, old, hold, heq, htail⟩ | ⟨-, hnone⟩)
      · exact ⟨group, hmem, if_neg hne⟩
      · refine ⟨old, hold, ?_⟩
        rw [if_pos heq]
        exact Prod.ext heq htail.symm
      · exact absurd hkey (hnone first hfirst)
  · rename_i hany
    have hnone : ∀ old ∈ groups, old.1 ≠ key := fun old hold heq =>
      hany (List.any_eq_true.mpr ⟨old, hold, decide_eq_true heq⟩)
    rw [List.mem_append, List.mem_singleton]
    constructor
    · rintro (hmem | rfl)
      · exact Or.inl ⟨hnone group hmem, hmem⟩
      · exact Or.inr (Or.inr ⟨rfl, hnone⟩)
    · rintro (⟨-, hmem⟩ | ⟨-, old, hold, heq, -⟩ | ⟨heq, -⟩)
      · exact Or.inl hmem
      · exact absurd heq (hnone old hold)
      · exact Or.inr heq

/-- Without values there are no groups. -/
theorem Groups.nil : Groups f ([] : List γ) [] where
  nodup := List.nodup_nil
  mem_iff group := by simp

/-- The keys of the groups are the values of `f`. -/
theorem Groups.exists_key_iff (h : Groups f l groups) {key : α} :
    (∃ group ∈ groups, group.1 = key) ↔ ∃ x ∈ l, f x = key := by
  constructor
  · rintro ⟨group, hmem, rfl⟩
    exact ((h.mem_iff group).mp hmem).2
  · intro hkey
    exact ⟨(key, l.filter fun x => f x = key), (h.mem_iff _).mpr ⟨rfl, hkey⟩, rfl⟩

/-- One more value joins the group of its key. -/
theorem Groups.append (h : Groups f l groups) (x : γ) :
    Groups f (l ++ [x]) (Dict.append groups (f x) x) where
  nodup := by
    rw [map_fst_append]
    split
    · exact h.nodup
    · rename_i hany
      refine List.nodup_append'.mpr ⟨h.nodup, List.nodup_singleton _, ?_⟩
      rw [List.disjoint_singleton]
      intro hmem
      obtain ⟨old, hold, heq⟩ := List.mem_map.mp hmem
      exact hany (List.any_eq_true.mpr ⟨old, hold, decide_eq_true heq⟩)
  mem_iff group := by
    rw [mem_append, List.filter_append]
    constructor
    · rintro (⟨hne, hmem⟩ | ⟨hkey, old, hold, heq, htail⟩ | ⟨rfl, hnone⟩)
      · obtain ⟨hmembers, y, hy, hfy⟩ := (h.mem_iff group).mp hmem
        have hother : [x].filter (fun y => f y = group.1) = [] := by simpa using hne.symm
        rw [hother, List.append_nil]
        exact ⟨hmembers, y, List.mem_append_left _ hy, hfy⟩
      · obtain ⟨hmembers, -⟩ := (h.mem_iff old).mp hold
        have hsame : [x].filter (fun y => f y = group.1) = [x] := by simpa using hkey.symm
        rw [hsame, htail, hmembers, heq, hkey]
        exact ⟨rfl, x, List.mem_append_right _ List.mem_cons_self, rfl⟩
      · have hempty : l.filter (fun y => f y = f x) = [] := by
          rw [List.filter_eq_nil_iff]
          intro y hy hfy
          obtain ⟨old, hold, heq⟩ := h.exists_key_iff.mpr ⟨y, hy, of_decide_eq_true hfy⟩
          exact hnone old hold heq
        rw [hempty]
        exact ⟨by simp, x, by simp, rfl⟩
    · rintro ⟨hmembers, y, hy, hfy⟩
      by_cases hkey : group.1 = f x
      · have hsame : [x].filter (fun y => f y = group.1) = [x] := by simpa using hkey.symm
        rw [hsame, hkey] at hmembers
        by_cases hold : ∃ old ∈ groups, old.1 = f x
        · obtain ⟨old, hold, heq⟩ := hold
          refine Or.inr (Or.inl ⟨hkey, old, hold, heq, ?_⟩)
          rw [((h.mem_iff old).mp hold).1, heq, hmembers]
        · have hempty : l.filter (fun y => f y = f x) = [] := by
            rw [List.filter_eq_nil_iff]
            intro y hy hfy
            exact hold (h.exists_key_iff.mpr ⟨y, hy, of_decide_eq_true hfy⟩)
          rw [hempty, List.nil_append] at hmembers
          exact Or.inr (Or.inr ⟨Prod.ext hkey hmembers, fun old hmem heq => hold ⟨old, hmem, heq⟩⟩)
      · have hother : [x].filter (fun y => f y = group.1) = [] := by simpa using Ne.symm hkey
        rw [hother, List.append_nil] at hmembers
        refine Or.inl ⟨hkey, (h.mem_iff group).mpr ⟨hmembers, y, ?_, hfy⟩⟩
        rcases List.mem_append.mp hy with hy | hy
        · exact hy
        · rw [List.mem_singleton.mp hy] at hfy
          exact absurd hfy.symm hkey

/-- The groups of a list, built value by value. -/
theorem groups_foldl (f : γ → α) (l : List γ) :
    Groups f l (l.foldl (fun groups x => append groups (f x) x) []) := by
  induction l using List.reverseRecOn with
  | nil => exact Groups.nil
  | append_singleton l x ih =>
      rw [List.foldl_append]
      exact ih.append x

end Grouping

end Dict
