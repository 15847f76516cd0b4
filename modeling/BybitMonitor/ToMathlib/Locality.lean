import Mathlib

/-!
# Loops whose rounds use different parts of the state

A loop goes through items and keeps a state. Where each item has a key, and its round reads and
writes the part of the state under its key only, the rounds of a loop over different keys do not
influence each other: the loop returns what each round returns on the initial state.

* `Locality.runAll_outcome`: the results of a loop are those of its rounds on the initial state.
* `Locality.runAll_view`: and each part of the state is left as the round of its key leaves it.
* `List.mapM_perm`: the order of the items is the order of the results and nothing else.
-/

variable {σ ι κ ν ε ρ : Type*}

/-- A loop that collects the results of its rounds and ends with the first one that raises. -/
def runAll (step : σ → ι → Except ε ρ × σ) : σ → List ι → Except ε (List ρ) × σ
  | s, [] => (.ok [], s)
  | s, i :: items =>
      match step s i with
      | (.error e, s) => (.error e, s)
      | (.ok r, s) =>
          match runAll step s items with
          | (.error e, s) => (.error e, s)
          | (.ok rs, s) => (.ok (r :: rs), s)

/-- A loop that returns is the loop of every step that its rounds agree with where they return. -/
theorem runAll_of_returns {step step' : σ → ι → Except ε ρ × σ}
    (hstep : ∀ s i r s', step s i = (.ok r, s') → step' s i = (.ok r, s')) {s s' : σ}
    {items : List ι} {rs : List ρ} (h : runAll step s items = (.ok rs, s')) :
    runAll step' s items = (.ok rs, s') := by
  induction items generalizing s rs with
  | nil => exact h
  | cons i items ih =>
      rw [runAll] at h
      split at h
      · cases h
      · rename_i r s₁ hrun
        split at h
        · cases h
        · rename_i rs₁ s₂ hitems
          cases h
          simp only [runAll, hstep s i r s₁ hrun, ih hitems]

/-- A round uses the part of the state under the key of its item, and no other. -/
structure Locality (key : ι → κ) (view : κ → σ → ν) (step : σ → ι → Except ε ρ × σ) : Prop where
  frame (s : σ) (i : ι) (k : κ) : k ≠ key i → view k (step s i).2 = view k s
  outcome (s s' : σ) (i : ι) : view (key i) s = view (key i) s' → (step s i).1 = (step s' i).1
  result (s s' : σ) (i : ι) : view (key i) s = view (key i) s' →
    view (key i) (step s i).2 = view (key i) (step s' i).2

namespace Locality

variable {key : ι → κ} {view : κ → σ → ν} {step : σ → ι → Except ε ρ × σ}

/-- A loop leaves the parts of the state alone that no item has for its key. -/
theorem runAll_frame (h : Locality key view step) (s : σ) (items : List ι) {k : κ}
    (hk : k ∉ items.map key) : view k (runAll step s items).2 = view k s := by
  induction items generalizing s with
  | nil => rfl
  | cons i items ih =>
      rw [List.map_cons, List.mem_cons, not_or] at hk
      have hstep := h.frame s i k hk.1
      rw [runAll]
      split
      · rename_i hrun
        rwa [hrun] at hstep
      · rename_i r s₁ hrun
        rw [hrun] at hstep
        have hrest := ih s₁ hk.2
        split
        · rename_i hitems
          rw [hitems] at hrest
          exact hrest.trans hstep
        · rename_i hitems
          rw [hitems] at hrest
          exact hrest.trans hstep

/-- The rounds of a loop on a state that agrees with another one on their keys. -/
theorem runAll_outcome_of_agree (h : Locality key view step) {s s' : σ} {items : List ι}
    (hkeys : (items.map key).Nodup) (hagree : ∀ i ∈ items, view (key i) s = view (key i) s') :
    (runAll step s items).1 = items.mapM fun i => (step s' i).1 := by
  induction items generalizing s with
  | nil => rfl
  | cons i items ih =>
      rw [List.map_cons, List.nodup_cons] at hkeys
      have hfirst := h.outcome s s' i (hagree i List.mem_cons_self)
      rw [runAll, List.mapM_cons, ← hfirst]
      split
      · rename_i e s₁ hrun
        rw [hrun]
        rfl
      · rename_i r s₁ hrun
        -- the round leaves the other keys alone, so that the rest starts from the same views
        have hagree' : ∀ j ∈ items, view (key j) s₁ = view (key j) s' := by
          intro j hj
          have hne : key j ≠ key i := fun heq => hkeys.1 (heq ▸ List.mem_map_of_mem hj)
          have hframe := h.frame s i (key j) hne
          rw [hrun] at hframe
          exact hframe.trans (hagree j (List.mem_cons_of_mem i hj))
        have hrest := ih hkeys.2 hagree'
        rw [hrun, ← hrest]
        cases hitems : runAll step s₁ items with
        | mk outcome s₂ => cases outcome <;> rfl

/-- **Independent rounds.** A loop over different keys returns what its rounds return on the initial
state, or raises what the first of them raises there. -/
theorem runAll_outcome (h : Locality key view step) (s : σ) {items : List ι}
    (hkeys : (items.map key).Nodup) :
    (runAll step s items).1 = items.mapM fun i => (step s i).1 :=
  h.runAll_outcome_of_agree hkeys fun _ _ => rfl

/-- A loop that returns leaves the part of each key as the round of its item leaves it. -/
theorem runAll_view (h : Locality key view step) (s : σ) {items : List ι} {rs : List ρ}
    (hkeys : (items.map key).Nodup) (hrun : (runAll step s items).1 = .ok rs) {i : ι}
    (hi : i ∈ items) :
    view (key i) (runAll step s items).2 = view (key i) (step s i).2 := by
  induction items generalizing s rs with
  | nil => cases hi
  | cons j items ih =>
      rw [List.map_cons, List.nodup_cons] at hkeys
      rw [runAll] at hrun ⊢
      split at hrun
      · cases hrun
      · rename_i r s₁ hstep
        split at hrun
        · cases hrun
        · rename_i rs' s₂ hitems
          dsimp only
          rcases List.mem_cons.mp hi with rfl | hi
          · -- the later rounds leave the part of the first key alone
            have hframe := h.runAll_frame s₁ items hkeys.1
            rw [hitems] at hframe
            exact hframe.trans (by rw [hstep])
          · have hne : key i ≠ key j := fun heq => hkeys.1 (heq ▸ List.mem_map_of_mem hi)
            have hrest := ih s₁ hkeys.2 (by rw [hitems]) hi
            rw [hitems] at hrest
            have hframe := h.frame s j (key i) hne
            rw [hstep] at hframe
            exact hrest.trans (h.result s₁ s i hframe)

end Locality

namespace List

/-- The computations of a list return if each of them does. -/
theorem mapM_eq_ok_iff {f : ι → Except ε ρ} {items : List ι} {rs : List ρ} :
    items.mapM f = .ok rs ↔ List.Forall₂ (fun i r => f i = .ok r) items rs := by
  induction items generalizing rs with
  | nil =>
      rw [List.mapM_nil, List.forall₂_nil_left_iff]
      exact ⟨fun h => (Except.ok.inj h).symm, fun h => by rw [h]; rfl⟩
  | cons i items ih =>
      rw [List.mapM_cons]
      cases hf : f i with
      | error e =>
          refine iff_of_false (fun h => nomatch h) fun h => ?_
          cases h with
          | cons hi _ => rw [hf] at hi; cases hi
      | ok r =>
          cases hrest : items.mapM f with
          | error e =>
              refine iff_of_false (fun h => nomatch h) fun h => ?_
              cases h with
              | cons _ hitems =>
                  rw [ih.mpr hitems] at hrest
                  cases hrest
          | ok rs' =>
              constructor
              · intro h
                obtain rfl := Except.ok.inj h
                exact .cons hf (ih.mp hrest)
              · intro h
                cases h with
                | cons hi hitems =>
                    obtain rfl := Except.ok.inj (hf.symm.trans hi)
                    obtain rfl := Except.ok.inj (hrest.symm.trans (ih.mpr hitems))
                    rfl

/-- A result of a list of computations is the one of an item. -/
theorem exists_of_mem_result {f : ι → Except ε ρ} {items : List ι} {rs : List ρ}
    (h : items.mapM f = .ok rs) {r : ρ} (hr : r ∈ rs) : ∃ i ∈ items, f i = .ok r := by
  induction mapM_eq_ok_iff.mp h with
  | nil => cases hr
  | @cons i r' items rs hi hrest ih =>
      rcases List.mem_cons.mp hr with rfl | hr
      · exact ⟨i, List.mem_cons_self, hi⟩
      · obtain ⟨j, hj, hresult⟩ := ih (mapM_eq_ok_iff.mpr hrest) hr
        exact ⟨j, List.mem_cons_of_mem i hj, hresult⟩

/-- Each item of a list of computations that returns has its result. -/
theorem exists_result_of_mem {f : ι → Except ε ρ} {items : List ι} {rs : List ρ}
    (h : items.mapM f = .ok rs) {i : ι} (hi : i ∈ items) : ∃ r ∈ rs, f i = .ok r := by
  induction mapM_eq_ok_iff.mp h with
  | nil => cases hi
  | @cons j r items rs hj hrest ih =>
      rcases List.mem_cons.mp hi with rfl | hi
      · exact ⟨r, List.mem_cons_self, hj⟩
      · obtain ⟨r', hr', hresult⟩ := ih (mapM_eq_ok_iff.mpr hrest) hi
        exact ⟨r', List.mem_cons_of_mem r hr', hresult⟩

/-- The same items in another order give the same results in another order. -/
theorem mapM_perm {f : ι → Except ε ρ} {items items' : List ι} {rs : List ρ}
    (hperm : items'.Perm items) (h : items.mapM f = .ok rs) :
    ∃ rs', items'.mapM f = .ok rs' ∧ rs'.Perm rs := by
  obtain ⟨rs', hforall, hrs⟩ :=
    List.perm_comp_forall₂ hperm (mapM_eq_ok_iff.mp h)
  exact ⟨rs', mapM_eq_ok_iff.mpr hforall, hrs⟩

end List
