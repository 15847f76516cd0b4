import Mathlib.Data.List.TakeDrop

/-!
# Finite runs of a labelled step relation

A run is recorded by the list of its labels, the latest label last, so that an invariant may
speak about the history of the run as well as about the state it has reached.

* `Trace.invariant`: a property of history and state that holds at the start and is preserved
  by every step holds of every run.
* `Trace.step_at`: the label at index `k` of a run is a step out of a state that the first `k`
  labels reach.
* `Trace.EveryStep`, `Trace.EveryStepAfter`: a property of every step of a run, with its states and
  with the labels before it.
* `Trace.EveryLabel`: a property of every label, given the labels before it.
* `Trace.exec_trace`: executing a list of inputs gives a run.
-/

/-- `Trace step init es s`: starting at `init`, steps labelled `es` lead to `s`. -/
inductive Trace {σ ε : Type*} (step : σ → ε → σ → Prop) (init : σ) : List ε → σ → Prop
  | nil : Trace step init [] init
  | snoc {es : List ε} {s : σ} {e : ε} {s' : σ} (prior : Trace step init es s)
      (last : step s e s') : Trace step init (es ++ [e]) s'

namespace Trace

variable {σ ε : Type*} {step : σ → ε → σ → Prop} {init : σ} {es : List ε} {s : σ}

/-- A property of history and state that is established at the start and preserved by every
step of the run holds of every run. -/
theorem invariant {Inv : List ε → σ → Prop} (hinit : Inv [] init)
    (hstep : ∀ es s e s', Trace step init es s → Inv es s → step s e s' → Inv (es ++ [e]) s')
    (h : Trace step init es s) : Inv es s := by
  induction h with
  | nil => exact hinit
  | snoc prior last ih => exact hstep _ _ _ _ prior ih last

/-- `Trace.invariant` for a property of the state alone. -/
theorem stateInvariant {Inv : σ → Prop} (hinit : Inv init)
    (hstep : ∀ s e s', Inv s → step s e s' → Inv s')
    (h : Trace step init es s) : Inv s := by
  induction h with
  | nil => exact hinit
  | snoc prior last ih => exact hstep _ _ _ ih last

/-- A run without labels has not moved. -/
theorem of_nil (h : Trace step init [] s) : s = init := by
  generalize hlabels : ([] : List ε) = labels at h
  cases h with
  | nil => rfl
  | snoc prior last => simp at hlabels

/-- A run goes on from where another one has ended. -/
theorem append {later : List ε} {s' : σ} (h : Trace step init es s) (h' : Trace step s later s') :
    Trace step init (es ++ later) s' := by
  induction h' with
  | nil => rwa [List.append_nil]
  | snoc prior last ih =>
      rw [← List.append_assoc]
      exact ih.snoc last

/-- The last label of a run is a step out of a state that the labels before it reach. -/
theorem of_snoc {e : ε} (h : Trace step init (es ++ [e]) s) :
    ∃ s₁, Trace step init es s₁ ∧ step s₁ e s := by
  generalize hlabels : es ++ [e] = labels at h
  cases h with
  | nil => simp at hlabels
  | snoc prior last =>
      obtain ⟨rfl, hlast⟩ := List.append_inj' hlabels rfl
      cases hlast
      exact ⟨_, prior, last⟩

/-- The label at index `k` is a step between the states reached by the first `k` and the first
`k + 1` labels. -/
theorem step_at (h : Trace step init es s) {k : ℕ} {e : ε} (hk : es[k]? = some e) :
    ∃ s₁ s₂, Trace step init (es.take k) s₁ ∧ step s₁ e s₂ ∧
      Trace step init (es.take (k + 1)) s₂ := by
  induction h with
  | nil => simp at hk
  | @snoc es s e' s' prior last ih =>
      -- the label lies in the earlier run, is the last step, or does not exist
      rcases Nat.lt_trichotomy k es.length with hlt | heq | hgt
      · rw [List.getElem?_append_left hlt] at hk
        obtain ⟨s₁, s₂, h₁, hstep, h₂⟩ := ih hk
        refine ⟨s₁, s₂, ?_, hstep, ?_⟩
        · rwa [List.take_append_of_le_length (Nat.le_of_lt hlt)]
        · rwa [List.take_append_of_le_length hlt]
      · subst heq
        have he : e' = e := by simpa using hk
        subst he
        refine ⟨s, s', by simpa using prior, last, ?_⟩
        rw [List.take_of_length_le (by simp)]
        exact prior.snoc last
      · rw [List.getElem?_eq_none (by simpa using Nat.succ_le_of_lt hgt)] at hk
        cases hk

/-- Every step of the run with these labels satisfies `P`. -/
def EveryStep (step : σ → ε → σ → Prop) (init : σ) (es : List ε) (P : σ → ε → σ → Prop) : Prop :=
  ∀ k e s s', es[k]? = some e → Trace step init (es.take k) s → step s e s' → P s e s'

/-- A property of every step of a run, with its states and the labels before it. -/
def EveryStepAfter (step : σ → ε → σ → Prop) (init : σ) (es : List ε)
    (P : List ε → σ → ε → σ → Prop) : Prop :=
  ∀ k e s s', es[k]? = some e → Trace step init (es.take k) s → step s e s' → P (es.take k) s e s'

theorem EveryStepAfter.last {P : List ε → σ → ε → σ → Prop} {e : ε} {s' : σ}
    (h : EveryStepAfter step init (es ++ [e]) P) (hs : Trace step init es s)
    (hstep : step s e s') : P es s e s' := by
  have htake : (es ++ [e]).take es.length = es := by simp
  have hlast := h es.length e s s' (by simp) (by rwa [htake]) hstep
  rwa [htake] at hlast

/-- Properties that agree on every step of a run agree on the run. -/
theorem EveryStep.congr {P Q : σ → ε → σ → Prop}
    (h : EveryStep step init es fun s e s' => P s e s' ↔ Q s e s') :
    EveryStep step init es P ↔ EveryStep step init es Q :=
  ⟨fun hall k e s s' hk hs hstep => (h k e s s' hk hs hstep).mp (hall k e s s' hk hs hstep),
    fun hall k e s s' hk hs hstep => (h k e s s' hk hs hstep).mpr (hall k e s s' hk hs hstep)⟩

theorem EveryStep.of_append {P : σ → ε → σ → Prop} {e : ε}
    (h : EveryStep step init (es ++ [e]) P) :
    EveryStep step init es P ∧ ∀ s s', Trace step init es s → step s e s' → P s e s' := by
  constructor
  · intro k e' s s' hk hs hstep
    -- the first steps are the same in the longer run
    have hlt : k < es.length := (List.getElem?_eq_some_iff.mp hk).1
    refine h k e' s s' ?_ ?_ hstep
    · rwa [List.getElem?_append_left hlt]
    · rwa [List.take_append_of_le_length (Nat.le_of_lt hlt)]
  · intro s s' hs hstep
    refine h es.length e s s' (by simp) ?_ hstep
    rwa [List.take_append_of_le_length (Nat.le_refl _), List.take_of_length_le (Nat.le_refl _)]

/-- The first steps of a run are steps of the run. -/
theorem EveryStep.take {P : σ → ε → σ → Prop} (h : EveryStep step init es P) (n : ℕ) :
    EveryStep step init (es.take n) P := by
  intro k e s s' hk hs hstep
  have hlt : k < n := by
    have hlength := (List.getElem?_eq_some_iff.mp hk).1
    rw [List.length_take] at hlength
    omega
  rw [List.getElem?_take_of_lt hlt] at hk
  rw [List.take_take, Nat.min_eq_left (Nat.le_of_lt hlt)] at hs
  exact h k e s s' hk hs hstep

/-- On a run, a property of the labels holds of every step if it holds of every label. -/
theorem everyStep_label {Q : ε → Prop} (h : Trace step init es s) :
    EveryStep step init es (fun _ e _ => Q e) ↔ ∀ e ∈ es, Q e := by
  constructor
  · intro hall e he
    obtain ⟨k, hk⟩ := List.getElem?_of_mem he
    obtain ⟨s₁, s₂, h₁, hstep, -⟩ := h.step_at hk
    exact hall k e s₁ s₂ hk h₁ hstep
  · exact fun hall k e _ _ hk _ _ => hall e (List.mem_of_getElem? hk)

/-- Every label satisfies a property, given the labels before it. -/
def EveryLabel (es : List ε) (P : List ε → ε → Prop) : Prop :=
  ∀ before e, before ++ [e] <+: es → P before e

theorem everyLabel_nil {P : List ε → ε → Prop} : EveryLabel [] P := by
  intro before e hinitial
  simp at hinitial

theorem everyLabel_snoc {P : List ε → ε → Prop} {e : ε} :
    EveryLabel (es ++ [e]) P ↔ EveryLabel es P ∧ P es e := by
  constructor
  · exact fun h => ⟨fun before e' hinitial => h before e' (hinitial.trans (List.prefix_append _ _)),
      h es e (List.prefix_refl _)⟩
  · rintro ⟨h, hlast⟩ before e' hinitial
    -- a longer prefix is the whole list
    rcases List.prefix_concat_iff.mp hinitial with heq | hold
    · obtain ⟨rfl, hlabel⟩ := List.append_inj' heq rfl
      cases hlabel
      exact hlast
    · exact h before e' hold

/-- The labels are tested one by one. -/
instance {P : List ε → ε → Prop} [∀ before e, Decidable (P before e)] :
    Decidable (EveryLabel es P) :=
  decidable_of_iff (∀ k : Fin es.length, P (es.take k) es[k]) <| by
    constructor
    · rintro h before e ⟨rest, rfl⟩
      have hk := h ⟨before.length, by simp⟩
      simpa using hk
    · intro h k
      refine h _ _ ?_
      rw [Fin.getElem_fin, ← List.take_succ_eq_append_getElem]
      exact List.take_prefix _ _

/-- Execute inputs from a state, after the steps recorded so far, until one is refused. -/
def exec {ι : Type*} (next : σ → ι → Option (ε × σ)) (s : σ) (es : List ε) :
    List ι → List ε × σ
  | [] => (es, s)
  | i :: inputs =>
      match next s i with
      | none => (es, s)
      | some (e, s') => exec next s' (es ++ [e]) inputs

/-- What is executed is a run, if every accepted input is a step. -/
theorem exec_trace {ι : Type*} {next : σ → ι → Option (ε × σ)}
    (hnext : ∀ s i e s', next s i = some (e, s') → step s e s') (inputs : List ι)
    (h : Trace step init es s) :
    Trace step init (exec next s es inputs).1 (exec next s es inputs).2 := by
  induction inputs generalizing es s with
  | nil => exact h
  | cons i inputs ih =>
      rw [exec]
      -- a refused input ends the execution
      split
      · exact h
      · rename_i e s' hi
        exact ih (h.snoc (hnext s i e s' hi))

/-- The labels of what is executed come from the inputs. -/
theorem exec_labels {ι : Type*} {next : σ → ι → Option (ε × σ)} {Q : ε → Prop}
    {inputs : List ι} (hnext : ∀ s, ∀ i ∈ inputs, ∀ e s', next s i = some (e, s') → Q e)
    (hes : ∀ e ∈ es, Q e) : ∀ e ∈ (exec next s es inputs).1, Q e := by
  induction inputs generalizing es s with
  | nil => exact hes
  | cons i inputs ih =>
      rw [exec]
      split
      · exact hes
      · rename_i e s' hi
        refine ih (fun s₁ j hj => hnext s₁ j (List.mem_cons_of_mem _ hj)) fun e' he' => ?_
        rcases List.mem_append.mp he' with hold | hnew
        · exact hes e' hold
        · rw [List.mem_singleton.mp hnew]
          exact hnext s i List.mem_cons_self e s' hi

/-- A run ends in one state, if the labels determine the steps. -/
theorem unique (hdet : ∀ s e s₁ s₂, step s e s₁ → step s e s₂ → s₁ = s₂) {s' : σ}
    (h : Trace step init es s) (h' : Trace step init es s') : s = s' := by
  induction h generalizing s' with
  | nil => exact h'.of_nil.symm
  | snoc prior last ih =>
      obtain ⟨s₁, hprior, hlast⟩ := h'.of_snoc
      obtain rfl := ih hprior
      exact hdet _ _ _ _ last hlast

/-- `EveryStep` for a run with one more step. -/
theorem EveryStep.snoc {P : σ → ε → σ → Prop} {e : ε} (h : EveryStep step init es P)
    (hlast : ∀ s s', Trace step init es s → step s e s' → P s e s') :
    EveryStep step init (es ++ [e]) P := by
  intro k e' s s' hk hs hstep
  -- the step is one of the first steps or the last one
  rcases Nat.lt_trichotomy k es.length with hlt | heq | hgt
  · rw [List.getElem?_append_left hlt] at hk
    rw [List.take_append_of_le_length (Nat.le_of_lt hlt)] at hs
    exact h k e' s s' hk hs hstep
  · subst heq
    have he : e = e' := by simpa using hk
    rw [List.take_append_of_le_length (Nat.le_refl _), List.take_of_length_le (Nat.le_refl _)] at hs
    exact he ▸ hlast s s' hs (he ▸ hstep)
  · rw [List.getElem?_eq_none (by simpa using Nat.succ_le_of_lt hgt)] at hk
    cases hk

/-- Whether every step of an execution passes a test. -/
def execAll {ι : Type*} (next : σ → ι → Option (ε × σ)) (test : σ → ε → Bool) (s : σ) :
    List ι → Bool
  | [] => true
  | i :: inputs =>
      match next s i with
      | none => true
      | some (e, s') => test s e && execAll next test s' inputs

/-- A property of every step that is executed, by a test. -/
theorem exec_everyStep {ι : Type*} {next : σ → ι → Option (ε × σ)} {test : σ → ε → Bool}
    {P : σ → ε → σ → Prop} (hnext : ∀ s i e s', next s i = some (e, s') → step s e s')
    (hdet : ∀ s e s₁ s₂, step s e s₁ → step s e s₂ → s₁ = s₂)
    (htest : ∀ s e s', test s e = true → P s e s') {inputs : List ι} (h : Trace step init es s)
    (hes : EveryStep step init es P) (hall : execAll next test s inputs = true) :
    EveryStep step init (exec next s es inputs).1 P := by
  induction inputs generalizing es s with
  | nil => exact hes
  | cons i inputs ih =>
      rw [exec]
      rw [execAll] at hall
      split
      · exact hes
      · rename_i e s' hi
        simp only [hi, Bool.and_eq_true] at hall
        refine ih (h.snoc (hnext s i e s' hi)) (hes.snoc fun s₁ s₂ hs₁ _ => ?_) hall.2
        rw [unique hdet hs₁ h]
        exact htest s e s₂ hall.1

end Trace
