import Mathlib.Data.Nat.Notation
import Mathlib.Tactic.Common
import BybitMonitor.ToMathlib.Program

/-!
# Retry loops

A body is tried again while it fails in a way that may pass, a limited number of times and with a
pause before each further attempt.

* `Program.retry`: the loop.
* `Program.meets_retry`: its rule, whose invariant counts the failures.
* `Program.Protocol.recording`: the protocol that keeps what was asked and replied.
* `Program.Protocol.replying`: the protocol of an environment without a state.
-/

namespace Program

variable {E : Type} {R : E → Type} {ε α : Type}

/-- Try a body, after `n` failures that may pass, and at most `left` times more; `pause k` comes
after the failure number `k`. -/
def retry (attempt : Program E R ε α) (retryable : ε → Bool) (pause : ℕ → Program E R ε Unit) :
    ℕ → ℕ → Program E R ε α
  | 0, _ => attempt
  | left + 1, n => attempt.tryCatch fun e =>
      if retryable e then do
        pause (n + 1)
        retry attempt retryable pause left (n + 1)
      else throw e

section Meets

variable {γ : Type} {P : Protocol E R γ} {attempt : Program E R ε α} {retryable : ε → Bool}
  {pause : ℕ → Program E R ε Unit} {post : Except ε α → γ → Prop}

/-- A loop meets its end, if an attempt leads from the invariant for the failures so far to the end
or, over a pause, to the invariant for one failure more. -/
theorem meets_retry (Inv : ℕ → γ → Prop) (limit : ℕ)
    (hattempt : ∀ n g, n ≤ limit → Inv n g → attempt.Meets P g fun outcome g' =>
      match outcome with
      | .ok a => post (.ok a) g'
      | .error e =>
          (retryable e = false ∨ n = limit → post (.error e) g') ∧
          (retryable e = true → n < limit → (pause (n + 1)).Meets P g' fun paused g'' =>
            match paused with
            | .ok _ => Inv (n + 1) g''
            | .error e' => post (.error e') g''))
    {left n : ℕ} {g : γ} (hlimit : n + left = limit) (h : Inv n g) :
    (retry attempt retryable pause left n).Meets P g post := by
  -- by induction on the attempts that are left
  induction left generalizing n g with
  | zero =>
      rw [retry]
      refine (hattempt n g (by omega) h).mono fun outcome g' hlast => ?_
      cases outcome with
      | ok a => exact hlast
      | error e => exact hlast.1 (Or.inr (by omega))
  | succ left ih =>
      rw [retry, meets_tryCatch]
      refine (hattempt n g (by omega) h).mono fun outcome g' hnext => ?_
      cases outcome with
      | ok a => exact hnext
      | error e =>
          dsimp only at hnext ⊢
          split
          · rename_i hretry
            rw [meets_bind]
            refine (hnext.2 hretry (by omega)).mono fun paused g'' hpaused => ?_
            cases paused with
            | ok _ => exact ih (by omega) hpaused
            | error e' => exact hpaused
          · rename_i hretry
            exact hnext.1 (Or.inl (by simpa using hretry))

end Meets

/-- Every program meets an end that always holds, if it may ask everything. -/
theorem meets_of_forall {γ : Type} {P : Protocol E R γ} {p : Program E R ε α} {g : γ}
    {post : Except ε α → γ → Prop} (hallows : ∀ g question, P.Allows g question)
    (hpost : ∀ outcome g, post outcome g) : p.Meets P g post := by
  induction p generalizing g with
  | done outcome => exact hpost outcome g
  | ask question next ih => exact ⟨hallows g question, fun reply g' _ => ih reply⟩

/-- What was asked so far, with the replies. -/
abbrev Transcript (E : Type) (R : E → Type) : Type := List (Σ question : E, R question)

/-- Everything may be asked, the replies are legal, and all of it is kept. -/
def Protocol.recording (legal : (question : E) → R question → Prop) :
    Protocol E R (Transcript E R) where
  Allows _ _ := True
  Moves log question reply log' := legal question reply ∧ log' = log ++ [⟨question, reply⟩]

/-- A recorded question before the rest of a program. -/
theorem meets_recording_bind {β : Type} {legal : (question : E) → R question → Prop}
    {question : E} {next : R question → Program E R ε β} {log : Transcript E R}
    {post : Except ε β → Transcript E R → Prop} :
    (perform question >>= next).Meets (.recording legal) log post ↔
      ∀ reply, legal question reply →
        (next reply).Meets (.recording legal) (log ++ [⟨question, reply⟩]) post := by
  simp [meets_bind, meets_perform, Protocol.recording]

/-- Everything may be asked and the replies are legal; nothing is kept. -/
def Protocol.replying (legal : (question : E) → R question → Prop) : Protocol E R Unit where
  Allows _ _ := True
  Moves _ question reply _ := legal question reply

/-- A question whose reply is legal, before the rest of a program. -/
theorem meets_replying_bind {β : Type} {legal : (question : E) → R question → Prop} {question : E}
    {next : R question → Program E R ε β} {post : Except ε β → Unit → Prop} :
    (perform question >>= next).Meets (.replying legal) () post ↔
      ∀ reply, legal question reply → (next reply).Meets (.replying legal) () post :=
  ⟨fun h reply hlegal => h.2 reply () hlegal, fun h => ⟨trivial, fun reply _ => h reply⟩⟩

end Program
