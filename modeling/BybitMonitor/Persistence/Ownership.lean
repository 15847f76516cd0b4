import Mathlib
import BybitMonitor.Persistence.Database

/-!
# Ownership of a transaction

`Database` lets the owner of a transaction use the connection again without the lock, and makes
every other task wait. The lock and `_tx_owner` are an instance of `LockProtocol`.

* `SessionStep.refines`: every step makes one move of the protocol.
* `transaction_excludes`: while a task is inside its block no other task issues an operation, the
  owner never waits, a nested `transaction` raises without an effect, and a block that is left has
  given up the connection and the lock.
-/

namespace BybitMonitor

variable {ι τ : Type}

/-- What a task at this place does with the lock. The places that are missing are never reached. -/
inductive Control.Phase : Control τ → LockPhase → Prop
  | running : Phase (.running []) .idle
  | guardWait {call : GuardedCall τ} : Phase (.guardWait [] call) .waiting
  | guarded {call : GuardedCall τ} {stage : Stage} {id : ℕ} :
      Phase (.guarded [] true call stage id) .holding
  | txEnter : Phase (.txEnter []) .waiting
  | txBegin {block : ℕ} : Phase (.txBegin [] block) .owning
  | body {block : ℕ} : Phase (.running [block]) .owning
  | reentrant {block : ℕ} {call : GuardedCall τ} {stage : Stage} {id : ℕ} :
      Phase (.guarded [block] false call stage id) .owning
  | txCommit {block id : ℕ} : Phase (.txCommit [] block id) .owning
  | txRollback {block id : ℕ} : Phase (.txRollback [] block id) .owning

namespace Control.Phase

variable {control : Control τ} {phase : LockPhase}

/-- A task is inside a block exactly when it is the owner. -/
theorem owning_iff (h : control.Phase phase) : phase = .owning ↔ control.blocks ≠ [] := by
  cases h <;> simp [Control.blocks]

/-- Blocks are not nested. -/
theorem of_block {block : ℕ} {outer : List ℕ} (h : control.Phase phase)
    (hblocks : control.blocks = block :: outer) : outer = [] ∧ phase = .owning := by
  cases h <;> simp_all [Control.blocks]

/-- A task that waits for the lock is outside every block. -/
theorem of_waits (h : control.Phase phase) (hwaits : control.waits = true) :
    control.blocks = [] ∧ phase = .waiting := by
  cases h <;> simp_all [Control.blocks, Control.waits]

/-- A task that awaits an operation holds the lock. -/
theorem holds_of_awaits (h : control.Phase phase) (hawaits : control.awaits = true) :
    phase.Holds := by
  cases h <;> simp_all [Control.awaits, LockPhase.Holds]

/-- The task holds the lock in a section of its own. -/
theorem holding_iff (h : control.Phase phase) :
    phase = .holding ↔ ∃ call stage id, control = .guarded [] true call stage id := by
  cases h <;> simp

end Control.Phase

namespace Session

variable {s s' : Session ι τ} {phase : ι → LockPhase} {t u : ι}

/-- The lock and `_tx_owner` follow the protocol, with each task in the phase of its place. -/
structure Refines (s : Session ι τ) (phase : ι → LockPhase) : Prop where
  valid : LockProtocol.Valid ⟨s.lock, s.txOwner, phase⟩
  place : ∀ t, (s.control t).Phase (phase t)

theorem refines_init (image : τ) : Refines (init image : Session ι τ) fun _ => .idle where
  valid := LockProtocol.valid_init
  place := fun _ => .running

theorem Refines.inside_iff (h : s.Refines phase) : s.Inside t ↔ phase t = .owning :=
  (h.place t).owning_iff.symm

/-- The owner is the task inside a block. -/
theorem Refines.owner_iff (h : s.Refines phase) : s.txOwner = some t ↔ s.Inside t :=
  (h.valid.owner t).trans h.inside_iff.symm

variable [DecidableEq ι]

/-- What a step makes of the protocol. -/
def Follows (s s' : Session ι τ) (phase : ι → LockPhase) : Prop :=
  ∃ t phase', LockProtocol.Move t ⟨s.lock, s.txOwner, phase⟩ ⟨s'.lock, s'.txOwner, phase'⟩ ∧
    s'.Refines phase'

/-- A step that makes a move of the protocol and takes its task to another place. -/
theorem Refines.move {phase' : LockPhase} {control : Control τ} (h : s.Refines phase)
    (hmove : LockProtocol.Move t ⟨s.lock, s.txOwner, phase⟩
      ⟨s'.lock, s'.txOwner, Function.update phase t phase'⟩)
    (hcontrol : s'.control = Function.update s.control t control)
    (hplace : control.Phase phase') : Follows s s' phase := by
  refine ⟨t, _, hmove, hmove.valid h.valid, fun u => ?_⟩
  rw [hcontrol]
  by_cases hu : u = t
  · simpa [hu] using hplace
  · simpa [hu] using h.place u

/-- A step that takes its task to another place in the same phase. -/
theorem Refines.stay {control : Control τ} (h : s.Refines phase) (hlock : s'.lock = s.lock)
    (howner : s'.txOwner = s.txOwner) (hcontrol : s'.control = Function.update s.control t control)
    (hplace : control.Phase (phase t)) : Follows s s' phase := by
  have hmove : LockProtocol.Move t ⟨s.lock, s.txOwner, phase⟩
      ⟨s'.lock, s'.txOwner, Function.update phase t (phase t)⟩ := by
    rw [hlock, howner, Function.update_eq_self]
    exact .stay
  exact h.move hmove hcontrol hplace

/-- `Refines.stay` for a step of the worker, which moves no task. -/
theorem Refines.work (h : s.Refines phase) {entry : Entry ι τ} {queue : List (Entry ι τ)}
    {fault : Option PyExc} : Follows s (s.work entry queue fault) phase :=
  ⟨entry.task, phase, .stay, h.valid, h.place⟩

/-- A call of `_guarded`: outside a block it takes the lock or waits for it, inside it goes on. -/
theorem Refines.enterGuarded (h : s.Refines phase) {blocks : List ℕ} {call : GuardedCall τ}
    (hcontrol : s.control t = .running blocks) :
    Follows s (s.enterGuarded t blocks call) phase := by
  have hplace := h.place t
  have howner : s.txOwner = some t ↔ (s.control t).blocks ≠ [] := h.owner_iff
  rw [hcontrol] at hplace howner
  rw [Session.enterGuarded]
  -- a running task is outside of every block, or in its own one
  generalize hphase : phase t = place at hplace
  cases hplace with
  | running =>
      rw [if_neg (by simp [howner, Control.blocks])]
      split
      · rename_i hfree
        exact h.move (.acquire (Or.inl rfl) hphase hfree) rfl .guarded
      · rename_i hbusy
        exact h.move (.enqueue hphase (Bool.eq_false_iff.mpr hbusy)) rfl .guardWait
  | body =>
      rw [if_pos (by simp [howner, Control.blocks])]
      exact h.stay rfl rfl rfl (hphase ▸ .reentrant)

/-- A section of `_guarded` continues, or is left with the lock given back. -/
theorem Refines.resumeGuarded (h : s.Refines phase) {blocks : List ℕ} {locked : Bool}
    {call : GuardedCall τ} {stage : Stage} {id : ℕ} {raised : Bool}
    (hcontrol : s.control t = .guarded blocks locked call stage id) :
    Follows s (s.resumeGuarded t blocks locked call stage raised) phase := by
  have hplace := h.place t
  rw [hcontrol] at hplace
  rw [Session.resumeGuarded]
  -- the section holds the lock, or runs in the block of its task
  generalize hphase : phase t = place at hplace
  cases hplace with
  | guarded =>
      split
      · exact h.stay rfl rfl rfl (hphase ▸ .guarded)
      · exact h.move (.release hphase) rfl .running
  | reentrant =>
      split
      · exact h.stay rfl rfl rfl (hphase ▸ .reentrant)
      · exact h.stay rfl rfl rfl (hphase ▸ .body)

/-- A task that is not the owner calls `transaction`: it takes the lock or waits for it. -/
theorem Refines.enterTransaction (h : s.Refines phase) {blocks : List ℕ}
    (hcontrol : s.control t = .running blocks) (hother : s.txOwner ≠ some t) :
    Follows s (s.enterTransaction t blocks) phase := by
  have hplace := h.place t
  have howner : s.txOwner = some t ↔ (s.control t).blocks ≠ [] := h.owner_iff
  rw [hcontrol] at hplace howner
  rw [Session.enterTransaction]
  generalize hphase : phase t = place at hplace
  cases hplace with
  | running =>
      split
      · rename_i hfree
        exact h.move (.acquire (Or.inr rfl) hphase hfree) rfl .txBegin
      · rename_i hbusy
        exact h.move (.enqueue hphase (Bool.eq_false_iff.mpr hbusy)) rfl .txEnter
  -- in its own block the task would be the owner
  | body => exact absurd (howner.mpr (by simp [Control.blocks])) hother

/-- A block is left: the connection and the lock are given up. -/
theorem Refines.leaveTransaction (h : s.Refines phase) (howning : phase t = .owning) :
    Follows s (s.leaveTransaction t []) phase :=
  h.move (.disown howning) rfl .running

end Session

open Session

variable [DecidableEq ι] {s s' : Session ι τ} {phase : ι → LockPhase}

/-- Every step makes one move of the protocol. -/
theorem SessionStep.refines {e : SessionEvent ι τ} (h : s.Refines phase)
    (hstep : SessionStep s e s') : Follows s s' phase := by
  cases hstep with
  | call hcontrol => exact h.enterGuarded hcontrol
  | @nested t => exact ⟨t, phase, .stay, h⟩
  | transaction hcontrol howner => exact h.enterTransaction hcontrol howner
  | @wakeGuarded t blocks _ hcontrol hwoken =>
      obtain ⟨hblocks, -⟩ := (h.place t).of_waits (by rw [hcontrol]; rfl)
      rw [hcontrol] at hblocks
      obtain rfl : blocks = [] := hblocks
      exact h.move (.resume (Or.inl rfl) hwoken) rfl .guarded
  | @wakeTransaction t blocks hcontrol hwoken =>
      obtain ⟨hblocks, -⟩ := (h.place t).of_waits (by rw [hcontrol]; rfl)
      rw [hcontrol] at hblocks
      obtain rfl : blocks = [] := hblocks
      exact h.move (.resume (Or.inr rfl) hwoken) rfl .txBegin
  -- a cancelled waiter stays queued until it runs again
  | @cancel t hwaiter =>
      have hmove : LockProtocol.Move t ⟨s.lock, s.txOwner, phase⟩
          ⟨s.lock.cancel t, s.txOwner, phase⟩ := .cancel
      exact ⟨t, phase, hmove, hmove.valid h.valid, h.place⟩
  | @abandon t status hwaits hwaiter hdone =>
      obtain ⟨hblocks, -⟩ := (h.place t).of_waits hwaits
      rw [hblocks]
      exact h.move (.abandon hwaiter) rfl .running
  | awaitGuarded hcontrol hawaited => exact h.resumeGuarded hcontrol
  | @awaitBegin t blocks block _ raised hcontrol hawaited =>
      obtain ⟨rfl, howning⟩ := (h.place t).of_block (by rw [hcontrol]; rfl)
      cases raised with
      | true => exact h.leaveTransaction howning
      | false => exact h.stay rfl rfl rfl (howning ▸ .body)
  | @leaveBody t blocks block raised hcontrol =>
      obtain ⟨rfl, howning⟩ := (h.place t).of_block (by rw [hcontrol]; rfl)
      cases raised with
      | true => exact h.stay rfl rfl rfl (howning ▸ .txRollback)
      | false => exact h.stay rfl rfl rfl (howning ▸ .txCommit)
  | @awaitCommit t blocks block _ _ raised hcontrol hawaited =>
      obtain ⟨rfl, howning⟩ := (h.place t).of_block (by rw [hcontrol]; rfl)
      cases raised with
      | true => exact h.stay rfl rfl rfl (howning ▸ .txRollback)
      | false => exact h.leaveTransaction howning
  | @awaitRollback t blocks block _ _ _ hcontrol hawaited =>
      obtain ⟨rfl, howning⟩ := (h.place t).of_block (by rw [hcontrol]; rfl)
      exact h.leaveTransaction howning
  | worker hqueue => exact h.work

/-- The operations that a step issues are awaited by the task that has issued them, and the other
tasks stay where they are. -/
def Session.Issues (s s' : Session ι τ) : Prop :=
  ∀ entry ∈ s'.queue, entry ∉ s.queue → (s'.control entry.task).awaits = true ∧
    ∀ u, u ≠ entry.task → s'.control u = s.control u

omit [DecidableEq ι] in
theorem Session.issues_none (hqueue : s'.queue ⊆ s.queue) : Issues s s' :=
  fun _ hnew hold => absurd (hqueue hnew) hold

theorem Session.issues_issue {t : ι} {blocks : List ℕ} {operation : Operation τ}
    {control : Control τ} (hqueue : s'.queue = (s.issue t blocks operation).queue)
    (hcontrol : s'.control = Function.update s.control t control)
    (hawaits : control.awaits = true) : Issues s s' := by
  intro entry hnew hold
  rw [hqueue] at hnew
  rcases List.mem_append.mp hnew with hmem | hmem
  · exact absurd hmem hold
  · -- the new operation is the one that the task awaits now
    obtain rfl := List.mem_singleton.mp hmem
    rw [hcontrol]
    exact ⟨by simpa using hawaits, fun u hu => Function.update_of_ne hu _ _⟩

theorem SessionStep.issues {e : SessionEvent ι τ} (hstep : SessionStep s e s') :
    s.Issues s' := by
  have hsame : s.queue ⊆ s.queue := List.Subset.refl _
  cases hstep with
  | call =>
      rw [enterGuarded]
      split
      · exact issues_issue rfl rfl rfl
      · split
        · exact issues_issue rfl rfl rfl
        · exact issues_none hsame
  | nested => exact issues_none hsame
  | transaction =>
      rw [enterTransaction]
      split
      · exact issues_issue rfl rfl rfl
      · exact issues_none hsame
  | wakeGuarded => exact issues_issue rfl rfl rfl
  | wakeTransaction => exact issues_issue rfl rfl rfl
  | cancel => exact issues_none hsame
  | abandon => exact issues_none hsame
  | awaitGuarded =>
      rw [resumeGuarded]
      split
      · exact issues_issue rfl rfl rfl
      · exact issues_none hsame
  | @awaitBegin _ _ _ _ raised =>
      cases raised with
      | true => exact issues_none hsame
      | false => exact issues_none hsame
  | @leaveBody _ _ _ raised =>
      cases raised with
      | true => exact issues_issue rfl rfl rfl
      | false => exact issues_issue rfl rfl rfl
  | @awaitCommit _ _ _ _ _ raised =>
      cases raised with
      | true => exact issues_issue rfl rfl rfl
      | false => exact issues_none hsame
  | awaitRollback => exact issues_none hsame
  | worker hqueue => exact issues_none (hqueue ▸ List.subset_cons_self _ _)

/-- What holds between the steps. -/
structure Session.Settled (s : Session ι τ) : Prop where
  /-- The owner of the connection is the task that is inside a block. -/
  owner : ∀ t, s.txOwner = some t ↔ s.Inside t
  alone : ∀ t u, s.Inside t → s.Inside u → t = u
  /-- A task inside a block is not queued for the lock. -/
  unqueued : ∀ t, s.Inside t → t ∉ s.lock.waiters.map Prod.fst
  /-- The holder of the lock is inside a block or in a section of `_guarded`. -/
  holder : ∀ t, s.lock.holder = some t ↔
    s.Inside t ∨ ∃ call stage id, s.control t = .guarded [] true call stage id
  /-- When nobody holds the lock, the first waiter is about to take it or to give up. -/
  progress : s.lock.holder = none → ∀ waiter, s.lock.waiters.head? = some waiter →
    (∃ s', SessionStep s (.task waiter.1 .wake) s' ∧ s'.lock.holder = some waiter.1) ∨
      ∃ s', SessionStep s (.task waiter.1 .abandon) s' ∧
        waiter.1 ∉ s'.lock.waiters.map Prod.fst

/-- A step does not interfere with the task that is inside a block. -/
structure Session.Excludes (s : Session ι τ) (e : SessionEvent ι τ) (s' : Session ι τ) : Prop where
  /-- While a task is inside its block, only that task issues operations. -/
  issued : ∀ entry ∈ s'.queue, entry ∉ s.queue → ∀ t, s.Inside t ∨ s'.Inside t → entry.task = t
  /-- The call of a task inside its block issues its operation without the lock. -/
  reentrant : ∀ t call, e = .task t (.call call) → s.Inside t →
    s'.lock = s.lock ∧
      s'.queue = s.queue ++ [⟨s.nextId, t, (s.control t).blocks.head?, call.first⟩]
  /-- A nested `transaction` raises without an effect. -/
  nested : ∀ t raised, e = .task t (.transaction raised) → s.Inside t →
    raised = some nestedTransaction ∧ s' = s
  /-- A task that has left its block owns neither the connection nor the lock. -/
  left : ∀ t, s.Inside t → ¬ s'.Inside t → s'.txOwner ≠ some t ∧ s'.lock.holder ≠ some t

/-- A task whose future is done can run again. -/
theorem Session.Refines.progress (h : s.Refines phase) (hfree : s.lock.holder = none)
    {waiter : ι × WaiterStatus} (hhead : s.lock.waiters.head? = some waiter) :
    (∃ s', SessionStep s (.task waiter.1 .wake) s' ∧ s'.lock.holder = some waiter.1) ∨
      ∃ s', SessionStep s (.task waiter.1 .abandon) s' ∧
        waiter.1 ∉ s'.lock.waiters.map Prod.fst := by
  have hmem : waiter ∈ s.lock.waiters := List.mem_of_head? hhead
  have hdone : waiter.2 ≠ .pending := h.valid.wakeful hfree waiter hhead
  have hplace := h.place waiter.1
  have hwaiting : phase waiter.1 = .waiting :=
    (h.valid.waiting waiter.1).mp (List.mem_map.mpr ⟨waiter, hmem, rfl⟩)
  rw [hwaiting] at hplace
  -- a waiter that was woken takes the lock, one that was cancelled gives up
  by_cases hwoken : waiter.2 = .woken
  · left
    have hwokenMem : (waiter.1, .woken) ∈ s.lock.waiters := hwoken ▸ hmem
    generalize hcontrol : s.control waiter.1 = control at hplace
    cases hplace with
    | guardWait => exact ⟨_, .wakeGuarded hcontrol hwokenMem, rfl⟩
    | txEnter => exact ⟨_, .wakeTransaction hcontrol hwokenMem, rfl⟩
  · right
    have hwaits : (s.control waiter.1).waits = true := by
      generalize s.control waiter.1 = control at hplace
      cases hplace <;> rfl
    exact ⟨_, .abandon hwaits hmem hdone, AsyncLock.not_mem_abandon _ _⟩

theorem Session.Refines.settled (h : s.Refines phase) : s.Settled where
  owner _ := h.owner_iff
  alone t u ht hu :=
    h.valid.eq_of_holds (Or.inr (h.inside_iff.mp ht)) (Or.inr (h.inside_iff.mp hu))
  unqueued t ht hqueued := by
    have hwaiting : phase t = .waiting := (h.valid.waiting t).mp hqueued
    rw [h.inside_iff.mp ht] at hwaiting
    cases hwaiting
  holder t := by
    refine (h.valid.holder t).trans ?_
    rw [LockPhase.Holds, or_comm, h.inside_iff]
    exact or_congr_right (h.place t).holding_iff
  progress hfree waiter hhead := h.progress hfree hhead

theorem SessionStep.excludes {e : SessionEvent ι τ} (h : s.Refines phase)
    (hstep : SessionStep s e s') : s.Excludes e s' := by
  -- only one task holds the lock, and who awaits an operation holds it
  obtain ⟨u, phase', hmove, h'⟩ := hstep.refines h
  refine ⟨?_, ?_, ?_, ?_⟩
  · intro entry hnew hold t hinside
    obtain ⟨hawaits, hothers⟩ := hstep.issues entry hnew hold
    have hholds : (phase' entry.task).Holds := (h'.place entry.task).holds_of_awaits hawaits
    by_contra hne
    -- another task stays in its block during the step
    have hinside' : s'.Inside t := by
      rcases hinside with hinside | hinside
      · rw [Inside, hothers t (Ne.symm hne)]
        exact hinside
      · exact hinside
    exact hne (h'.valid.eq_of_holds hholds (Or.inr (h'.inside_iff.mp hinside')))
  · rintro t call rfl hinside
    cases hstep with
    | call hcontrol =>
        rw [enterGuarded, if_pos (h.owner_iff.mpr hinside), hcontrol]
        exact ⟨rfl, rfl⟩
  · rintro t raised rfl hinside
    cases hstep with
    | nested => exact ⟨rfl, rfl⟩
    | transaction hcontrol howner => exact absurd (h.owner_iff.mpr hinside) howner
  · intro t hinside hleft
    refine ⟨fun howner => hleft (h'.owner_iff.mp howner), fun hholder => ?_⟩
    have hidle : phase' t = .idle := hmove.idle_of_left h.valid (h.inside_iff.mp hinside)
      fun howning => hleft (h'.inside_iff.mpr howning)
    have hholds : (phase' t).Holds := (h'.valid.holder t).mp hholder
    rw [hidle] at hholds
    rcases hholds with hphase | hphase <;> cases hphase

/-- Every state of a run follows the protocol. -/
theorem refines_of_trace {image : τ} {es : List (SessionEvent ι τ)}
    (h : Trace SessionStep (Session.init image) es s) : ∃ phase, s.Refines phase := by
  induction h with
  | nil => exact ⟨_, refines_init image⟩
  | snoc prior last ih =>
      obtain ⟨phase, hphase⟩ := ih
      obtain ⟨_, phase', -, h'⟩ := last.refines hphase
      exact ⟨phase', h'⟩

/-- While a task is inside its transaction block, the other tasks are excluded from the connection,
the task never waits for the lock, and a nested `transaction` has no effect; and a block that is
left has given up the connection and the lock. -/
theorem transaction_excludes {image : τ} {es : List (SessionEvent ι τ)}
    (h : Trace SessionStep (Session.init image) es s) :
    s.Settled ∧ Trace.EveryStep SessionStep (Session.init image) es Excludes := by
  obtain ⟨phase, hphase⟩ := refines_of_trace h
  refine ⟨hphase.settled, fun k e s₁ s₂ _ hs₁ hstep => ?_⟩
  obtain ⟨phase₁, hphase₁⟩ := refines_of_trace hs₁
  exact hstep.excludes hphase₁

/-- A task calls `transaction` in its own block, while another task waits to read. -/
theorem transaction_excludes_reader :
    ∃ s : Session Bool ℕ, (s.Inside true ∧ s.lock.waiters = [(false, .pending)]) ∧ s.Settled ∧
      Trace.EveryStep SessionStep (Session.init 0)
        [.task true (.transaction none), .task false (.call (.fetchone .read)), .worker none,
          .task true (.await .result), .task true (.transaction (some nestedTransaction))]
        Excludes := by
  have hentered := Trace.nil.snoc
    (@SessionStep.transaction Bool ℕ _ (Session.init 0) true [] rfl (by simp [Session.init]))
  have hwaiting := hentered.snoc (@SessionStep.call _ _ _ _ false [] (.fetchone .read) rfl)
  have hbegun := hwaiting.snoc (@SessionStep.worker _ _ _ _ ⟨0, true, some 0, .begin⟩ [] none rfl)
  have hbody := hbegun.snoc (@SessionStep.awaitBegin _ _ _ _ true [] 0 .result false rfl rfl)
  have hnested := hbody.snoc (@SessionStep.nested _ _ _ _ true [0] rfl rfl)
  refine ⟨_, ⟨?_, ?_⟩, transaction_excludes hnested⟩
  · exact List.cons_ne_nil 0 []
  · rfl

end BybitMonitor
