import Mathlib
import BybitMonitor.Persistence.Ownership
import BybitMonitor.Persistence.Worker

/-!
# Transactions that are left open

`transaction` hands `BEGIN` to the worker outside of the `try` that rolls back. A task that is
cancelled while it awaits `BEGIN` leaves the block without a `ROLLBACK`, while the worker still runs
the `BEGIN`.

* `SessionStep.steady`: every other step keeps the queue such that running it settles what the
  place of the owner promises.
* `transaction_closed`: without such a cancellation no transaction is left open, every block is
  committed or discarded as a whole, and every `BEGIN` finds no transaction open.
* `begin_cancelled_leaves_open`: with one, the connection keeps the transaction open.
-/

namespace BybitMonitor

variable {ι τ : Type}

/-- What the place of the owner of the connection promises of it, once the queue has been run. -/
def Control.goal (image : τ) : Control τ → WorkLog ι τ → Connection τ → Prop
  | running (block :: _) => Dirty image block
  | guarded (block :: _) _ _ _ _ => Dirty image block
  | txBegin _ block => AfterBegin image block
  | txCommit _ block id => AfterCommit image block id
  | _ => Clean image

/-- A call that is issued where it should be. -/
def GuardedCall.proper (inside : Bool) (call : GuardedCall τ) : Bool := call.first.proper inside

/-- The blocks of a place are numbered below `n`, and it waits for no call that belongs into one. -/
structure Control.Placed (n : ℕ) (control : Control τ) : Prop where
  below : ∀ block ∈ control.blocks, block < n
  proper : ∀ blocks call, control = .guardWait blocks call → call.proper false = true

theorem Control.Placed.succ {n : ℕ} {control : Control τ} (h : control.Placed n) :
    control.Placed (n + 1) :=
  ⟨fun block hblock => Nat.lt_succ_of_lt (h.below block hblock), h.proper⟩

/-- A place in no more blocks, at which the task does not wait. -/
theorem Control.Placed.of_blocks {n : ℕ} {control control' : Control τ} (h : control.Placed n)
    (hblocks : control'.blocks ⊆ control.blocks) (hwaits : control'.waits = false) :
    control'.Placed n where
  below := fun block hblock => h.below block (hblocks hblock)
  proper := by
    rintro blocks call rfl
    cases hwaits

/-- A result that is known stays known. -/
theorem resultOf_append {log run : WorkLog ι τ} {id : ℕ} {result : Except PyExc Unit}
    (h : resultOf log id = some result) : resultOf (log ++ run) id = some result := by
  obtain ⟨item, hitem, rfl⟩ := Option.map_eq_some_iff.mp h
  rw [resultOf, List.find?_append, hitem]
  rfl

namespace Session

variable {s s' : Session ι τ} {phase : ι → LockPhase} {image : τ} {t : ι}

/-- What the connection will be once the queue has been run. -/
def goal (s : Session ι τ) (image : τ) : WorkLog ι τ → Connection τ → Prop :=
  match s.txOwner with
  | some t => (s.control t).goal image
  | none => Clean image

/-- The numbers are below the next one, and running the queue settles what is promised. -/
structure Steady (s : Session ι τ) (image : τ) : Prop where
  log : WorkLog.Below s.log s.nextId
  queue : ∀ entry ∈ s.queue, entry.id < s.nextId ∧ ∀ block ∈ entry.block, block < s.nextId
  placed : ∀ t, (s.control t).Placed s.nextId
  settles : Settles image (s.goal image) s.queue s.log s.conn

theorem goal_of_owner {control : Control τ} (howner : s.txOwner = some t)
    (hcontrol : s.control t = control) : s.goal image = control.goal image := by
  rw [goal, howner, ← hcontrol]

theorem goal_of_free (howner : s.txOwner = none) : s.goal image = Clean image := by
  rw [goal, howner]

theorem steady_init : Steady (init image : Session ι τ) image where
  log := by simp [init, WorkLog.Below]
  queue := by simp [init]
  placed t := ⟨by simp [init, Control.blocks], by simp [init]⟩
  settles := rfl

/-- What the log will be once the queue has been run. -/
theorem Steady.below (h : s.Steady image) {run : WorkLog ι τ} (hrun : run.map Prod.fst = s.queue) :
    WorkLog.Below (s.log ++ run) s.nextId := by
  intro item hitem
  -- the log grows by the entries of the queue
  rcases List.mem_append.mp hitem with hitem | hitem
  · exact h.log item hitem
  · exact h.queue item.1 (hrun ▸ List.mem_map.mpr ⟨item, hitem, rfl⟩)

variable [DecidableEq ι]

/-- A step that issues nothing. -/
theorem Steady.stay {control : Control τ} (h : s.Steady image) (hqueue : s'.queue = s.queue)
    (hlog : s'.log = s.log) (hconn : s'.conn = s.conn) (hnext : s'.nextId = s.nextId)
    (hcontrol : s'.control = Function.update s.control t control)
    (hplaced : control.Placed s.nextId)
    (hgoal : ∀ run conn, run.map Prod.fst = s.queue → s.goal image (s.log ++ run) conn →
      s'.goal image (s.log ++ run) conn) : s'.Steady image where
  log := hlog ▸ hnext ▸ h.log
  queue := hqueue ▸ hnext ▸ h.queue
  placed u := by
    rw [hcontrol, hnext]
    by_cases hu : u = t
    · simpa [hu] using hplaced
    · simpa [hu] using h.placed u
  -- the queue is the same, only the promise at its end is another
  settles := by
    rw [hqueue, hlog, hconn]
    exact h.settles.mono hgoal

/-- A step that issues an operation. -/
theorem Steady.issue {entry : Entry ι τ} {control : Control τ} (h : s.Steady image)
    (hqueue : s'.queue = s.queue ++ [entry]) (hlog : s'.log = s.log) (hconn : s'.conn = s.conn)
    (hnext : s'.nextId = s.nextId + 1) (hid : entry.id = s.nextId)
    (hblock : ∀ block ∈ entry.block, block ≤ s.nextId)
    (hcontrol : s'.control = Function.update s.control t control)
    (hplaced : control.Placed (s.nextId + 1))
    (hgoal : ∀ log conn, WorkLog.Below log s.nextId → s.goal image log conn →
      (entry.operation = .begin → Clean image log conn) ∧
        ∀ fault, entry.after fault (s'.goal image) log conn) : s'.Steady image where
  log := by
    rw [hlog, hnext]
    exact fun item hitem => ⟨Nat.lt_succ_of_lt (h.log item hitem).1, fun block hblock =>
      Nat.lt_succ_of_lt ((h.log item hitem).2 block hblock)⟩
  queue := by
    rw [hqueue, hnext]
    intro item hitem
    rcases List.mem_append.mp hitem with hitem | hitem
    · exact ⟨Nat.lt_succ_of_lt (h.queue item hitem).1, fun block hblock =>
        Nat.lt_succ_of_lt ((h.queue item hitem).2 block hblock)⟩
    · rw [List.mem_singleton.mp hitem]
      exact ⟨hid ▸ Nat.lt_succ_self _, fun block hmem => Nat.lt_succ_of_le (hblock block hmem)⟩
  placed u := by
    rw [hcontrol, hnext]
    by_cases hu : u = t
    · simpa [hu] using hplaced
    · simpa [hu] using (h.placed u).succ
  settles := by
    -- the new operation runs after the queue, when the promise so far holds
    rw [hqueue, hlog, hconn, Settles.append]
    exact h.settles.mono fun run conn hrun hpost => hgoal _ conn (h.below hrun) hpost

omit [DecidableEq ι] in
/-- A lock that nobody holds has no owner. -/
theorem Refines.owner_none (h : s.Refines phase) (hfree : s.lock.holder = none) :
    s.txOwner = none := by
  refine Option.eq_none_iff_forall_ne_some.mpr fun t howner => ?_
  have hholder := (h.valid.holder t).mpr (Or.inr ((h.valid.owner t).mp howner))
  rw [hfree] at hholder
  cases hholder

omit [DecidableEq ι] in
/-- While a section of `_guarded` holds the lock there is no owner. -/
theorem Refines.owner_none_of_holding (h : s.Refines phase) (hholding : phase t = .holding) :
    s.txOwner = none := by
  refine Option.eq_none_iff_forall_ne_some.mpr fun u howner => ?_
  have howning : phase u = .owning := (h.valid.owner u).mp howner
  obtain rfl := h.valid.eq_of_holds (Or.inl hholding) (Or.inr howning)
  rw [hholding] at howning
  cases howning

/-- The place of a task that is not the owner does not matter for what is promised. -/
theorem goal_congr {control : Control τ} (howner : s'.txOwner = s.txOwner)
    (hcontrol : s'.control = Function.update s.control t control) (hother : s.txOwner ≠ some t) :
    s'.goal image = s.goal image := by
  rw [goal, goal, howner, hcontrol]
  cases hs : s.txOwner with
  | none => rfl
  | some u =>
      have hu : u ≠ t := fun heq => hother (by rw [hs, heq])
      simp [hu]

/-- The conditions under which a step keeps the connection steady: statements that write are
executed inside a block, `commit` and `rollback` are called outside, and no task is cancelled while
it awaits a `BEGIN` that has not failed. -/
structure Keeps (s : Session ι τ) (e : SessionEvent ι τ) : Prop where
  proper : ∀ t call, e = .task t (.call call) →
    call.proper (decide ((s.control t).blocks ≠ [])) = true
  begins : ∀ t blocks block, e = .task t (.await .cancelled) →
    s.control t = .txBegin blocks block → ∃ exc, resultOf s.log block = some (.error exc)

/-- A section that holds the lock issues an operation. -/
theorem Steady.issue_outside (h : s.Steady image) {operation : Operation τ} {control : Control τ}
    (hqueue : s'.queue = s.queue ++ [⟨s.nextId, t, none, operation⟩]) (hlog : s'.log = s.log)
    (hconn : s'.conn = s.conn) (hnext : s'.nextId = s.nextId + 1)
    (hcontrol : s'.control = Function.update s.control t control)
    (hplaced : control.Placed (s.nextId + 1)) (howner : s.txOwner = none)
    (howner' : s'.txOwner = none) (hproper : operation.proper false = true) :
    s'.Steady image := by
  refine h.issue hqueue hlog hconn hnext rfl (by simp) hcontrol hplaced fun log conn _ hgoal => ?_
  rw [goal_of_free howner] at hgoal
  rw [goal_of_free howner']
  exact ⟨fun _ => hgoal, fun fault => hgoal.run_outside hproper⟩

/-- The owner issues an operation in its block. -/
theorem Steady.issue_inside (h : s.Steady image) {operation : Operation τ} {control : Control τ}
    {block : ℕ} (hqueue : s'.queue = s.queue ++ [⟨s.nextId, t, some block, operation⟩])
    (hlog : s'.log = s.log) (hconn : s'.conn = s.conn) (hnext : s'.nextId = s.nextId + 1)
    (hcontrol : s'.control = Function.update s.control t control)
    (hblocks : control.blocks ⊆ (s.control t).blocks) (hwaits : control.waits = false)
    (hblock : block ∈ (s.control t).blocks) (howner : s.txOwner = some t)
    (howner' : s'.txOwner = some t) (hbegin : operation ≠ .begin)
    (hgoal : ∀ log conn, WorkLog.Below log s.nextId → (s.control t).goal image log conn →
      ∀ fault, (Entry.mk s.nextId t (some block) operation).after fault (control.goal image) log
        conn) : s'.Steady image := by
  refine h.issue hqueue hlog hconn hnext rfl ?_ hcontrol
    ((h.placed t).of_blocks hblocks hwaits).succ fun log conn hlog hpost => ?_
  · rintro _ ⟨⟩
    exact Nat.le_of_lt ((h.placed t).below block hblock)
  · rw [goal_of_owner howner rfl] at hpost
    have hcontrol' : s'.control t = control := by rw [hcontrol, Function.update_self]
    rw [goal_of_owner howner' hcontrol']
    exact ⟨fun heq => absurd heq hbegin, hgoal log conn hlog hpost⟩

/-- A call of `_guarded`. -/
theorem Steady.enterGuarded (h : s.Steady image) (href : s.Refines phase) {blocks : List ℕ}
    {call : GuardedCall τ} (hcontrol : s.control t = .running blocks)
    (hproper : call.proper (decide (blocks ≠ [])) = true) :
    (s.enterGuarded t blocks call).Steady image := by
  have hinside : s.txOwner = some t ↔ (s.control t).blocks ≠ [] := href.owner_iff
  rw [hcontrol] at hinside
  rw [Session.enterGuarded]
  cases blocks with
  | nil =>
      -- outside a block the lock is taken, or waited for
      have hother : s.txOwner ≠ some t := by simp [hinside, Control.blocks]
      rw [if_neg hother]
      split
      · rename_i hfree
        have howner : s.txOwner = none :=
          href.owner_none (Option.isNone_iff_eq_none.mp (Bool.and_eq_true_iff.mp hfree).1)
        exact h.issue_outside rfl rfl rfl rfl rfl ⟨by simp [Control.blocks], by simp⟩ howner howner
          hproper
      · refine h.stay rfl rfl rfl rfl rfl ⟨by simp [Control.blocks], ?_⟩ fun run conn _ hgoal => ?_
        · rintro _ _ ⟨⟩
          exact hproper
        · rw [goal_congr _ rfl hother]
          exacts [hgoal, rfl]
  | cons block outer =>
      -- inside its own block a task does not take the lock again
      have howner : s.txOwner = some t := hinside.mpr (List.cons_ne_nil block outer)
      rw [if_pos howner]
      refine h.issue_inside rfl rfl rfl rfl rfl ?_ rfl ?_ howner howner ?_ ?_
      · rw [hcontrol]
        exact List.Subset.refl _
      · rw [hcontrol]
        exact List.mem_cons_self
      · intro hbegin
        rw [GuardedCall.proper, hbegin] at hproper
        cases hproper
      · intro log conn _ hgoal fault
        rw [hcontrol] at hgoal
        exact Dirty.run_inside hgoal hproper

/-- A step of the owner that issues nothing and keeps its block. -/
theorem Steady.stay_inside (h : s.Steady image) {control : Control τ}
    (hqueue : s'.queue = s.queue) (hlog : s'.log = s.log) (hconn : s'.conn = s.conn)
    (hnext : s'.nextId = s.nextId) (hcontrol : s'.control = Function.update s.control t control)
    (hblocks : control.blocks ⊆ (s.control t).blocks) (hwaits : control.waits = false)
    (howner : s.txOwner = some t) (howner' : s'.txOwner = some t)
    (hgoal : ∀ run conn, (s.control t).goal image (s.log ++ run) conn →
      control.goal image (s.log ++ run) conn) : s'.Steady image := by
  refine h.stay hqueue hlog hconn hnext hcontrol ((h.placed t).of_blocks hblocks hwaits)
    fun run conn _ hpost => ?_
  have hcontrol' : s'.control t = control := by rw [hcontrol, Function.update_self]
  rw [goal_of_owner howner rfl] at hpost
  rw [goal_of_owner howner' hcontrol']
  exact hgoal run conn hpost

/-- The owner leaves its block when the connection is bound to be clean. -/
theorem Steady.leaveTransaction (h : s.Steady image) (howner : s.txOwner = some t)
    (hgoal : ∀ run conn, (s.control t).goal image (s.log ++ run) conn →
      Clean image (s.log ++ run) conn) : (s.leaveTransaction t []).Steady image := by
  refine h.stay rfl rfl rfl rfl rfl ⟨by simp [Control.blocks], by simp⟩ fun run conn _ hpost => ?_
  rw [goal_of_owner howner rfl] at hpost
  rw [goal_of_free rfl]
  exact hgoal run conn hpost

/-- A section of `_guarded` continues after an `await`. -/
theorem Steady.resumeGuarded (h : s.Steady image) (href : s.Refines phase) {blocks : List ℕ}
    {locked : Bool} {call : GuardedCall τ} {stage : Stage} {id : ℕ} {raised : Bool}
    (hcontrol : s.control t = .guarded blocks locked call stage id) :
    (s.resumeGuarded t blocks locked call stage raised).Steady image := by
  have hplace := href.place t
  rw [hcontrol] at hplace
  rw [Session.resumeGuarded]
  generalize hphase : phase t = place at hplace
  cases hplace with
  | guarded =>
      -- the section holds the lock; it goes on with a second operation, or leaves
      have howner : s.txOwner = none := href.owner_none_of_holding hphase
      split
      · exact h.issue_outside rfl rfl rfl rfl rfl ⟨by simp [Control.blocks], by simp⟩ howner howner
          rfl
      · refine h.stay rfl rfl rfl rfl rfl ⟨by simp [Control.blocks], by simp⟩ fun _ _ _ hgoal => ?_
        rw [goal_of_free howner] at hgoal
        rw [goal_of_free]
        exacts [hgoal, howner]
  | @reentrant block =>
      -- the section is inside the block of its task
      have howner : s.txOwner = some t := (href.valid.owner t).mpr hphase
      split
      · refine h.issue_inside rfl rfl rfl rfl rfl ?_ rfl ?_ howner howner (by simp) ?_
        · rw [hcontrol]
          exact List.Subset.refl _
        · rw [hcontrol]
          exact List.mem_cons_self
        · intro log conn _ hgoal fault
          rw [hcontrol] at hgoal
          exact Dirty.run_inside hgoal rfl
      · refine h.stay_inside rfl rfl rfl rfl rfl ?_ rfl howner howner ?_
        · rw [hcontrol]
          exact List.Subset.refl _
        · rw [hcontrol]
          exact fun _ _ hgoal => hgoal

omit [DecidableEq ι] in
/-- The worker runs an operation. -/
theorem Steady.work (h : s.Steady image) {entry : Entry ι τ} {queue : List (Entry ι τ)}
    {fault : Option PyExc} (hqueue : s.queue = entry :: queue) :
    (s.work entry queue fault).Steady image where
  log := by
    intro item hitem
    rcases List.mem_append.mp hitem with hitem | hitem
    · exact h.log item hitem
    · rw [List.mem_singleton.mp hitem]
      exact h.queue entry (hqueue ▸ List.mem_cons_self)
  queue := fun item hitem => h.queue item (hqueue ▸ List.mem_cons_of_mem _ hitem)
  placed := h.placed
  settles := by
    have hsettles := h.settles
    rw [hqueue] at hsettles
    exact hsettles.2 fault

/-- `transaction` takes the lock and issues `BEGIN`. -/
theorem Steady.beginTransaction (h : s.Steady image) {lock : AsyncLock ι}
    (howner : s.txOwner = none) :
    ({ s with lock := lock }.beginTransaction t []).Steady image := by
  refine h.issue rfl rfl rfl rfl rfl ?_ rfl ⟨?_, by simp⟩ fun log conn hlog hgoal => ?_
  · rintro _ ⟨⟩
    exact le_rfl
  · rintro _ (_ | _)
    · exact Nat.lt_succ_self _
    · contradiction
  · rw [goal_of_free howner] at hgoal
    rw [goal_of_owner rfl (Function.update_self t _ _)]
    exact ⟨fun _ => hgoal, fun fault => hgoal.run_begin hlog⟩

end Session

open Session

variable [DecidableEq ι] {s s' : Session ι τ} {phase : ι → LockPhase} {image : τ}

omit [DecidableEq ι] in
/-- An `await` that ends with a result does so with a known one. -/
theorem Session.awaited_result {id : ℕ} {raised : Bool}
    (h : s.awaited id .result = some raised) :
    ∃ result, resultOf s.log id = some result ∧ raises result = raised :=
  Option.map_eq_some_iff.mp h

omit [DecidableEq ι] in
/-- An `await` that returns has the result of an operation that has succeeded. -/
theorem Session.awaited_returns {id : ℕ} {resume : Resume}
    (h : s.awaited id resume = some false) : resultOf s.log id = some (.ok ()) := by
  cases resume with
  | cancelled => cases h
  | result =>
      obtain ⟨result, hresult, hraises⟩ := awaited_result h
      cases result with
      | ok => exact hresult
      | error exc => cases hraises

/-- A step under the conditions keeps the connection steady. -/
theorem SessionStep.steady {e : SessionEvent ι τ} (hstep : SessionStep s e s')
    (href : s.Refines phase) (h : s.Steady image) (hkeeps : s.Keeps e) : s'.Steady image := by
  -- each step issues an operation, leaves the block, or changes nothing that is promised
  cases hstep with
  | @call t blocks call hcontrol =>
      refine h.enterGuarded href hcontrol ?_
      simpa [hcontrol, Control.blocks] using hkeeps.proper t call rfl
  | nested => exact h
  | @transaction t blocks hcontrol howner =>
      have hinside : s.txOwner = some t ↔ (s.control t).blocks ≠ [] := href.owner_iff
      -- a task that is not the owner is in no block
      obtain rfl : blocks = [] := by
        rw [hcontrol] at hinside
        simpa [howner, Control.blocks] using hinside
      rw [enterTransaction]
      split
      · rename_i hfree
        exact h.beginTransaction
          (href.owner_none (Option.isNone_iff_eq_none.mp (Bool.and_eq_true_iff.mp hfree).1))
      · refine h.stay rfl rfl rfl rfl rfl ⟨by simp [Control.blocks], by simp⟩
          fun run conn _ hgoal => ?_
        rw [goal_congr _ rfl howner]
        exacts [hgoal, rfl]
  | @wakeGuarded t blocks call hcontrol hwoken =>
      obtain ⟨hblocks, -⟩ := (href.place t).of_waits (by rw [hcontrol]; rfl)
      rw [hcontrol] at hblocks
      obtain rfl : blocks = [] := hblocks
      have howner : s.txOwner = none := href.owner_none (href.valid.woken_free t hwoken)
      exact h.issue_outside rfl rfl rfl rfl rfl ⟨by simp [Control.blocks], by simp⟩ howner howner
        ((h.placed t).proper _ _ hcontrol)
  | @wakeTransaction t blocks hcontrol hwoken =>
      obtain ⟨hblocks, -⟩ := (href.place t).of_waits (by rw [hcontrol]; rfl)
      rw [hcontrol] at hblocks
      obtain rfl : blocks = [] := hblocks
      exact h.beginTransaction (href.owner_none (href.valid.woken_free t hwoken))
  | @cancel t hwaiter =>
      exact h.stay rfl rfl rfl rfl (Function.update_eq_self t s.control).symm (h.placed t)
        fun _ _ _ hgoal => hgoal
  | @abandon t status hwaits hwaiter hdone =>
      -- a task that waits for the lock has nothing in the queue
      obtain ⟨hblocks, hwaiting⟩ := (href.place t).of_waits hwaits
      have hother : s.txOwner ≠ some t := fun howner => href.owner_iff.mp howner hblocks
      rw [hblocks]
      refine h.stay rfl rfl rfl rfl rfl ⟨by simp [Control.blocks], by simp⟩
        fun run conn _ hgoal => ?_
      rw [goal_congr _ rfl hother]
      exacts [hgoal, rfl]
  | awaitGuarded hcontrol hawaited => exact h.resumeGuarded href hcontrol
  | @awaitBegin t blocks block resume raised hcontrol hawaited =>
      obtain ⟨rfl, howning⟩ := (href.place t).of_block (by rw [hcontrol]; rfl)
      have howner : s.txOwner = some t := (href.valid.owner t).mpr howning
      cases raised with
      | false =>
          -- `BEGIN` has succeeded, so the block is open
          refine h.stay_inside rfl rfl rfl rfl rfl ?_ rfl howner howner ?_
          · rw [hcontrol]
            exact List.Subset.refl _
          · intro run conn hgoal
            rw [hcontrol] at hgoal
            have hresult : resultOf (s.log ++ run) block = some (.ok ()) :=
              resultOf_append (awaited_returns hawaited)
            change AfterBegin image block _ conn at hgoal
            rw [AfterBegin, hresult] at hgoal
            exact hgoal
      | true =>
          refine h.leaveTransaction howner fun run conn hgoal => ?_
          -- `BEGIN` has failed, and not only its `await`
          obtain ⟨exc, hexc⟩ : ∃ exc, resultOf s.log block = some (.error exc) := by
            cases resume with
            | cancelled => exact hkeeps.begins t _ block rfl hcontrol
            | result =>
                obtain ⟨result, hresult, hraises⟩ := awaited_result hawaited
                cases result with
                | ok => cases hraises
                | error exc => exact ⟨exc, hresult⟩
          rw [hcontrol] at hgoal
          change AfterBegin image block _ conn at hgoal
          rw [AfterBegin, resultOf_append hexc] at hgoal
          exact hgoal
  | @leaveBody t blocks block raised hcontrol =>
      obtain ⟨rfl, howning⟩ := (href.place t).of_block (by rw [hcontrol]; rfl)
      have howner : s.txOwner = some t := (href.valid.owner t).mpr howning
      have hblocks : [block] ⊆ (s.control t).blocks := by
        rw [hcontrol]
        exact List.Subset.refl _
      cases raised with
      | true =>
          refine h.issue_inside rfl rfl rfl rfl rfl hblocks rfl (hblocks List.mem_cons_self) howner
            howner (by simp) ?_
          rw [hcontrol]
          -- whether or not the rollback is made to raise, the transaction is gone
          exact fun log conn _ hgoal fault => Dirty.run_rollback (Or.inl hgoal)
      | false =>
          refine h.issue_inside rfl rfl rfl rfl rfl hblocks rfl (hblocks List.mem_cons_self) howner
            howner (by simp) ?_
          rw [hcontrol]
          exact fun log conn hlog hgoal fault => Dirty.run_commit hgoal hlog
  | @awaitCommit t blocks block id resume raised hcontrol hawaited =>
      obtain ⟨rfl, howning⟩ := (href.place t).of_block (by rw [hcontrol]; rfl)
      have howner : s.txOwner = some t := (href.valid.owner t).mpr howning
      have hblocks : [block] ⊆ (s.control t).blocks := by
        rw [hcontrol]
        exact List.Subset.refl _
      cases raised with
      | true =>
          refine h.issue_inside rfl rfl rfl rfl rfl hblocks rfl (hblocks List.mem_cons_self) howner
            howner (by simp) ?_
          rw [hcontrol]
          intro log conn _ hgoal fault
          -- the commit may have been made before its `await` was cancelled
          exact Dirty.run_rollback (AfterCommit.dirty_or_clean hgoal)
      | false =>
          refine h.leaveTransaction howner fun run conn hgoal => ?_
          rw [hcontrol] at hgoal
          change AfterCommit image block id _ conn at hgoal
          rw [AfterCommit, resultOf_append (awaited_returns hawaited)] at hgoal
          exact hgoal
  | @awaitRollback t blocks block id resume raised hcontrol hawaited =>
      obtain ⟨rfl, howning⟩ := (href.place t).of_block (by rw [hcontrol]; rfl)
      have howner : s.txOwner = some t := (href.valid.owner t).mpr howning
      refine h.leaveTransaction howner fun run conn hgoal => ?_
      rw [hcontrol] at hgoal
      exact hgoal
  | @worker entry queue fault hqueue => exact h.work hqueue

/-- Once every block has been left and the queue has been run, no transaction is open, and each
block has been committed or discarded as a whole. -/
def Session.Closed (s : Session ι τ) (image : τ) : Prop :=
  (∀ t, ¬ s.Inside t) → s.queue = [] → Clean image s.log s.conn

/-- A `BEGIN` that the worker runs finds no transaction open, so that it succeeds unless it is made
to raise. -/
def Session.BeginsClean (image : τ) (s : Session ι τ) (e : SessionEvent ι τ) (s' : Session ι τ) :
    Prop :=
  ∀ entry queue fault, s.queue = entry :: queue → entry.operation = .begin → e = .worker fault →
    Clean image s.log s.conn ∧ (fault = none → s'.log = s.log ++ [(entry, .ok ())])

omit [DecidableEq ι] in
theorem Session.Steady.closed (h : s.Steady image) (href : s.Refines phase) : s.Closed image := by
  intro houtside hqueue
  have howner : s.txOwner = none := Option.eq_none_iff_forall_ne_some.mpr fun t howner =>
    houtside t (href.owner_iff.mp howner)
  -- nothing is left to run, so what is promised holds
  have hsettles := h.settles
  rw [hqueue, goal_of_free howner] at hsettles
  exact hsettles

theorem SessionStep.beginsClean {e : SessionEvent ι τ} (hstep : SessionStep s e s')
    (h : s.Steady image) : s.BeginsClean image e s' := by
  rintro entry queue fault hqueue hbegin rfl
  have hsettles := h.settles
  rw [hqueue] at hsettles
  have hclean : Clean image s.log s.conn := hsettles.1 hbegin
  refine ⟨hclean, ?_⟩
  rintro rfl
  cases hstep with
  | worker hqueue' =>
      obtain ⟨rfl, rfl⟩ := List.cons.inj (hqueue'.symm.trans hqueue)
      rw [Session.work, hbegin, hclean]
      rfl

/-- Every state of a run whose steps keep the connection steady. -/
theorem steady_of_trace {es : List (SessionEvent ι τ)}
    (h : Trace SessionStep (Session.init image) es s)
    (hkeeps : Trace.EveryStep SessionStep (Session.init image) es fun s e _ => s.Keeps e) :
    s.Steady image := by
  induction h with
  | nil => exact steady_init
  | snoc prior last ih =>
      obtain ⟨hprior, hlast⟩ := hkeeps.of_append
      -- the state before is steady, and refines the lock
      obtain ⟨phase, hphase⟩ := refines_of_trace prior
      exact last.steady hphase (ih hprior) (hlast _ _ prior last)

/-- No transaction is left open by a run in which no task is cancelled while it awaits `BEGIN`. -/
theorem transaction_closed {es : List (SessionEvent ι τ)}
    (h : Trace SessionStep (Session.init image) es s)
    (hkeeps : Trace.EveryStep SessionStep (Session.init image) es fun s e _ => s.Keeps e) :
    s.Closed image ∧
      Trace.EveryStep SessionStep (Session.init image) es (Session.BeginsClean image) := by
  obtain ⟨phase, hphase⟩ := refines_of_trace h
  refine ⟨(steady_of_trace h hkeeps).closed hphase, fun k e s₁ s₂ hk hs₁ hstep => ?_⟩
  exact hstep.beginsClean (steady_of_trace hs₁ (hkeeps.take k))

/-- Execute events one after the other. -/
def Session.perform (s : Session ι τ) (es : List (SessionEvent ι τ)) :
    List (SessionEvent ι τ) × Session ι τ :=
  Trace.exec (fun s e => (s.next e).map fun s' => (e, s')) s [] es

theorem Session.trace_perform (s : Session ι τ) (es : List (SessionEvent ι τ)) :
    Trace SessionStep s (s.perform es).1 (s.perform es).2 := by
  refine Trace.exec_trace (fun s i e s' h => ?_) es Trace.nil
  obtain ⟨s'', hnext, heq⟩ := Option.map_eq_some_iff.mp h
  cases heq
  exact step_of_next hnext

/-- `Session.Keeps`, as a test. -/
def Session.keeps (s : Session ι τ) : SessionEvent ι τ → Bool
  | .task t (.call call) => call.proper (decide ((s.control t).blocks ≠ []))
  | .task t (.await .cancelled) =>
      match s.control t with
      | .txBegin _ block => (resultOf s.log block).any raises
      | _ => true
  | _ => true

omit [DecidableEq ι] in
theorem Session.keeps_of_test {e : SessionEvent ι τ} (h : s.keeps e = true) : s.Keeps e where
  proper := by
    rintro t call rfl
    exact h
  begins := by
    rintro t blocks block rfl hcontrol
    rw [keeps, hcontrol, Option.any_eq_true] at h
    obtain ⟨result, hresult, hraises⟩ := h
    cases result with
    | ok returned => cases hraises
    | error exc => exact ⟨exc, hresult⟩

/-- The events of an execution that passes the test keep the connection steady. -/
theorem Session.perform_keeps {es : List (SessionEvent ι τ)}
    (h : Trace.execAll (fun s e => (s.next e).map fun s' => (e, s')) Session.keeps s es = true) :
    Trace.EveryStep SessionStep s (s.perform es).1 fun s e _ => s.Keeps e := by
  have hnext (s : Session ι τ) (i e : SessionEvent ι τ) (s' : Session ι τ)
      (h : ((s.next i).map fun s' => (i, s')) = some (e, s')) : SessionStep s e s' := by
    obtain ⟨s'', hs'', heq⟩ := Option.map_eq_some_iff.mp h
    cases heq
    exact step_of_next hs''
  have hdet (s : Session ι τ) (e : SessionEvent ι τ) (s₁ s₂ : Session ι τ)
      (h₁ : SessionStep s e s₁) (h₂ : SessionStep s e s₂) : s₁ = s₂ :=
    Option.some.inj (h₁.next_eq.symm.trans h₂.next_eq)
  have htest (s : Session ι τ) (e : SessionEvent ι τ) (_ : Session ι τ)
      (h : s.keeps e = true) : s.Keeps e := keeps_of_test h
  exact Trace.exec_everyStep hnext hdet htest Trace.nil (fun k e s s' hk _ _ => nomatch hk) h

/-- Add to the number that is stored. -/
def addition (n : ℕ) : GuardedCall ℕ := .execute (.write fun image => .ok (image + n))

/-- A task writes in its block and is cancelled while it awaits the write, which the worker runs
nevertheless; another task has waited for the lock, and its block is committed. -/
def cancelledWrite : List (SessionEvent Bool ℕ) :=
  [.task true (.transaction none), .worker none, .task true (.await .result),
    .task true (.call (addition 1)), .task false (.transaction none),
    .task true (.await .cancelled), .worker none, .task true (.leaveBody true), .worker none,
    .task true (.await .result),
    .task false .wake, .worker none, .task false (.await .result),
    .task false (.call (addition 5)), .worker none, .task false (.await .result),
    .task false (.leaveBody false), .worker none, .task false (.await .result)]

/-- The cancelled write is discarded, and the other one is committed. -/
theorem transaction_closed_cancelledWrite :
    ((Session.init 0).perform cancelledWrite).1.length = cancelledWrite.length ∧
      ((Session.init 0).perform cancelledWrite).2.conn = ⟨5, none⟩ ∧
      ((Session.init 0).perform cancelledWrite).2.Closed 0 ∧
      Trace.EveryStep SessionStep (Session.init 0) ((Session.init 0).perform cancelledWrite).1
        (Session.BeginsClean 0) := by
  refine ⟨by decide +kernel, by decide +kernel, ?_⟩
  exact transaction_closed (Session.trace_perform _ _) (Session.perform_keeps (by decide +kernel))

/-- A task that is cancelled while it awaits `BEGIN` leaves the transaction open. -/
theorem begin_cancelled_leaves_open :
    ¬ ∀ (es : List (SessionEvent Bool ℕ)) (s : Session Bool ℕ),
      Trace SessionStep (Session.init 0) es s → s.Closed 0 ∧
        Trace.EveryStep SessionStep (Session.init 0) es (Session.BeginsClean 0) := by
  intro hclosed
  have hentered := Trace.nil.snoc
    (@SessionStep.transaction Bool ℕ _ (Session.init 0) true [] rfl (by simp [Session.init]))
  have hcancelled := hentered.snoc
    (@SessionStep.awaitBegin _ _ _ _ true [] 0 .cancelled true rfl rfl)
  have hbegun := hcancelled.snoc
    (@SessionStep.worker _ _ _ _ ⟨0, true, some 0, .begin⟩ [] none rfl)
  have hclean := (hclosed _ _ hbegun).1 ?_ rfl
  · exact Option.some_ne_none 0 (congrArg Connection.working hclean)
  · intro t hinside
    cases t with
    | true => exact hinside rfl
    | false => exact hinside rfl

end BybitMonitor
