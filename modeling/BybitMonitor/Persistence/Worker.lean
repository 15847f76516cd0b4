import Mathlib
import BybitMonitor.Persistence.Database

/-!
# What the worker makes of the connection

The worker runs the queued operations one after the other, and any of them may raise. The log of
what it has run tells which blocks have been committed, and which writes belong to which block.

* `Clean`: no transaction is open, and the committed image holds every write of the committed
  blocks and nothing else.
* `Dirty`: the transaction of a block is open with the writes of that block.
* `Settles`: what holds once the queue has been run, whatever raises.
-/

namespace BybitMonitor

variable {ι τ : Type}

/-- What the worker has run, with the results. -/
abbrev WorkLog (ι τ : Type) : Type := List (Entry ι τ × Except PyExc Unit)

/-- What a write makes of an image; one that raises leaves it alone. -/
def applyWrite (image : τ) (f : τ → Except PyExc τ) : τ := (f image).toOption.getD image

/-- Writes on top of an image. -/
def replay (image : τ) (writes : List (τ → Except PyExc τ)) : τ := writes.foldl applyWrite image

theorem replay_append (image : τ) (writes writes' : List (τ → Except PyExc τ)) :
    replay image (writes ++ writes') = replay (replay image writes) writes' :=
  List.foldl_append

theorem replay_write {image image' : τ} {f : τ → Except PyExc τ} (hf : f image = .ok image') :
    replay image [f] = image' := by
  simp [replay, applyWrite, hf, Except.toOption]

namespace WorkLog

/-- The writes of a block that have succeeded. -/
def writesOf (self : WorkLog ι τ) (block : ℕ) : List (τ → Except PyExc τ) :=
  self.filterMap fun item =>
    match item.1.operation, item.2 with
    | .write f, .ok () => if item.1.block = some block then some f else none
    | _, _ => none

/-- The blocks whose `commit` has succeeded, in this order. -/
def committedBlocks (self : WorkLog ι τ) : List ℕ :=
  self.filterMap fun item =>
    match item.1.operation, item.2 with
    | .commit, .ok () => item.1.block
    | _, _ => none

/-- All writes of the committed blocks. -/
def committedWrites (self : WorkLog ι τ) : List (τ → Except PyExc τ) :=
  self.committedBlocks.flatMap self.writesOf

/-- The numbers in the log are below `n`. -/
def Below (self : WorkLog ι τ) (n : ℕ) : Prop :=
  ∀ item ∈ self, item.1.id < n ∧ ∀ block ∈ item.1.block, block < n

variable {log : WorkLog ι τ} {item : Entry ι τ × Except PyExc Unit} {n : ℕ}

@[simp]
theorem writesOf_append (log log' : WorkLog ι τ) (block : ℕ) :
    writesOf (log ++ log') block = writesOf log block ++ writesOf log' block :=
  List.filterMap_append

@[simp]
theorem committedBlocks_append (log log' : WorkLog ι τ) :
    committedBlocks (log ++ log') = committedBlocks log ++ committedBlocks log' :=
  List.filterMap_append

/-- A block without a number below `n` has no writes in a log below `n`. -/
theorem Below.writesOf_eq_nil (h : Below log n) : log.writesOf n = [] := by
  refine List.filterMap_eq_nil_iff.mpr fun item hitem => ?_
  have hblock : item.1.block ≠ some n := fun hblock =>
    absurd ((h item hitem).2 n hblock) (lt_irrefl n)
  split
  · simp [hblock]
  · rfl

theorem Below.not_mem_committedBlocks (h : Below log n) : n ∉ log.committedBlocks := by
  intro hmem
  obtain ⟨item, hitem, hblock⟩ := List.mem_filterMap.mp hmem
  split at hblock
  · exact absurd ((h item hitem).2 n hblock) (lt_irrefl n)
  · cases hblock

/-- An item that commits nothing and writes in no committed block. -/
theorem committedWrites_append (hcommit : committedBlocks [item] = [])
    (hwrites : ∀ block ∈ log.committedBlocks, writesOf [item] block = []) :
    committedWrites (log ++ [item]) = log.committedWrites := by
  rw [committedWrites, committedWrites, committedBlocks_append, hcommit, List.append_nil]
  refine List.flatMap_congr fun block hblock => ?_
  rw [writesOf_append, hwrites block hblock, List.append_nil]

/-- The `commit` of a block adds its writes to the committed ones. -/
theorem committedWrites_commit {id block : ℕ} {task : ι} :
    committedWrites (log ++ [(Entry.mk id task (some block) .commit, .ok ())]) =
      log.committedWrites ++ log.writesOf block := by
  have hcommit : committedBlocks [(Entry.mk id task (some block) (.commit : Operation τ), .ok ())] =
      [block] := rfl
  have hwrites : writesOf (log ++ [(Entry.mk id task (some block) .commit, .ok ())]) =
      writesOf log := by
    funext other
    rw [writesOf_append]
    exact List.append_nil _
  rw [committedWrites, committedBlocks_append, hcommit, hwrites, List.flatMap_append,
    List.flatMap_singleton]
  rfl

/-- The result of a new operation is found in the log that it ends. -/
theorem Below.resultOf_append (h : Below log n) (hid : item.1.id = n) :
    resultOf (log ++ [item]) n = some item.2 := by
  have hold : log.find? (fun item => item.1.id = n) = none := by
    refine List.find?_eq_none.mpr fun old hmem => ?_
    have hlt := (h old hmem).1
    simp
    omega
  simp [resultOf, List.find?_append, hold, hid]

end WorkLog

/-- No transaction is open, and the committed blocks have been replayed on the first image. -/
def Clean (image : τ) (log : WorkLog ι τ) (conn : Connection τ) : Prop :=
  conn = ⟨replay image log.committedWrites, none⟩

/-- The transaction of a block is open, and its writes have been replayed on the committed image. -/
def Dirty (image : τ) (block : ℕ) (log : WorkLog ι τ) (conn : Connection τ) : Prop :=
  conn = ⟨replay image log.committedWrites,
    some (replay (replay image log.committedWrites) (log.writesOf block))⟩ ∧
  block ∉ log.committedBlocks

/-- What holds after the worker has run an operation. -/
def Entry.after (entry : Entry ι τ) (fault : Option PyExc)
    (post : WorkLog ι τ → Connection τ → Prop) (log : WorkLog ι τ) (conn : Connection τ) : Prop :=
  post (log ++ [(entry, ((entry.operation.run fault).run conn).1)])
    ((entry.operation.run fault).run conn).2

/-- What holds once the result of a `BEGIN` is known. -/
def AfterBegin (image : τ) (block : ℕ) (log : WorkLog ι τ) (conn : Connection τ) : Prop :=
  match resultOf log block with
  | some (.ok ()) => Dirty image block log conn
  | some (.error _) => Clean image log conn
  | none => False

/-- What holds once the result of the `commit` of a block is known. -/
def AfterCommit (image : τ) (block id : ℕ) (log : WorkLog ι τ) (conn : Connection τ) : Prop :=
  match resultOf log id with
  | some (.ok ()) => Clean image log conn
  | some (.error _) => Dirty image block log conn
  | none => False

/-- Whatever the result of the `commit`, the transaction is open with the block or closed. -/
theorem AfterCommit.dirty_or_clean {image : τ} {block id : ℕ} {log : WorkLog ι τ}
    {conn : Connection τ} (h : AfterCommit image block id log conn) :
    Dirty image block log conn ∨ Clean image log conn := by
  rw [AfterCommit] at h
  split at h
  · exact Or.inr h
  · exact Or.inl h
  · exact h.elim

/-- Whether a task should issue the operation by a call of its own: writes belong into a block, and
`commit` and `rollback` outside. -/
def Operation.proper (inside : Bool) : Operation τ → Bool
  | begin => false
  | write _ => inside
  | read => true
  | commit => !inside
  | rollback => !inside

section Run

variable {image : τ} {log : WorkLog ι τ} {conn : Connection τ}
  {item : Entry ι τ × Except PyExc Unit} {id block : ℕ} {task : ι} {fault : Option PyExc}

theorem Clean.append (h : Clean image log conn) (hcommit : WorkLog.committedBlocks [item] = [])
    (hwrites : ∀ block ∈ log.committedBlocks, WorkLog.writesOf [item] block = []) :
    Clean image (log ++ [item]) conn := by
  rw [Clean, WorkLog.committedWrites_append hcommit hwrites]
  exact h

theorem Dirty.append (h : Dirty image block log conn)
    (hcommit : WorkLog.committedBlocks [item] = [])
    (hwrites : ∀ block, WorkLog.writesOf [item] block = []) :
    Dirty image block (log ++ [item]) conn := by
  rw [Dirty, WorkLog.committedWrites_append hcommit fun block _ => hwrites block,
    WorkLog.writesOf_append, hwrites, List.append_nil, WorkLog.committedBlocks_append, hcommit,
    List.append_nil]
  exact h

/-- A call outside every block leaves no transaction open. -/
theorem Clean.run_outside {operation : Operation τ} (h : Clean image log conn)
    (hproper : operation.proper false = true) :
    (Entry.mk id task none operation).after fault (Clean image) log conn := by
  obtain rfl := h
  cases operation with
  | begin => cases hproper
  | write f => cases hproper
  | read => cases fault <;> exact Clean.append rfl rfl fun _ _ => rfl
  | commit => cases fault <;> exact Clean.append rfl rfl fun _ _ => rfl
  | rollback => cases fault <;> exact Clean.append rfl rfl fun _ _ => rfl

theorem Operation.run_write (f : τ → Except PyExc τ) (committed image : τ) :
    ((Operation.write f).run none).run ⟨committed, some image⟩ =
      match f image with
      | .ok image' => (.ok (), ⟨committed, some image'⟩)
      | .error exc => (.error exc, ⟨committed, some image⟩) := by
  cases hf : f image <;> simp [Operation.run, Db.guarded, Db.statement, Db.run, Connection.image,
    Except.map, hf]

/-- The writes of an uncommitted block are in no committed block. -/
theorem Dirty.committedWrites_write {f : τ → Except PyExc τ} {result : Except PyExc Unit}
    (huncommitted : block ∉ log.committedBlocks) :
    WorkLog.committedWrites (log ++ [(Entry.mk id task (some block) (.write f), result)]) =
      log.committedWrites := by
  refine WorkLog.committedWrites_append rfl fun other hother => ?_
  have hne : block ≠ other := fun heq => huncommitted (heq ▸ hother)
  cases result <;> simp [WorkLog.writesOf, hne]

/-- A call inside a block keeps its transaction open, and its write joins those of the block. -/
theorem Dirty.run_inside {operation : Operation τ} (h : Dirty image block log conn)
    (hproper : operation.proper true = true) :
    (Entry.mk id task (some block) operation).after fault (Dirty image block) log conn := by
  cases operation with
  | begin => cases hproper
  | commit => cases hproper
  | rollback => cases hproper
  | read => cases fault <;> exact h.append rfl fun _ => rfl
  | write f =>
      cases fault with
      | some exc => exact h.append rfl fun _ => rfl
      | none =>
          obtain ⟨rfl, huncommitted⟩ := h
          rw [Entry.after, Operation.run_write]
          cases hf : f (replay (replay image log.committedWrites) (log.writesOf block)) with
          | error exc => exact Dirty.append ⟨rfl, huncommitted⟩ rfl fun _ => rfl
          | ok written =>
              have hwrites : WorkLog.writesOf
                  [(Entry.mk id task (some block) (.write f), .ok ())] block = [f] := by
                simp [WorkLog.writesOf]
              have hcommit : WorkLog.committedBlocks
                  [(Entry.mk id task (some block) (.write f), .ok ())] = [] := rfl
              constructor
              · rw [Dirty.committedWrites_write huncommitted, WorkLog.writesOf_append, hwrites,
                  replay_append _ (log.writesOf block), replay_write hf]
              · rw [WorkLog.committedBlocks_append, hcommit, List.append_nil]
                exact huncommitted

/-- `BEGIN` succeeds unless it is made to raise. -/
theorem Clean.run_begin (h : Clean image log conn) (hlog : log.Below block) :
    (Entry.mk block task (some block) .begin).after fault (AfterBegin image block) log conn := by
  obtain rfl := h
  cases fault with
  | some exc =>
      rw [Entry.after, AfterBegin, hlog.resultOf_append rfl]
      exact Clean.append rfl rfl fun _ _ => rfl
  | none =>
      rw [Entry.after, AfterBegin, hlog.resultOf_append rfl]
      have hdirty : Dirty image block log
          ⟨replay image log.committedWrites, some (replay image log.committedWrites)⟩ := by
        refine ⟨?_, hlog.not_mem_committedBlocks⟩
        rw [hlog.writesOf_eq_nil]
        rfl
      exact hdirty.append rfl fun _ => rfl

/-- `commit` adds the writes of the block to the committed ones, unless it raises. -/
theorem Dirty.run_commit (h : Dirty image block log conn) (hlog : log.Below id) :
    (Entry.mk id task (some block) .commit).after fault (AfterCommit image block id) log conn := by
  cases fault with
  | some exc =>
      rw [Entry.after, AfterCommit, hlog.resultOf_append rfl]
      exact h.append rfl fun _ => rfl
  | none =>
      obtain ⟨rfl, huncommitted⟩ := h
      rw [Entry.after, AfterCommit, hlog.resultOf_append rfl]
      change Clean image (log ++ [(Entry.mk id task (some block) .commit, .ok ())]) _
      rw [Clean, WorkLog.committedWrites_commit, replay_append]
      rfl

/-- `rollback` discards what has not been committed. -/
theorem Dirty.run_rollback (h : Dirty image block log conn ∨ Clean image log conn) :
    (Entry.mk id task (some block) .rollback).after fault (Clean image) log conn := by
  have hcommitted : conn.committed = replay image log.committedWrites := by
    rcases h with ⟨rfl, -⟩ | rfl <;> rfl
  have hclean : Clean image log ⟨conn.committed, none⟩ := by rw [hcommitted]; rfl
  cases fault <;> exact hclean.append rfl fun _ _ => rfl

end Run

/-- What holds once the queue has been run. Every `BEGIN` in it is run with no transaction open. -/
def Settles (image : τ) (post : WorkLog ι τ → Connection τ → Prop) :
    List (Entry ι τ) → WorkLog ι τ → Connection τ → Prop
  | [], log, conn => post log conn
  | entry :: queue, log, conn =>
      (entry.operation = .begin → Clean image log conn) ∧
        ∀ fault, entry.after fault (Settles image post queue) log conn

namespace Settles

variable {image : τ} {post post' : WorkLog ι τ → Connection τ → Prop} {queue : List (Entry ι τ)}
  {log : WorkLog ι τ} {conn : Connection τ}

theorem mono (h : Settles image post queue log conn)
    (himp : ∀ run conn, run.map Prod.fst = queue → post (log ++ run) conn →
      post' (log ++ run) conn) : Settles image post' queue log conn := by
  induction queue generalizing log conn with
  | nil => simpa [Settles] using himp [] conn rfl (by simpa [Settles] using h)
  | cons entry queue ih =>
      refine ⟨h.1, fun fault => ih (h.2 fault) fun run conn hrun hpost => ?_⟩
      rw [List.append_assoc] at hpost ⊢
      exact himp _ conn (by simp [hrun]) hpost

theorem append {entry : Entry ι τ} :
    Settles image post (queue ++ [entry]) log conn ↔
      Settles image (fun log conn => (entry.operation = .begin → Clean image log conn) ∧
        ∀ fault, entry.after fault post log conn) queue log conn := by
  induction queue generalizing log conn with
  | nil => rfl
  | cons first queue ih =>
      refine and_congr_right fun _ => forall_congr' fun fault => ?_
      exact ih

end Settles

end BybitMonitor
