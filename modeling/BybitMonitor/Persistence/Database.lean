import Mathlib
import BybitMonitor.Persistence.Repository
import BybitMonitor.ToMathlib.AsyncLock
import BybitMonitor.ToMathlib.Trace

/-!
# Tasks on one database

The tasks that share the one connection of `app/persistence/database.py`, each running any program
of statements and transaction blocks. A task hands its operations to the worker thread of the
connection and awaits their results; the worker runs them in the order in which they were issued,
also when the task that awaits them has been cancelled.

* `Control`: the places at which a task awaits.
* `Session`: the lock, `_tx_owner`, the tasks, the queue of the worker and the connection.
* `SessionStep`: what a task does from one await to the next, and what the worker does.
-/

namespace BybitMonitor

/-- An operation that is handed to the worker thread. -/
inductive Operation (τ : Type)
  | begin
  /-- A statement that writes. -/
  | write (f : τ → Except PyExc τ)
  /-- A statement that reads, or an operation on its cursor. -/
  | read
  | commit
  | rollback

/-- Run an operation, or let it raise. A rollback that raises has rolled back. -/
def Operation.run {τ : Type} (fault : Option PyExc) : Operation τ → Db PyExc τ Unit
  | begin => Db.guarded fault (Db.begin .databaseError)
  | write f => Db.guarded fault (Db.statement fun image => (f image).map fun image' => ((), image'))
  | read => Db.guarded fault (pure ())
  | commit => Db.guarded fault Db.commit
  | rollback => do
      Db.rollback
      Db.lift (raiseIf fault)

/-- A call of a method of `Database` that runs in `_guarded`. -/
inductive GuardedCall (τ : Type)
  | execute (statement : Operation τ)
  | executemany (statement : Operation τ)
  | fetchone (statement : Operation τ)
  | fetchall (statement : Operation τ)
  | commit
  | rollback

/-- What a call awaits of the connection or of the cursor. -/
inductive Stage
  | execute
  | fetch
  | close
  deriving DecidableEq, Repr

/-- The operation that a call issues first. -/
def GuardedCall.first {τ : Type} : GuardedCall τ → Operation τ
  | execute statement => statement
  | executemany statement => statement
  | fetchone statement => statement
  | fetchall statement => statement
  | commit => .commit
  | rollback => .rollback

/-- What a call awaits next. The cursor is closed in a `finally`. -/
def GuardedCall.next {τ : Type} (raised : Bool) : GuardedCall τ → Stage → Option Stage
  | fetchone _, .execute => if raised then none else some .fetch
  | fetchall _, .execute => if raised then none else some .fetch
  | fetchone _, .fetch => some .close
  | fetchall _, .fetch => some .close
  | _, _ => none

/-- Where a task is. The transaction blocks that enclose this place are named by the numbers of
their `BEGIN`, the innermost first. -/
inductive Control (τ : Type)
  /-- In its own code. -/
  | running (blocks : List ℕ)
  /-- In `_guarded`, at `async with self._lock`. -/
  | guardWait (blocks : List ℕ) (call : GuardedCall τ)
  /-- In the body of `_guarded`, with the lock or as the owner, at the operation `id`. -/
  | guarded (blocks : List ℕ) (locked : Bool) (call : GuardedCall τ) (stage : Stage) (id : ℕ)
  /-- In `transaction`, at `await self._lock.acquire()`. -/
  | txEnter (blocks : List ℕ)
  /-- In `transaction`, at `BEGIN`. -/
  | txBegin (blocks : List ℕ) (block : ℕ)
  /-- In `transaction`, at `commit`. -/
  | txCommit (blocks : List ℕ) (block id : ℕ)
  /-- In `transaction`, at `rollback`. -/
  | txRollback (blocks : List ℕ) (block id : ℕ)

namespace Control

variable {τ : Type}

/-- The blocks that the task is in, from issuing `BEGIN` until it has left. -/
def blocks : Control τ → List ℕ
  | running blocks => blocks
  | guardWait blocks _ => blocks
  | guarded blocks _ _ _ _ => blocks
  | txEnter blocks => blocks
  | txBegin blocks block => block :: blocks
  | txCommit blocks block _ => block :: blocks
  | txRollback blocks block _ => block :: blocks

/-- Whether the task waits for the lock. -/
def waits : Control τ → Bool
  | guardWait _ _ => true
  | txEnter _ => true
  | _ => false

/-- Whether the task awaits an operation. -/
def awaits : Control τ → Bool
  | guarded _ _ _ _ _ => true
  | txBegin _ _ => true
  | txCommit _ _ _ => true
  | txRollback _ _ _ => true
  | _ => false

end Control

/-- An operation with its number, the task that has issued it, and the block it was issued in. -/
structure Entry (ι τ : Type) where
  id : ℕ
  task : ι
  block : Option ℕ
  operation : Operation τ

/-- The database with the tasks that use it. -/
structure Session (ι τ : Type) where
  lock : AsyncLock ι := {}
  txOwner : Option ι := none
  control : ι → Control τ := fun _ => .running []
  /-- The operations that the worker has yet to run. -/
  queue : List (Entry ι τ) := []
  /-- The operations that the worker has run, with their results. -/
  log : List (Entry ι τ × Except PyExc Unit) := []
  nextId : ℕ := 0
  conn : Connection τ

/-- How an `await` of a result ends: with the result, or with a cancellation. -/
inductive Resume
  | result
  | cancelled
  deriving DecidableEq, Repr

/-- The result of an operation, once it has been run. -/
def resultOf {ι τ : Type} (log : List (Entry ι τ × Except PyExc Unit)) (id : ℕ) :
    Option (Except PyExc Unit) :=
  (log.find? fun item => item.1.id = id).map Prod.snd

/-- Whether an awaited result is an exception. -/
def raises : Except PyExc Unit → Bool
  | .ok () => false
  | .error _ => true

namespace Session

variable {ι τ : Type}

/-- A database that no task has used yet. -/
def init (image : τ) : Session ι τ where
  conn := { committed := image }

/-- Whether the task is inside a transaction block. -/
def Inside (self : Session ι τ) (t : ι) : Prop := (self.control t).blocks ≠ []

/-- Whether an `await` of an operation raises when it ends so; it does not end with a result that
is not there. -/
def awaited (self : Session ι τ) (id : ℕ) : Resume → Option Bool
  | .result => (resultOf self.log id).map raises
  | .cancelled => some true

/-- Hand an operation to the worker. -/
def issue (self : Session ι τ) (t : ι) (blocks : List ℕ) (operation : Operation τ) :
    Session ι τ :=
  { self with
    queue := self.queue ++ [⟨self.nextId, t, blocks.head?, operation⟩]
    nextId := self.nextId + 1 }

variable [DecidableEq ι]

/-- A task is at another place. -/
def moveTo (self : Session ι τ) (t : ι) (control : Control τ) : Session ι τ :=
  { self with control := Function.update self.control t control }

/-- The body of `_guarded` begins. -/
def runGuarded (self : Session ι τ) (t : ι) (blocks : List ℕ) (locked : Bool)
    (call : GuardedCall τ) : Session ι τ :=
  (self.issue t blocks call.first).moveTo t (.guarded blocks locked call .execute self.nextId)

/-- A task calls `_guarded`. -/
def enterGuarded (self : Session ι τ) (t : ι) (blocks : List ℕ) (call : GuardedCall τ) :
    Session ι τ :=
  if self.txOwner = some t then self.runGuarded t blocks false call
  else if self.lock.isFree then
    { self with lock := self.lock.take t }.runGuarded t blocks true call
  else { self with lock := self.lock.enqueue t }.moveTo t (.guardWait blocks call)

/-- The body of `_guarded` continues after an `await`, or is left. -/
def resumeGuarded (self : Session ι τ) (t : ι) (blocks : List ℕ) (locked : Bool)
    (call : GuardedCall τ) (stage : Stage) (raised : Bool) : Session ι τ :=
  match call.next raised stage with
  | some stage' =>
      (self.issue t blocks .read).moveTo t (.guarded blocks locked call stage' self.nextId)
  | none =>
      { self with lock := if locked then self.lock.release else self.lock }.moveTo t
        (.running blocks)

/-- `transaction` with the lock. -/
def beginTransaction (self : Session ι τ) (t : ι) (blocks : List ℕ) : Session ι τ :=
  ({ self with txOwner := some t }.issue t (self.nextId :: blocks) .begin).moveTo t
    (.txBegin blocks self.nextId)

/-- A task that is not the owner calls `transaction`. -/
def enterTransaction (self : Session ι τ) (t : ι) (blocks : List ℕ) : Session ι τ :=
  if self.lock.isFree then { self with lock := self.lock.take t }.beginTransaction t blocks
  else { self with lock := self.lock.enqueue t }.moveTo t (.txEnter blocks)

/-- The body of the block has returned. -/
def commitTransaction (self : Session ι τ) (t : ι) (blocks : List ℕ) (block : ℕ) : Session ι τ :=
  (self.issue t (block :: blocks) .commit).moveTo t (.txCommit blocks block self.nextId)

/-- The body of the block or its `commit` has raised. -/
def rollbackTransaction (self : Session ι τ) (t : ι) (blocks : List ℕ) (block : ℕ) :
    Session ι τ :=
  (self.issue t (block :: blocks) .rollback).moveTo t (.txRollback blocks block self.nextId)

/-- The outer `finally` of `transaction`. -/
def leaveTransaction (self : Session ι τ) (t : ι) (blocks : List ℕ) : Session ι τ :=
  { self with txOwner := none, lock := self.lock.release }.moveTo t (.running blocks)

omit [DecidableEq ι] in
/-- The worker runs the first operation of the queue. -/
def work (self : Session ι τ) (entry : Entry ι τ) (queue : List (Entry ι τ))
    (fault : Option PyExc) : Session ι τ :=
  let outcome := (entry.operation.run fault).run self.conn
  { self with queue := queue, log := self.log ++ [(entry, outcome.1)], conn := outcome.2 }

end Session

/-- What a task does. -/
inductive TaskAction (τ : Type)
  /-- It calls a method that runs in `_guarded`. -/
  | call (call : GuardedCall τ)
  /-- It enters `transaction`, which may raise at once. -/
  | transaction (raised : Option PyExc)
  /-- It is woken with the lock. -/
  | wake
  /-- It is cancelled while it waits for the lock. -/
  | cancel
  /-- It runs again with a cancellation instead of the lock. -/
  | abandon
  /-- An operation that it awaits ends. -/
  | await (resume : Resume)
  /-- The body of its block returns or raises. -/
  | leaveBody (raised : Bool)

/-- A step of a task, or of the worker. -/
inductive SessionEvent (ι τ : Type)
  | task (t : ι) (action : TaskAction τ)
  | worker (fault : Option PyExc)

/-- What `transaction` raises in a block of its own task. -/
def nestedTransaction : PyExc := .runtimeError "nested transaction not supported"

/-- What the tasks and the worker may do. -/
inductive SessionStep {ι τ : Type} [DecidableEq ι] :
    Session ι τ → SessionEvent ι τ → Session ι τ → Prop
  | call {s : Session ι τ} {t : ι} {blocks : List ℕ} {call : GuardedCall τ}
      (hcontrol : s.control t = .running blocks) :
      SessionStep s (.task t (.call call)) (s.enterGuarded t blocks call)
  | nested {s : Session ι τ} {t : ι} {blocks : List ℕ}
      (hcontrol : s.control t = .running blocks) (howner : s.txOwner = some t) :
      SessionStep s (.task t (.transaction (some nestedTransaction))) s
  | transaction {s : Session ι τ} {t : ι} {blocks : List ℕ}
      (hcontrol : s.control t = .running blocks) (howner : s.txOwner ≠ some t) :
      SessionStep s (.task t (.transaction none)) (s.enterTransaction t blocks)
  | wakeGuarded {s : Session ι τ} {t : ι} {blocks : List ℕ} {call : GuardedCall τ}
      (hcontrol : s.control t = .guardWait blocks call) (hwoken : (t, .woken) ∈ s.lock.waiters) :
      SessionStep s (.task t .wake)
        ({ s with lock := s.lock.resume t }.runGuarded t blocks true call)
  | wakeTransaction {s : Session ι τ} {t : ι} {blocks : List ℕ}
      (hcontrol : s.control t = .txEnter blocks) (hwoken : (t, .woken) ∈ s.lock.waiters) :
      SessionStep s (.task t .wake) ({ s with lock := s.lock.resume t }.beginTransaction t blocks)
  | cancel {s : Session ι τ} {t : ι} (hwaiter : (t, .pending) ∈ s.lock.waiters) :
      SessionStep s (.task t .cancel) { s with lock := s.lock.cancel t }
  | abandon {s : Session ι τ} {t : ι} {status : WaiterStatus}
      (hwaits : (s.control t).waits = true) (hwaiter : (t, status) ∈ s.lock.waiters)
      (hdone : status ≠ .pending) :
      SessionStep s (.task t .abandon)
        ({ s with lock := s.lock.abandon t }.moveTo t (.running (s.control t).blocks))
  | awaitGuarded {s : Session ι τ} {t : ι} {blocks : List ℕ} {locked : Bool} {call : GuardedCall τ}
      {stage : Stage} {id : ℕ} {resume : Resume} {raised : Bool}
      (hcontrol : s.control t = .guarded blocks locked call stage id)
      (hawaited : s.awaited id resume = some raised) :
      SessionStep s (.task t (.await resume)) (s.resumeGuarded t blocks locked call stage raised)
  | awaitBegin {s : Session ι τ} {t : ι} {blocks : List ℕ} {block : ℕ} {resume : Resume}
      {raised : Bool} (hcontrol : s.control t = .txBegin blocks block)
      (hawaited : s.awaited block resume = some raised) :
      SessionStep s (.task t (.await resume))
        (if raised then s.leaveTransaction t blocks else s.moveTo t (.running (block :: blocks)))
  | leaveBody {s : Session ι τ} {t : ι} {blocks : List ℕ} {block : ℕ} {raised : Bool}
      (hcontrol : s.control t = .running (block :: blocks)) :
      SessionStep s (.task t (.leaveBody raised))
        (if raised then s.rollbackTransaction t blocks block
          else s.commitTransaction t blocks block)
  | awaitCommit {s : Session ι τ} {t : ι} {blocks : List ℕ} {block id : ℕ} {resume : Resume}
      {raised : Bool} (hcontrol : s.control t = .txCommit blocks block id)
      (hawaited : s.awaited id resume = some raised) :
      SessionStep s (.task t (.await resume))
        (if raised then s.rollbackTransaction t blocks block else s.leaveTransaction t blocks)
  | awaitRollback {s : Session ι τ} {t : ι} {blocks : List ℕ} {block id : ℕ} {resume : Resume}
      {raised : Bool} (hcontrol : s.control t = .txRollback blocks block id)
      (hawaited : s.awaited id resume = some raised) :
      SessionStep s (.task t (.await resume)) (s.leaveTransaction t blocks)
  | worker {s : Session ι τ} {entry : Entry ι τ} {queue : List (Entry ι τ)}
      {fault : Option PyExc} (hqueue : s.queue = entry :: queue) :
      SessionStep s (.worker fault) (s.work entry queue fault)

/-! ## Steps that are computed -/

section

variable {ι τ : Type} [DecidableEq ι]

/-- What an event makes of a session, if it can happen. -/
def Session.next (s : Session ι τ) : SessionEvent ι τ → Option (Session ι τ)
  | .task t (.call call) =>
      match s.control t with
      | .running blocks => some (s.enterGuarded t blocks call)
      | _ => none
  | .task t (.transaction none) =>
      match s.control t with
      | .running blocks =>
          if s.txOwner = some t then none else some (s.enterTransaction t blocks)
      | _ => none
  | .task t (.transaction (some exc)) =>
      match s.control t with
      | .running _ => if s.txOwner = some t ∧ exc = nestedTransaction then some s else none
      | _ => none
  | .task t .wake =>
      if (t, .woken) ∈ s.lock.waiters then
        match s.control t with
        | .guardWait blocks call =>
            some ({ s with lock := s.lock.resume t }.runGuarded t blocks true call)
        | .txEnter blocks => some ({ s with lock := s.lock.resume t }.beginTransaction t blocks)
        | _ => none
      else none
  | .task t .cancel =>
      if (t, .pending) ∈ s.lock.waiters then some { s with lock := s.lock.cancel t } else none
  | .task t .abandon =>
      if (s.control t).waits ∧ ∃ waiter ∈ s.lock.waiters, waiter.1 = t ∧ waiter.2 ≠ .pending then
        some ({ s with lock := s.lock.abandon t }.moveTo t (.running (s.control t).blocks))
      else none
  | .task t (.await resume) =>
      match s.control t with
      | .guarded blocks locked call stage id =>
          (s.awaited id resume).map (s.resumeGuarded t blocks locked call stage)
      | .txBegin blocks block => (s.awaited block resume).map fun raised =>
          if raised then s.leaveTransaction t blocks else s.moveTo t (.running (block :: blocks))
      | .txCommit blocks block id => (s.awaited id resume).map fun raised =>
          if raised then s.rollbackTransaction t blocks block else s.leaveTransaction t blocks
      | .txRollback blocks _ id => (s.awaited id resume).map fun _ => s.leaveTransaction t blocks
      | _ => none
  | .task t (.leaveBody raised) =>
      match s.control t with
      | .running (block :: blocks) =>
          some (if raised then s.rollbackTransaction t blocks block
            else s.commitTransaction t blocks block)
      | _ => none
  | .worker fault =>
      match s.queue with
      | entry :: queue => some (s.work entry queue fault)
      | [] => none

/-- The steps are what the events make of the sessions. -/
theorem SessionStep.next_eq {s s' : Session ι τ} {e : SessionEvent ι τ} (h : SessionStep s e s') :
    s.next e = some s' := by
  cases h with
  | abandon hwaits hwaiter hdone =>
      rw [Session.next, if_pos ⟨hwaits, _, hwaiter, rfl, hdone⟩]
  | _ => simp [Session.next, *]

/-- What an event makes of a session is a step. -/
theorem Session.step_of_next {s s' : Session ι τ} {e : SessionEvent ι τ} (h : s.next e = some s') :
    SessionStep s e s' := by
  unfold Session.next at h
  split at h
  · split at h
    · rename_i hcontrol
      cases h
      exact .call hcontrol
    · cases h
  · split at h
    · rename_i hcontrol
      split at h
      · cases h
      · cases h
        exact .transaction hcontrol ‹_›
    · cases h
  · split at h
    · rename_i hcontrol
      split at h
      · rename_i howner
        obtain ⟨howner, rfl⟩ := howner
        cases h
        exact .nested hcontrol howner
      · cases h
    · cases h
  · split at h
    · rename_i hwoken
      split at h
      · rename_i hcontrol
        cases h
        exact .wakeGuarded hcontrol hwoken
      · rename_i hcontrol
        cases h
        exact .wakeTransaction hcontrol hwoken
      · cases h
    · cases h
  · split at h
    · cases h
      exact .cancel ‹_›
    · cases h
  · split at h
    · rename_i hwaiting
      obtain ⟨hwaits, ⟨_, status⟩, hwaiter, rfl, hdone⟩ := hwaiting
      cases h
      exact .abandon hwaits hwaiter hdone
    · cases h
  · split at h
    · rename_i hcontrol
      obtain ⟨raised, hawaited, rfl⟩ := Option.map_eq_some_iff.mp h
      exact .awaitGuarded hcontrol hawaited
    · rename_i hcontrol
      obtain ⟨raised, hawaited, rfl⟩ := Option.map_eq_some_iff.mp h
      exact .awaitBegin hcontrol hawaited
    · rename_i hcontrol
      obtain ⟨raised, hawaited, rfl⟩ := Option.map_eq_some_iff.mp h
      exact .awaitCommit hcontrol hawaited
    · rename_i hcontrol
      obtain ⟨raised, hawaited, rfl⟩ := Option.map_eq_some_iff.mp h
      exact .awaitRollback hcontrol hawaited
    · cases h
  · split at h
    · rename_i hcontrol
      cases h
      exact .leaveBody hcontrol
    · cases h
  · split at h
    · rename_i hqueue
      cases h
      exact .worker hqueue
    · cases h
end

end BybitMonitor
