import Mathlib.Data.List.Nodup
import Mathlib.Logic.Function.Basic

/-!
# A lock with queued waiters and an owner

The lock of a cooperative scheduler: a task that finds it taken waits on a future, and the release
of the lock wakes the first waiter, which takes the lock when it runs again. A waiter may be
cancelled before or after it is woken. Some of the sections that the lock protects mark their task
as the owner, so that the task may enter them again without the lock.

* `LockProtocol.Move`: what a task may do, `LockProtocol.Valid`: what holds between the moves.
* `LockProtocol.Move.valid`: every move keeps it.
* `LockProtocol.Valid.eq_of_holds`: no two tasks hold the lock.
* `LockProtocol.Valid.progress`: if the lock is not held, the first waiter will run again.
-/

/-- The future that a waiter awaits. -/
inductive WaiterStatus
  | pending
  | woken
  | cancelled
  deriving DecidableEq, Repr

/-- A lock, with the task that has taken it. -/
structure AsyncLock (ι : Type*) where
  holder : Option ι := none
  waiters : List (ι × WaiterStatus) := []
  deriving DecidableEq, Repr

namespace AsyncLock

variable {ι : Type*}

/-- Wake the first waiter, unless its future is done. -/
def wakeUpFirst : List (ι × WaiterStatus) → List (ι × WaiterStatus)
  | (t, .pending) :: waiters => (t, .woken) :: waiters
  | waiters => waiters

/-- Whether the lock may be taken at once. -/
def isFree (self : AsyncLock ι) : Bool :=
  self.holder.isNone && self.waiters.all fun waiter => waiter.2 = .cancelled

/-- Take the lock. -/
def take (self : AsyncLock ι) (t : ι) : AsyncLock ι := { self with holder := some t }

/-- Wait for the lock. -/
def enqueue (self : AsyncLock ι) (t : ι) : AsyncLock ι :=
  { self with waiters := self.waiters ++ [(t, .pending)] }

/-- Give the lock back. -/
def release (self : AsyncLock ι) : AsyncLock ι where
  holder := none
  waiters := wakeUpFirst self.waiters

variable [DecidableEq ι]

/-- Cancel the future of a waiter that is not woken yet. -/
def cancel (self : AsyncLock ι) (t : ι) : AsyncLock ι :=
  { self with
    waiters := self.waiters.map fun waiter =>
      if waiter = (t, .pending) then (t, .cancelled) else waiter }

/-- A waiter runs again and takes the lock. -/
def resume (self : AsyncLock ι) (t : ι) : AsyncLock ι where
  holder := some t
  waiters := self.waiters.filter fun waiter => waiter.1 ≠ t

/-- A waiter runs again with a cancellation. -/
def abandon (self : AsyncLock ι) (t : ι) : AsyncLock ι :=
  let waiters := self.waiters.filter fun waiter => waiter.1 ≠ t
  { self with waiters := if self.holder.isNone then wakeUpFirst waiters else waiters }

omit [DecidableEq ι] in
theorem map_fst_wakeUpFirst (waiters : List (ι × WaiterStatus)) :
    (wakeUpFirst waiters).map Prod.fst = waiters.map Prod.fst := by
  cases waiters with
  | nil => rfl
  | cons waiter waiters =>
      obtain ⟨t, status⟩ := waiter
      cases status <;> rfl

omit [DecidableEq ι] in
theorem tail_wakeUpFirst (waiters : List (ι × WaiterStatus)) :
    (wakeUpFirst waiters).tail = waiters.tail := by
  cases waiters with
  | nil => rfl
  | cons waiter waiters =>
      obtain ⟨t, status⟩ := waiter
      cases status <;> rfl

omit [DecidableEq ι] in
theorem head_wakeUpFirst {waiters : List (ι × WaiterStatus)} {waiter : ι × WaiterStatus}
    (h : (wakeUpFirst waiters).head? = some waiter) : waiter.2 ≠ .pending := by
  cases waiters with
  | nil => cases h
  | cons first waiters =>
      obtain ⟨t, status⟩ := first
      cases status <;> (cases h; simp)

theorem map_fst_cancel (self : AsyncLock ι) (t : ι) :
    (self.cancel t).waiters.map Prod.fst = self.waiters.map Prod.fst := by
  rw [cancel, List.map_map]
  refine List.map_congr_left fun waiter _ => ?_
  dsimp only [Function.comp]
  split
  · rename_i heq
    rw [heq]
  · rfl

theorem map_fst_abandon (self : AsyncLock ι) (t : ι) :
    (self.abandon t).waiters.map Prod.fst =
      (self.waiters.filter fun waiter => waiter.1 ≠ t).map Prod.fst := by
  rw [abandon]
  dsimp only
  split
  · exact map_fst_wakeUpFirst _
  · rfl

/-- Taking a task off the waiters takes its key off. -/
theorem mem_filter_keys {waiters : List (ι × WaiterStatus)} {t u : ι} :
    u ∈ (waiters.filter fun waiter => waiter.1 ≠ t).map Prod.fst ↔
      u ∈ waiters.map Prod.fst ∧ u ≠ t := by
  simp only [List.mem_map, List.mem_filter, decide_eq_true_eq]
  constructor
  · rintro ⟨waiter, ⟨hmem, hne⟩, rfl⟩
    exact ⟨⟨waiter, hmem, rfl⟩, hne⟩
  · rintro ⟨⟨waiter, hmem, rfl⟩, hne⟩
    exact ⟨waiter, ⟨hmem, hne⟩, rfl⟩

/-- A task that gives up waits no more. -/
theorem not_mem_abandon (self : AsyncLock ι) (t : ι) :
    t ∉ (self.abandon t).waiters.map Prod.fst := by
  rw [map_fst_abandon, mem_filter_keys]
  exact fun h => h.2 rfl

end AsyncLock

/-- What a task does with the lock. -/
inductive LockPhase
  /-- It has nothing to do with the lock. -/
  | idle
  | waiting
  /-- It holds the lock, without being the owner. -/
  | holding
  /-- It holds the lock as the owner. -/
  | owning
  deriving DecidableEq, Repr

/-- Whether a task in this phase holds the lock. -/
def LockPhase.Holds (self : LockPhase) : Prop := self = holding ∨ self = owning

/-- The lock, its owner, and what the tasks do with it. -/
structure LockProtocol (ι : Type*) where
  lock : AsyncLock ι := {}
  owner : Option ι := none
  phase : ι → LockPhase := fun _ => .idle

namespace LockProtocol

variable {ι : Type*} {s s' : LockProtocol ι} {t u : ι}

/-- The owner after a task has got the lock for this phase. -/
def ownerOn (owner : Option ι) (t : ι) (phase : LockPhase) : Option ι :=
  if phase = .owning then some t else owner

/-- What a task may do. -/
inductive Move [DecidableEq ι] (t : ι) (s : LockProtocol ι) : LockProtocol ι → Prop
  /-- It finds the lock free and takes it. -/
  | acquire {phase : LockPhase} (hphase : phase.Holds) (hidle : s.phase t = .idle)
      (hfree : s.lock.isFree = true) :
      Move t s ⟨s.lock.take t, ownerOn s.owner t phase, Function.update s.phase t phase⟩
  /-- It finds the lock taken and waits. -/
  | enqueue (hidle : s.phase t = .idle) (hbusy : s.lock.isFree = false) :
      Move t s ⟨s.lock.enqueue t, s.owner, Function.update s.phase t .waiting⟩
  /-- It is cancelled while it waits. -/
  | cancel : Move t s ⟨s.lock.cancel t, s.owner, s.phase⟩
  /-- It is woken and takes the lock. -/
  | resume {phase : LockPhase} (hphase : phase.Holds) (hwoken : (t, .woken) ∈ s.lock.waiters) :
      Move t s ⟨s.lock.resume t, ownerOn s.owner t phase, Function.update s.phase t phase⟩
  /-- It runs again with a cancellation. -/
  | abandon {status : WaiterStatus} (hwaiter : (t, status) ∈ s.lock.waiters) :
      Move t s ⟨s.lock.abandon t, s.owner, Function.update s.phase t .idle⟩
  /-- It leaves a section without being the owner. -/
  | release (hholding : s.phase t = .holding) :
      Move t s ⟨s.lock.release, s.owner, Function.update s.phase t .idle⟩
  /-- It leaves a section as the owner. -/
  | disown (howning : s.phase t = .owning) :
      Move t s ⟨s.lock.release, none, Function.update s.phase t .idle⟩
  /-- It does nothing with the lock. -/
  | stay : Move t s s

/-- The lock is held by the task whose phase says so, and a waiter will run again as soon as it is
not held. -/
structure Valid (s : LockProtocol ι) : Prop where
  holder : ∀ t, s.lock.holder = some t ↔ (s.phase t).Holds
  owner : ∀ t, s.owner = some t ↔ s.phase t = .owning
  waiting : ∀ t, t ∈ s.lock.waiters.map Prod.fst ↔ s.phase t = .waiting
  nodup : (s.lock.waiters.map Prod.fst).Nodup
  woken_free : ∀ t, (t, .woken) ∈ s.lock.waiters → s.lock.holder = none
  woken_first : ∀ waiter ∈ s.lock.waiters.tail, waiter.2 ≠ .woken
  wakeful : s.lock.holder = none → ∀ waiter, s.lock.waiters.head? = some waiter →
    waiter.2 ≠ .pending

theorem valid_init : Valid ({} : LockProtocol ι) where
  holder := by simp [LockPhase.Holds]
  owner := by simp
  waiting := by simp
  nodup := List.nodup_nil
  woken_free := by simp
  woken_first := by simp
  wakeful := by simp

/-- No two tasks hold the lock. -/
theorem Valid.eq_of_holds (h : s.Valid) (ht : (s.phase t).Holds) (hu : (s.phase u).Holds) :
    t = u :=
  Option.some.inj (((h.holder t).mpr ht).symm.trans ((h.holder u).mpr hu))

/-- If the lock is not held, the first waiter is woken or cancelled, so that it will run again. -/
theorem Valid.progress (h : s.Valid) (hfree : s.lock.holder = none)
    (hwaiting : s.phase t = .waiting) :
    ∃ waiter, s.lock.waiters.head? = some waiter ∧ waiter.2 ≠ .pending := by
  cases hwaiters : s.lock.waiters with
  | nil =>
      have hmem := (h.waiting t).mpr hwaiting
      rw [hwaiters] at hmem
      cases hmem
  | cons waiter waiters => exact ⟨waiter, rfl, h.wakeful hfree waiter (by rw [hwaiters]; rfl)⟩

variable [DecidableEq ι]

/-- A task gets the lock that nobody holds; it is no waiter any more, and none is woken. -/
theorem Valid.grant (h : s.Valid) {phase : LockPhase} (hphase : phase.Holds)
    (hfree : s.lock.holder = none) {waiters : List (ι × WaiterStatus)}
    (hsub : waiters.Sublist s.lock.waiters)
    (hkeys : ∀ u, u ∈ waiters.map Prod.fst ↔ u ∈ s.lock.waiters.map Prod.fst ∧ u ≠ t)
    (hwoken : ∀ waiter ∈ waiters, waiter.2 ≠ .woken) :
    Valid ⟨⟨some t, waiters⟩, ownerOn s.owner t phase, Function.update s.phase t phase⟩ := by
  have hnobody (u : ι) : ¬ (s.phase u).Holds := by
    rw [← h.holder, hfree]
    simp
  refine ⟨?_, ?_, ?_, h.nodup.sublist (hsub.map _), ?_, ?_, ?_⟩
  · intro u
    by_cases hu : u = t
    · simp [hu, hphase]
    · simp [hu, hnobody, Ne.symm hu]
  · intro u
    have hunowned : s.owner ≠ some u := fun howner => hnobody u (Or.inr ((h.owner u).mp howner))
    by_cases hu : u = t
    · subst hu
      dsimp only
      rw [ownerOn, Function.update_self]
      split
      · rename_i howning
        simp [howning]
      · rename_i howning
        simp [howning, hunowned]
    · have hphaseU : s.phase u ≠ .owning := fun howning => hnobody u (Or.inr howning)
      dsimp only
      rw [ownerOn, Function.update_of_ne hu]
      split
      · simp [Ne.symm hu, hphaseU]
      · simp [hunowned, hphaseU]
  · intro u
    rw [hkeys, h.waiting]
    by_cases hu : u = t
    · subst hu
      rcases hphase with rfl | rfl <;> simp
    · simp [hu]
  · exact fun u hu => absurd rfl (hwoken _ hu)
  · exact fun waiter hwaiter => hwoken waiter (List.mem_of_mem_tail hwaiter)
  · intro hnone
    cases hnone

theorem Valid.acquire (h : s.Valid) {phase : LockPhase} (hphase : phase.Holds)
    (hidle : s.phase t = .idle) (hfree : s.lock.isFree = true) :
    Valid ⟨s.lock.take t, ownerOn s.owner t phase, Function.update s.phase t phase⟩ := by
  obtain ⟨hholder, hcancelled⟩ := Bool.and_eq_true_iff.mp hfree
  refine h.grant hphase (Option.isNone_iff_eq_none.mp hholder) (List.Sublist.refl _) ?_ ?_
  · intro u
    refine ⟨fun hu => ⟨hu, ?_⟩, fun hu => hu.1⟩
    rintro rfl
    rw [h.waiting, hidle] at hu
    cases hu
  · intro waiter hwaiter
    rw [of_decide_eq_true (List.all_eq_true.mp hcancelled waiter hwaiter)]
    simp

theorem Valid.resume (h : s.Valid) {phase : LockPhase} (hphase : phase.Holds)
    (hwoken : (t, .woken) ∈ s.lock.waiters) :
    Valid ⟨s.lock.resume t, ownerOn s.owner t phase, Function.update s.phase t phase⟩ := by
  refine h.grant hphase (h.woken_free t hwoken) List.filter_sublist
    (fun u => AsyncLock.mem_filter_keys) ?_
  -- the waiter that is woken is the first one, and the only one
  intro waiter hwaiter
  obtain ⟨hmem, hne⟩ := List.mem_filter.mp hwaiter
  have hfirst := h.woken_first
  cases hwaiters : s.lock.waiters with
  | nil =>
      rw [hwaiters] at hmem
      cases hmem
  | cons first waiters =>
      rw [hwaiters] at hmem hwoken hfirst
      rcases List.mem_cons.mp hmem with rfl | hmem
      · rcases List.mem_cons.mp hwoken with heq | hlater
        · simp [← heq] at hne
        · exact absurd rfl (hfirst _ hlater)
      · exact hfirst waiter hmem

theorem Valid.enqueue (h : s.Valid) (hidle : s.phase t = .idle) (hbusy : s.lock.isFree = false) :
    Valid ⟨s.lock.enqueue t, s.owner, Function.update s.phase t .waiting⟩ := by
  have hnew : t ∉ s.lock.waiters.map Prod.fst := by
    rw [h.waiting, hidle]
    simp
  refine ⟨?_, ?_, ?_, ?_, ?_, ?_, ?_⟩
  · intro u
    refine (h.holder u).trans ?_
    by_cases hu : u = t
    · simp [hu, hidle, LockPhase.Holds]
    · simp [hu]
  · intro u
    refine (h.owner u).trans ?_
    by_cases hu : u = t
    · simp [hu, hidle]
    · simp [hu]
  · intro u
    by_cases hu : u = t
    · simp [hu, AsyncLock.enqueue]
    · simpa [hu, AsyncLock.enqueue] using h.waiting u
  · simpa [AsyncLock.enqueue, List.nodup_append, h.nodup] using fun u status hmem => by
      rintro rfl
      exact hnew (List.mem_map.mpr ⟨_, hmem, rfl⟩)
  · intro u hu
    exact h.woken_free u (by simpa [AsyncLock.enqueue] using hu)
  · intro waiter hwaiter
    have hfirst := h.woken_first
    cases hwaiters : s.lock.waiters with
    | nil => simp [AsyncLock.enqueue, hwaiters] at hwaiter
    | cons first waiters =>
        rw [AsyncLock.enqueue, hwaiters] at hwaiter
        rw [hwaiters] at hfirst
        rcases List.mem_append.mp hwaiter with hold | hlast
        · exact hfirst waiter hold
        · simp [List.mem_singleton.mp hlast]
  · intro hfree waiter hhead
    have hwakeful := h.wakeful hfree
    cases hwaiters : s.lock.waiters with
    | nil =>
        -- a lock without waiters that nobody holds is free
        have hholder : s.lock.holder = none := hfree
        simp [AsyncLock.isFree, hholder, hwaiters] at hbusy
    | cons first waiters =>
        rw [AsyncLock.enqueue, hwaiters] at hhead
        rw [hwaiters] at hwakeful
        exact hwakeful waiter hhead

theorem Valid.cancel (h : s.Valid) : Valid ⟨s.lock.cancel t, s.owner, s.phase⟩ := by
  -- a future that is done stays as it is
  have hwoken {waiters : List (ι × WaiterStatus)} {waiter : ι × WaiterStatus}
      (hmem : waiter ∈ waiters.map fun waiter =>
        if waiter = (t, .pending) then (t, .cancelled) else waiter)
      (hstatus : waiter.2 = .woken) : waiter ∈ waiters := by
    obtain ⟨old, hold, rfl⟩ := List.mem_map.mp hmem
    split at hstatus
    · cases hstatus
    · rename_i hne
      rwa [if_neg hne]
  refine ⟨h.holder, h.owner, ?_, ?_, ?_, ?_, ?_⟩
  · intro u
    rw [AsyncLock.map_fst_cancel]
    exact h.waiting u
  · rw [AsyncLock.map_fst_cancel]
    exact h.nodup
  · exact fun u hu => h.woken_free u (hwoken hu rfl)
  · intro waiter hwaiter hstatus
    rw [AsyncLock.cancel, ← List.map_tail] at hwaiter
    exact h.woken_first waiter (hwoken hwaiter hstatus) hstatus
  · intro hfree waiter hhead
    rw [AsyncLock.cancel, List.head?_map] at hhead
    obtain ⟨old, hold, rfl⟩ := Option.map_eq_some_iff.mp hhead
    split
    · simp
    · exact h.wakeful hfree old hold

theorem Valid.abandon (h : s.Valid) {status : WaiterStatus}
    (hwaiter : (t, status) ∈ s.lock.waiters) :
    Valid ⟨s.lock.abandon t, s.owner, Function.update s.phase t .idle⟩ := by
  have hwaiting : s.phase t = .waiting := (h.waiting t).mp (List.mem_map.mpr ⟨_, hwaiter, rfl⟩)
  have hkeys : (s.lock.abandon t).waiters.map Prod.fst =
      (s.lock.waiters.filter fun waiter => waiter.1 ≠ t).map Prod.fst :=
    AsyncLock.map_fst_abandon _ _
  have htail : (s.lock.abandon t).waiters.tail =
      (s.lock.waiters.filter fun waiter => waiter.1 ≠ t).tail := by
    rw [AsyncLock.abandon]
    dsimp only
    split
    · exact AsyncLock.tail_wakeUpFirst _
    · rfl
  refine ⟨?_, ?_, ?_, ?_, ?_, ?_, ?_⟩
  · intro u
    refine (h.holder u).trans ?_
    by_cases hu : u = t
    · simp [hu, hwaiting, LockPhase.Holds]
    · simp [hu]
  · intro u
    refine (h.owner u).trans ?_
    by_cases hu : u = t
    · simp [hu, hwaiting]
    · simp [hu]
  · intro u
    rw [hkeys, AsyncLock.mem_filter_keys, h.waiting]
    by_cases hu : u = t
    · simp [hu]
    · simp [hu]
  · rw [hkeys]
    exact h.nodup.sublist (List.filter_sublist.map _)
  · intro u hu
    by_contra hheld
    have hfalse : s.lock.holder.isNone = false :=
      Bool.eq_false_iff.mpr fun hnone => hheld (Option.isNone_iff_eq_none.mp hnone)
    rw [AsyncLock.abandon, hfalse] at hu
    exact hheld (h.woken_free u (List.mem_filter.mp hu).1)
  · intro waiter hmem
    rw [htail] at hmem
    refine h.woken_first waiter ?_
    cases hwaiters : s.lock.waiters with
    | nil => simp [hwaiters] at hmem
    | cons first waiters =>
        rw [hwaiters, List.filter_cons] at hmem
        split at hmem
        · exact List.mem_of_mem_filter hmem
        · exact List.mem_of_mem_filter (List.mem_of_mem_tail hmem)
  · intro hfree waiter hhead
    have htrue : s.lock.holder.isNone = true := by
      rw [AsyncLock.abandon] at hfree
      simpa using hfree
    rw [AsyncLock.abandon, htrue] at hhead
    exact AsyncLock.head_wakeUpFirst hhead

/-- The holder leaves its section, and the owner is cleared if it is the owner. -/
theorem Valid.vacate (h : s.Valid) {owner : Option ι} (hholds : (s.phase t).Holds)
    (howner : ∀ u, owner = some u ↔ s.phase u = .owning ∧ u ≠ t) :
    Valid ⟨s.lock.release, owner, Function.update s.phase t .idle⟩ := by
  have hkeys : s.lock.release.waiters.map Prod.fst = s.lock.waiters.map Prod.fst :=
    AsyncLock.map_fst_wakeUpFirst _
  refine ⟨?_, ?_, ?_, ?_, fun _ _ => rfl, ?_, ?_⟩
  · intro u
    by_cases hu : u = t
    · simp [hu, AsyncLock.release, LockPhase.Holds]
    · have hother : ¬ (s.phase u).Holds := fun hu' => hu (h.eq_of_holds hu' hholds)
      simp [hu, AsyncLock.release, hother]
  · intro u
    rw [howner]
    by_cases hu : u = t
    · simp [hu]
    · simp [hu]
  · intro u
    rw [hkeys, h.waiting]
    by_cases hu : u = t
    · subst hu
      rcases hholds with hphase | hphase <;> simp [hphase]
    · simp [hu]
  · rw [hkeys]
    exact h.nodup
  · rw [AsyncLock.release, AsyncLock.tail_wakeUpFirst]
    exact h.woken_first
  · exact fun _ waiter hhead => AsyncLock.head_wakeUpFirst hhead

theorem Valid.release (h : s.Valid) (hholding : s.phase t = .holding) :
    Valid ⟨s.lock.release, s.owner, Function.update s.phase t .idle⟩ := by
  refine h.vacate (Or.inl hholding) fun u => ?_
  rw [h.owner]
  refine ⟨fun howning => ⟨howning, ?_⟩, fun howning => howning.1⟩
  rintro rfl
  rw [hholding] at howning
  cases howning

theorem Valid.disown (h : s.Valid) (howning : s.phase t = .owning) :
    Valid ⟨s.lock.release, none, Function.update s.phase t .idle⟩ := by
  refine h.vacate (Or.inr howning) fun u => ?_
  simp only [reduceCtorEq, false_iff, not_and, not_not]
  exact fun hu => h.eq_of_holds (Or.inr hu) (Or.inr howning)

/-- Every move keeps the protocol valid. -/
theorem Move.valid (hmove : Move t s s') (h : s.Valid) : s'.Valid := by
  cases hmove with
  | acquire hphase hidle hfree => exact h.acquire hphase hidle hfree
  | enqueue hidle hbusy => exact h.enqueue hidle hbusy
  | cancel => exact h.cancel
  | resume hphase hwoken => exact h.resume hphase hwoken
  | abandon hwaiter => exact h.abandon hwaiter
  | release hholding => exact h.release hholding
  | disown howning => exact h.disown howning
  | stay => exact h

/-- A task that stops being the owner has nothing to do with the lock any more. -/
theorem Move.idle_of_left (hmove : Move u s s') (h : s.Valid) (howning : s.phase t = .owning)
    (hleft : s'.phase t ≠ .owning) : s'.phase t = .idle := by
  cases hmove with
  | acquire hphase hidle hfree =>
      by_cases hu : t = u
      · subst hu
        rw [hidle] at howning
        cases howning
      · simp [hu, howning] at hleft
  | enqueue hidle hbusy =>
      by_cases hu : t = u
      · subst hu
        rw [hidle] at howning
        cases howning
      · simp [hu, howning] at hleft
  | cancel => exact absurd howning hleft
  | resume hphase hwoken =>
      have hwaiting := (h.waiting u).mp (List.mem_map.mpr ⟨_, hwoken, rfl⟩)
      by_cases hu : t = u
      · subst hu
        rw [hwaiting] at howning
        cases howning
      · simp [hu, howning] at hleft
  | abandon hwaiter =>
      by_cases hu : t = u
      · simp [hu]
      · simp [hu, howning] at hleft
  | release hholding =>
      by_cases hu : t = u
      · simp [hu]
      · simp [hu, howning] at hleft
  | disown howning' =>
      by_cases hu : t = u
      · simp [hu]
      · simp [hu, howning] at hleft
  | stay => exact absurd howning hleft

end LockProtocol
