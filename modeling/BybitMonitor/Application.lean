import Mathlib
import BybitMonitor.Market.Listing

/-!
# The application

The alert service, the dispatcher worker and the calls of the listing tracker, on one database. Each
step answers one question of one coroutine, runs an alert cycle, begins a call or restarts the
application; a restart may come at any point and keeps what is committed.

* `AppStep`: one step.
* `Application.perform_step`: the executable form of a step.
-/

namespace BybitMonitor

/-- What the client and the worker keep in memory for the health monitor. -/
structure DeliveryHealth where
  lastSuccessAt : Option ℤ := none
  lastErrorAt : Option ℤ := none
  lastErrorType : Option String := none
  workerLastIterationAt : Option ℤ := none
  workerLastErrorAt : Option ℤ := none
  workerErrorCount : ℕ := 0
  consecutiveFailures : ℕ := 0
  deriving DecidableEq, Repr

/-- Remember a fact. -/
def DeliveryHealth.after (self : DeliveryHealth) : DeliveryFact → DeliveryHealth
  | .sendSucceeded time => { self with lastSuccessAt := some time }
  | .sendFailed time errorType =>
      { self with lastErrorAt := some time, lastErrorType := some errorType }
  | .loopFailed time =>
      { self with
        consecutiveFailures := self.consecutiveFailures + 1
        workerErrorCount := self.workerErrorCount + 1
        workerLastErrorAt := some time }
  | .loopCompleted time =>
      { self with consecutiveFailures := 0, workerLastIterationAt := some time }

/-- What the coroutines share. -/
structure World where
  store : Store := {}
  health : DeliveryHealth := {}
  stopping : Bool := false
  deriving DecidableEq, Repr

/-- The replies that the world may give, and the world after them. -/
def World.Serves (world : World) : (question : Await) → question.Reply → World → Prop
  | .clock, _, world' => world' = world
  | .note _, _, world' => world' = world
  | .post _, _, world' => world' = world
  | .remember fact, _, world' => world' = { world with health := world.health.after fact }
  | .sleep, _, world' => world' = world
  | .stopIsSet, stopping, world' => stopping = world.stopping ∧ world' = world
  | .wake, _, world' => world' = world
  | .store op, reply, world' =>
      ∃ faults store', (op.run faults).run ⟨world.store, none⟩ = (reply, ⟨store', none⟩) ∧
        world' = { world with store := store' }

/-- An operation of the database does what it is for, or raises and changes nothing. -/
theorem World.Serves.does {world world' : World} {op : StoreOp} {reply : Except PyExc op.Result}
    (h : world.Serves (.store op) reply world') :
    (∃ exc, reply = .error exc ∧ world' = world) ∨ ∃ result, reply = .ok result ∧
      op.Does world.store result world'.store ∧ world' = { world with store := world'.store } := by
  obtain ⟨faults, store', hrun, rfl⟩ := h
  rcases op.run_cases faults world.store with ⟨exc, herror⟩ | ⟨result, done, hdoes, hok⟩
  · obtain ⟨rfl, hconn⟩ := Prod.mk.inj (hrun.symm.trans herror)
    obtain rfl : store' = world.store := (Connection.mk.inj hconn).1
    exact Or.inl ⟨exc, rfl, rfl⟩
  · obtain ⟨rfl, hconn⟩ := Prod.mk.inj (hrun.symm.trans hok)
    obtain rfl : store' = done := (Connection.mk.inj hconn).1
    exact Or.inr ⟨result, rfl, hdoes, rfl⟩

/-- Only an operation of the database changes the tables. -/
theorem World.Serves.store_eq {world world' : World} {question : Await} {reply : question.Reply}
    (h : world.Serves question reply world') (hquestion : ∀ op, question ≠ .store op) :
    world'.store = world.store := by
  cases question with
  | store op => exact absurd rfl (hquestion op)
  | stopIsSet => exact congrArg World.store h.2
  | remember fact =>
      obtain rfl : world' = { world with health := world.health.after fact } := h
      rfl
  | clock => exact congrArg World.store h
  | note note => exact congrArg World.store h
  | post text => exact congrArg World.store h
  | sleep => exact congrArg World.store h
  | wake => exact congrArg World.store h

/-- The calls that the loops of the application and its start make. -/
inductive EntryPoint
  | handleRegistry (result : DiscoveryResult)
  | handleAnnouncements (announcements : List (List String))
  | reconcileUnsent
  | discoverOnce (fetched : Except PyExc (List Instrument))
  /-- A direct call of `AlertDispatcher.enqueue`. -/
  | enqueue (text tag : String) (dedupeKey originType originKey : Option String)

/-- The coroutine of a call, without what it returns. -/
def EntryPoint.coroutine (tracker : ListingTracker) : EntryPoint → Coroutine Unit
  | handleRegistry result => do let _ ← tracker.handleRegistry result
  | handleAnnouncements announcements => do let _ ← tracker.handleAnnouncements announcements
  | reconcileUnsent => do let _ ← tracker.reconcileUnsent
  | BybitMonitor.EntryPoint.discoverOnce fetched => do
      let _ ← BybitMonitor.discoverOnce tracker fetched
  | enqueue text tag dedupeKey originType originKey => do
      let _ ← AlertDispatcher.enqueue text tag dedupeKey originType originKey

/-- The application: the alert service, the shared world, the loop body of the worker that is in
progress, and the numbered calls in progress. -/
structure Application where
  service : AlertService
  world : World := {}
  worker : Option (Coroutine Unit) := none
  calls : List (ℕ × Coroutine Unit) := []
  begun : ℕ := 0

/-- A step of a run. -/
inductive AppEvent
  | restarted (config : AdmittedSettings)
  | cycled (call : Call) (reply : Reply)
  | began (number : ℕ) (entry : EntryPoint)
  | workerAsked (question : Await) (reply : question.Reply)
  | callAsked (number : ℕ) (question : Await) (reply : question.Reply)
  | callEnded (number : ℕ) (outcome : Except Raised Unit)
  | looped (outcome : Except Raised Unit)
  | stopRequested

namespace Application

variable (self : Application)

/-- The settings of the running process. -/
def config : AdmittedSettings := self.service.config

/-- The committed tables. -/
def store : Store := self.world.store

/-- The listing tracker of `Application`. -/
def tracker : ListingTracker := { config := self.config.toSettings }

/-- The application started with a database: the dispatcher runs, and no call has begun. -/
def start (config : AdmittedSettings) (store : Store) (begun : ℕ) : Application where
  service := AlertService.start config
  world := { store }
  worker := some (AlertDispatcher.loopBody config.toSettings)
  begun := begun

/-- The state of the alert service. -/
def serviceState : ServiceState := ⟨self.service, { committed := self.store.tables }⟩

/-- The state with other tables of the alert service. -/
def withService (s : ServiceState) : Application :=
  { self with
    service := s.service
    world := { self.world with store := { self.store with tables := s.tables } } }

end Application

/-- One step of the application. -/
inductive AppStep (s : Application) : AppEvent → Application → Prop
  /-- The process ends at any point, and another one starts. -/
  | restarted (config : AdmittedSettings) :
      AppStep s (.restarted config) (Application.start config s.store s.begun)
  | cycled {call : Call} {reply : Reply} {s₁ : ServiceState}
      (hcycle : ServiceStep s.serviceState (.process call, reply) s₁) :
      AppStep s (.cycled call reply) (s.withService s₁)
  | began (entry : EntryPoint) :
      AppStep s (.began (s.begun + 1) entry)
        { s with
          calls := s.calls ++ [(s.begun + 1, entry.coroutine s.tracker)]
          begun := s.begun + 1 }
  | workerAsked {question : Await} {next : question.Reply → Coroutine Unit}
      {reply : question.Reply} {world' : World}
      (hworker : s.worker = some (Program.ask question next))
      (hserves : s.world.Serves question reply world') :
      AppStep s (.workerAsked question reply)
        { s with world := world', worker := some (next reply) }
  | callAsked {number : ℕ} {before rest : List (ℕ × Coroutine Unit)} {question : Await}
      {next : question.Reply → Coroutine Unit} {reply : question.Reply} {world' : World}
      (hcalls : s.calls = before ++ (number, Program.ask question next) :: rest)
      (hserves : s.world.Serves question reply world') :
      AppStep s (.callAsked number question reply)
        { s with world := world', calls := before ++ (number, next reply) :: rest }
  | callEnded {number : ℕ} {before rest : List (ℕ × Coroutine Unit)} {outcome : Except Raised Unit}
      (hcalls : s.calls = before ++ (number, Program.done outcome) :: rest) :
      AppStep s (.callEnded number outcome) { s with calls := before ++ rest }
  /-- The loop of the worker begins again, unless the application stops or the body was
  cancelled. -/
  | looped {outcome : Except Raised Unit} (hworker : s.worker = some (Program.done outcome)) :
      AppStep s (.looped outcome)
        { s with
          worker :=
            if s.world.stopping || outcome.isOk = false then none
            else some (AlertDispatcher.loopBody s.config.toSettings) }
  | stopRequested : AppStep s .stopRequested { s with world := { s.world with stopping := true } }

/-- An item of a list is the one that is looked at or one of the others. -/
theorem mem_middle {α : Type} {before rest : List α} {a b : α} :
    a ∈ before ++ b :: rest ↔ a = b ∨ a ∈ before ++ rest :=
  List.perm_middle.mem_iff.trans List.mem_cons

/-! ## Execution -/

/-- The choices of the environment at one question. -/
structure Answer where
  now : ℤ := 0
  http : HttpReply := .httpError "ConnectError"
  faults : StoreFaults := {}

/-- The reply of the world under the choices. -/
def World.answer (world : World) (answer : Answer) : (question : Await) → question.Reply × World
  | .clock => (answer.now, world)
  | .note _ => ((), world)
  | .post _ => (answer.http, world)
  | .remember fact => ((), { world with health := world.health.after fact })
  | .sleep => ((), world)
  | .stopIsSet => (world.stopping, world)
  | .wake => ((), world)
  | .store op =>
      let result := (op.run answer.faults).run ⟨world.store, none⟩
      (result.1, { world with store := result.2.committed })

theorem World.answer_serves (world : World) (answer : Answer) (question : Await) :
    world.Serves question (world.answer answer question).1 (world.answer answer question).2 := by
  cases question with
  | stopIsSet => exact ⟨rfl, rfl⟩
  | store op =>
      -- no transaction is open before or after the operation
      obtain ⟨store', hrun⟩ : ∃ store', ((op.run answer.faults).run ⟨world.store, none⟩).2 =
          ⟨store', none⟩ := by
        rcases op.run_cases answer.faults world.store with ⟨exc, hrun⟩ | ⟨result, store', -, hrun⟩
        · exact ⟨_, congrArg Prod.snd hrun⟩
        · exact ⟨_, congrArg Prod.snd hrun⟩
      refine ⟨answer.faults, store', Prod.ext rfl hrun, ?_⟩
      show { world with store := ((op.run answer.faults).run ⟨world.store, none⟩).2.committed } = _
      rw [hrun]
  | _ => rfl

/-- A step, by what the environment does. -/
inductive AppInput
  | restart (config : AdmittedSettings)
  | cycle (call : Call)
  | begin (entry : EntryPoint)
  | worker (answer : Answer)
  | call (number : ℕ) (answer : Answer)
  | finish (number : ℕ)
  | loop
  | stop

/-- Execute one step, if it is possible. -/
def Application.perform (self : Application) : AppInput → Option (AppEvent × Application)
  | .restart config =>
      some (.restarted config, Application.start config self.store self.begun)
  | .cycle call =>
      let (reply, s) := self.serviceState.serve (.process call)
      some (.cycled call reply, self.withService s)
  | .begin entry =>
      some (.began (self.begun + 1) entry,
        { self with
          calls := self.calls ++ [(self.begun + 1, entry.coroutine self.tracker)]
          begun := self.begun + 1 })
  | .worker answer =>
      match self.worker with
      | some (Program.ask question next) =>
          let (reply, world) := self.world.answer answer question
          some (.workerAsked question reply, { self with world, worker := some (next reply) })
      | _ => none
  | .call number answer =>
      match self.calls.span (·.1 ≠ number) with
      | (before, (_, Program.ask question next) :: rest) =>
          let (reply, world) := self.world.answer answer question
          some (.callAsked number question reply,
            { self with world, calls := before ++ (number, next reply) :: rest })
      | _ => none
  | .finish number =>
      match self.calls.span (·.1 ≠ number) with
      | (before, (_, Program.done outcome) :: rest) =>
          some (.callEnded number outcome, { self with calls := before ++ rest })
      | _ => none
  | .loop =>
      match self.worker with
      | some (Program.done outcome) =>
          some (.looped outcome,
            { self with
              worker :=
                if self.world.stopping || outcome.isOk = false then none
                else some (AlertDispatcher.loopBody self.config.toSettings) })
      | _ => none
  | .stop => some (.stopRequested, { self with world := { self.world with stopping := true } })

/-- What is executed is a step. -/
theorem Application.perform_step {s s' : Application} {input : AppInput} {event : AppEvent}
    (h : s.perform input = some (event, s')) : AppStep s event s' := by
  have hsplit (number : ℕ) : s.calls =
      (s.calls.span (·.1 ≠ number)).1 ++ (s.calls.span (·.1 ≠ number)).2 := by
    rw [List.span_eq_takeWhile_dropWhile, List.takeWhile_append_dropWhile]
  have hhead (number : ℕ) {entry : ℕ × Coroutine Unit} {rest : List (ℕ × Coroutine Unit)}
      (hrest : (s.calls.span (·.1 ≠ number)).2 = entry :: rest) : entry.1 = number := by
    rw [List.span_eq_takeWhile_dropWhile] at hrest
    have hnot := List.head?_dropWhile_not (fun entry : ℕ × Coroutine Unit => entry.1 ≠ number)
      s.calls
    rw [show s.calls.dropWhile _ = _ from hrest] at hnot
    simpa using hnot
  cases input with
  | restart config =>
      obtain ⟨rfl, rfl⟩ := Prod.mk.inj (Option.some.inj h)
      exact .restarted config
  | cycle call =>
      obtain ⟨rfl, rfl⟩ := Prod.mk.inj (Option.some.inj h)
      exact .cycled rfl
  | begin entry =>
      obtain ⟨rfl, rfl⟩ := Prod.mk.inj (Option.some.inj h)
      exact .began entry
  | worker answer =>
      simp only [perform] at h
      split at h
      · rename_i question next hworker
        obtain ⟨rfl, rfl⟩ := Prod.mk.inj (Option.some.inj h)
        exact .workerAsked hworker (World.answer_serves _ _ _)
      · cases h
  | call number answer =>
      simp only [perform] at h
      split at h
      · rename_i before found question next rest hspan
        obtain ⟨rfl, rfl⟩ := Prod.mk.inj (Option.some.inj h)
        have hcalls := hsplit number
        obtain rfl : found = number := hhead number (congrArg Prod.snd hspan)
        rw [hspan] at hcalls
        exact .callAsked hcalls (World.answer_serves _ _ _)
      · cases h
  | finish number =>
      simp only [perform] at h
      split at h
      · rename_i before found outcome rest hspan
        obtain ⟨rfl, rfl⟩ := Prod.mk.inj (Option.some.inj h)
        have hcalls := hsplit number
        obtain rfl : found = number := hhead number (congrArg Prod.snd hspan)
        rw [hspan] at hcalls
        exact .callEnded hcalls
      · cases h
  | loop =>
      simp only [perform] at h
      split at h
      · rename_i outcome hworker
        obtain ⟨rfl, rfl⟩ := Prod.mk.inj (Option.some.inj h)
        exact .looped hworker
      · cases h
  | stop =>
      obtain ⟨rfl, rfl⟩ := Prod.mk.inj (Option.some.inj h)
      exact .stopRequested

/-- A run from an empty database. -/
def AppRun (config : AdmittedSettings) (events : List AppEvent) (s : Application) : Prop :=
  Trace AppStep (Application.start config {} 0) events s

/-- Execute steps from an empty database. -/
def performAll (config : AdmittedSettings) (inputs : List AppInput) : List AppEvent × Application :=
  Trace.exec Application.perform (Application.start config {} 0) [] inputs

theorem run_performAll (config : AdmittedSettings) (inputs : List AppInput) :
    AppRun config (performAll config inputs).1 (performAll config inputs).2 :=
  @Trace.exec_trace _ _ AppStep _ _ _ _ Application.perform
    (fun _ _ _ _ h => Application.perform_step h) inputs Trace.nil

end BybitMonitor
