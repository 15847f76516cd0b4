import Mathlib
import BybitMonitor.Alerts.Run
import BybitMonitor.Alerts.Service

/-!
# Runs of the alert service

A run interleaves calls of `AlertService.process`, enqueued listing notifications and restarts, from
an empty database; any database operation may be made to raise.

* `ServiceMove`: what one step does to the tables.
* `ServiceRun.invariant`: no transaction stays open, the stored row is well formed, and the outbox
  has increasing ids and unique keys.
* `ServiceRun.exists_run`: the stored row is that of a run of committed cycles.
-/

namespace BybitMonitor

/-- `listing_dedupe_key`. -/
def listingDedupeKey (eventKey : String) : String := "listing" ++ ":" ++ eventKey

/-- A listing notification, with the clock that stamps its row and the faults that it meets. -/
structure ListingNotice where
  eventKey : String
  text : String
  createdAt : ℤ
  faults : Faults := {}
  deriving DecidableEq, Repr

/-- `AlertDispatcher.enqueue`, as `Application._notify_listing` calls it. -/
def ListingNotice.enqueue (self : ListingNotice) : DbM ℕ :=
  Database.transaction self.faults.begin self.faults.commit
    (Repository.insertOutgoingNotification self.faults.insert "listing" self.text self.createdAt
      (some (listingDedupeKey self.eventKey)) (some "listing") (some self.eventKey))

/-- The steps of a run. -/
inductive Request
  | restart (config : AdmittedSettings)
  | process (call : Call)
  | enqueue (notice : ListingNotice)

/-- What a step returns or raises, and the row id that a call has handed to the dispatcher. -/
inductive Reply
  | restarted
  | processed (outcome : Except PyExc AlertDecision) (fed : Option ℕ)
  | enqueued (outcome : Except PyExc ℕ)

/-- A step of a run with its reply. -/
abbrev ServiceEvent := Request × Reply

/-- The service object and its connection. -/
structure ServiceState where
  service : AlertService
  connection : Connection Tables

namespace ServiceState

/-- A fresh service on an empty database. -/
def start (config : AdmittedSettings) : ServiceState where
  service := AlertService.start config
  connection := { committed := {} }

/-- The committed tables. -/
def tables (self : ServiceState) : Tables := self.connection.committed

/-- The state that the next cycle loads. -/
def stored (self : ServiceState) : AlertState := AlertStateRepository.load self.tables.alertState

/-- Execute one step. A restart keeps what is committed only. -/
def serve (self : ServiceState) : Request → Reply × ServiceState
  | .restart config =>
      (.restarted,
        { service := AlertService.start config, connection := { committed := self.tables } })
  | .process call =>
      let result := self.service.process call self.connection
      (.processed result.outcome result.fed, { self with connection := result.connection })
  | .enqueue notice =>
      let (outcome, connection) := notice.enqueue.run self.connection
      (.enqueued outcome, { self with connection })

end ServiceState

/-- One step of a run. -/
def ServiceStep (s : ServiceState) (event : ServiceEvent) (s' : ServiceState) : Prop :=
  s.serve event.1 = (event.2, s')

/-- A run from an empty database. -/
def ServiceRun (config : AdmittedSettings) (events : List ServiceEvent) (s : ServiceState) : Prop :=
  Trace ServiceStep (ServiceState.start config) events s

/-- What holds of the database after every run. -/
structure ServiceInvariant (s : ServiceState) : Prop where
  closed : s.connection.working = none
  wellFormed : s.stored.WellFormed
  wellKeyed : s.tables.WellKeyed

/-- The state with other tables. -/
def ServiceState.withTables (self : ServiceState) (tables : Tables) : ServiceState :=
  { self with connection := { committed := tables } }

@[simp]
theorem ServiceState.withTables_tables (s : ServiceState) (tables : Tables) :
    (s.withTables tables).tables = tables := rfl

/-- What one step does. -/
inductive ServiceMove (s : ServiceState) : ServiceEvent → ServiceState → Prop
  | restarted (config : AdmittedSettings) :
      ServiceMove s (.restart config, .restarted)
        { service := AlertService.start config, connection := { committed := s.tables } }
  | unplanned {call : Call} {exc : PyExc}
      (hplan : s.service.plan call s.tables.alertState = .error exc) :
      ServiceMove s (.process call, .processed (.error exc) none) s
  | rolledBack {call : Call} {decision : AlertDecision} {state : AlertState}
      {alert : Option OutgoingAlert} {exc : PyExc}
      (hplan : s.service.plan call s.tables.alertState = .ok (decision, state, alert))
      (hcause : ¬ state.Binds ∨ call.faults.Raises exc) :
      ServiceMove s (.process call, .processed (.error exc) none) s
  | suppressed {call : Call} {decision : AlertDecision} {state : AlertState}
      {alert : Option OutgoingAlert}
      (hplan : s.service.plan call s.tables.alertState = .ok (decision, state, alert))
      (hcause : call.faults.Raises .integrityError ∨
        ∃ a ∈ alert, a.key ∈ s.tables.dedupeKeys) :
      ServiceMove s (.process call, .processed (.ok decision) none) s
  | committed {call : Call} {decision : AlertDecision} {state : AlertState}
      {alert : Option OutgoingAlert} {tables' : Tables} {fed : Option ℕ}
      (hplan : s.service.plan call s.tables.alertState = .ok (decision, state, alert))
      (hcommits : Commits s.tables call state alert tables' fed) :
      ServiceMove s (.process call, .processed (.ok decision) fed) (s.withTables tables')
  | notEnqueued {notice : ListingNotice} {exc : PyExc} :
      ServiceMove s (.enqueue notice, .enqueued (.error exc)) s
  | enqueued {notice : ListingNotice}
      (hfresh : listingDedupeKey notice.eventKey ∉ s.tables.dedupeKeys) :
      ServiceMove s (.enqueue notice, .enqueued (.ok (s.tables.outgoingSequence + 1)))
        (s.withTables (s.tables.addRow (s.tables.newRow "listing" notice.text notice.createdAt
          (some (listingDedupeKey notice.eventKey)) (some "listing") (some notice.eventKey))))

/-- An enqueue inserts its row or leaves the tables alone. -/
theorem ListingNotice.enqueue_cases (notice : ListingNotice) (tables : Tables) :
    (∃ exc, notice.enqueue.run ⟨tables, none⟩ = (.error exc, ⟨tables, none⟩)) ∨
      (listingDedupeKey notice.eventKey ∉ tables.dedupeKeys ∧
        notice.enqueue.run ⟨tables, none⟩ = (.ok (tables.outgoingSequence + 1),
          ⟨tables.addRow (tables.newRow "listing" notice.text notice.createdAt
            (some (listingDedupeKey notice.eventKey)) (some "listing") (some notice.eventKey)),
            none⟩)) := by
  have hbody : Db.KeepsOpen (Repository.insertOutgoingNotification notice.faults.insert "listing"
      notice.text notice.createdAt (some (listingDedupeKey notice.eventKey)) (some "listing")
      (some notice.eventKey)) := Db.keepsOpen_guarded (Db.keepsOpen_statement _)
  -- the enqueue is one transaction around one insert
  cases hrun : notice.enqueue.run ⟨tables, none⟩ with
  | mk outcome conn =>
      cases outcome with
      | error exc =>
          obtain ⟨rfl, -⟩ := Db.transaction_error hbody hrun
          exact Or.inl ⟨exc, rfl⟩
      | ok id =>
          obtain ⟨-, -, image, hinsert, rfl⟩ := (Db.transaction_ok_iff hbody).mp hrun
          obtain ⟨-, hinsert⟩ := Db.guarded_run_ok_iff.mp hinsert
          obtain ⟨image', himage, hconn⟩ := Db.statement_run_ok_iff.mp hinsert
          obtain rfl : image = image' := Option.some.inj (Connection.mk.inj hconn).2
          split at himage
          · cases himage
          · rename_i hfresh
            obtain ⟨rfl, rfl⟩ := Prod.mk.inj (Except.ok.inj himage)
            refine Or.inr ⟨fun hmem => hfresh ?_, rfl⟩
            exact Tables.violatesDedupe_some_iff.mpr hmem

/-- Every step is one of `ServiceMove`. -/
theorem ServiceStep.move {s s' : ServiceState} {event : ServiceEvent} (hs : ServiceInvariant s)
    (h : ServiceStep s event s') : ServiceMove s event s' := by
  obtain ⟨service, connection⟩ := s
  obtain ⟨tables, working⟩ := connection
  -- between two steps no transaction is open
  obtain rfl : working = none := hs.closed
  obtain ⟨request, reply⟩ := event
  cases request with
  | restart config =>
      obtain ⟨rfl, rfl⟩ := Prod.mk.inj h
      exact .restarted config
  | process call =>
      obtain ⟨rfl, rfl⟩ := Prod.mk.inj h
      change ServiceMove _ (.process call, .processed (service.process call ⟨tables, none⟩).outcome
        (service.process call ⟨tables, none⟩).fed)
        ⟨service, (service.process call ⟨tables, none⟩).connection⟩
      have houtcome : service.Outcome call tables (service.process call ⟨tables, none⟩) :=
        AlertService.process_cases hs.wellFormed
      generalize service.process call ⟨tables, none⟩ = result at houtcome
      cases houtcome with
      | unplanned hplan => exact .unplanned hplan
      | rolledBack hplan hcause => exact .rolledBack hplan hcause
      | suppressed hplan hcause => exact .suppressed hplan hcause
      | committed hplan hcommits => exact .committed hplan hcommits
  | enqueue notice =>
      change (Reply.enqueued (notice.enqueue.run ⟨tables, none⟩).1,
        (⟨service, (notice.enqueue.run ⟨tables, none⟩).2⟩ : ServiceState)) = (reply, s') at h
      rcases notice.enqueue_cases tables with ⟨exc, hrun⟩ | ⟨hfresh, hrun⟩
      · rw [hrun] at h
        obtain ⟨rfl, rfl⟩ := Prod.mk.inj h
        exact .notEnqueued
      · rw [hrun] at h
        obtain ⟨rfl, rfl⟩ := Prod.mk.inj h
        exact .enqueued hfresh

/-- What a committed call does to the ids and keys of the outbox. -/
theorem Commits.wellKeyed {tables tables' : Tables} {call : Call} {state : AlertState}
    {alert : Option OutgoingAlert} {fed : Option ℕ}
    (h : Commits tables call state alert tables' fed) (hkeyed : tables.WellKeyed) :
    tables'.WellKeyed := by
  -- without a message the outbox is the old one; with one it has grown by an `INSERT`
  cases alert with
  | none =>
      have houtgoing : tables'.outgoing = tables.outgoing := by simpa using h.outgoing_eq
      have hsequence : tables'.outgoingSequence = tables.outgoingSequence := by
        simpa using h.sequence_eq
      refine ⟨?_, ?_, ?_⟩
      · rw [houtgoing]
        exact hkeyed.ids_increase
      · rw [houtgoing, hsequence]
        exact hkeyed.id_le
      · rw [Tables.dedupeKeys, houtgoing]
        exact hkeyed.keys_nodup
  | some a =>
      have hfresh : tables.violatesDedupe (some a.key) = false := by
        refine Bool.eq_false_iff.mpr fun hviolates => ?_
        exact h.fresh a rfl (Tables.violatesDedupe_some_iff.mp hviolates)
      have hinsert := @Tables.WellKeyed.insert tables hkeyed a.kind.tag a.message call.createdAt
        (some a.key) none none hfresh
      refine ⟨?_, ?_, ?_⟩
      · rw [h.outgoing_eq]
        exact hinsert.ids_increase
      · rw [h.outgoing_eq, h.sequence_eq]
        exact hinsert.id_le
      · rw [Tables.dedupeKeys, h.outgoing_eq]
        exact hinsert.keys_nodup

/-- What a call that reaches its transaction has decided from the stored state. -/
theorem ServiceInvariant.planned {s : ServiceState} (hs : ServiceInvariant s) {call : Call}
    {decision : AlertDecision} {state : AlertState} {alert : Option OutgoingAlert}
    (hplan : s.service.plan call s.tables.alertState = .ok (decision, state, alert)) :
    Planned s.service.config s.stored call decision state alert :=
  AlertService.planned_of_plan hs.wellFormed hplan

/-- The next cycle loads the state that a committed call has written. -/
theorem Commits.stored_eq {s : ServiceState} {call : Call} {state : AlertState}
    {alert : Option OutgoingAlert} {tables' : Tables} {fed : Option ℕ}
    (h : Commits s.tables call state alert tables' fed) :
    (s.withTables tables').stored = state := by
  rw [ServiceState.stored, ServiceState.withTables_tables, h.alertState_eq]
  rfl

/-- One step keeps the invariant. -/
theorem ServiceInvariant.step {s s' : ServiceState} {event : ServiceEvent}
    (hs : ServiceInvariant s) (h : ServiceStep s event s') : ServiceInvariant s' := by
  cases h.move hs with
  | restarted config => exact ⟨rfl, hs.wellFormed, hs.wellKeyed⟩
  | unplanned => exact hs
  | rolledBack => exact hs
  | suppressed => exact hs
  | committed hplan hcommits =>
      refine ⟨rfl, ?_, hcommits.wellKeyed hs.wellKeyed⟩
      rw [hcommits.stored_eq]
      exact (hs.planned hplan).spec.wellFormed hcommits.binds
  | notEnqueued => exact hs
  | enqueued hfresh =>
      refine ⟨rfl, hs.wellFormed, hs.wellKeyed.insert (Bool.eq_false_iff.mpr fun hviolates => ?_)⟩
      exact hfresh (Tables.violatesDedupe_some_iff.mp hviolates)

theorem ServiceInvariant.start (config : AdmittedSettings) :
    ServiceInvariant (ServiceState.start config) where
  closed := rfl
  wellFormed := AlertState.wellFormed_initial
  wellKeyed := ⟨List.Pairwise.nil, by simp [ServiceState.tables, ServiceState.start],
    List.nodup_nil⟩

/-- Every run keeps the invariant. -/
theorem ServiceRun.invariant {config : AdmittedSettings} {events : List ServiceEvent}
    {s : ServiceState} (h : ServiceRun config events s) : ServiceInvariant s :=
  Trace.stateInvariant (ServiceInvariant.start config) (fun _ _ _ hs hstep => hs.step hstep) h

/-- Execute requests from an empty database. -/
def serveAll (config : AdmittedSettings) (requests : List Request) :
    List ServiceEvent × ServiceState :=
  Trace.exec (fun s request => some ((request, (s.serve request).1), (s.serve request).2))
    (ServiceState.start config) [] requests

theorem run_serveAll (config : AdmittedSettings) (requests : List Request) :
    ServiceRun config (serveAll config requests).1 (serveAll config requests).2 := by
  refine Trace.exec_trace (fun s request event s' h => ?_) requests Trace.nil
  obtain ⟨rfl, rfl⟩ := Prod.mk.inj (Option.some.inj h)
  rfl

/-! ## Committed cycles -/

/-- The calls of a run, whatever became of them. -/
def calls (events : List ServiceEvent) : List Call :=
  events.filterMap fun event =>
    match event.1 with
    | .process call => some call
    | _ => none

/-- No restart of a run changes the settings. -/
def KeepsConfig (config : AdmittedSettings) (events : List ServiceEvent) : Prop :=
  ∀ event ∈ events, ∀ config', event.1 = .restart config' → config' = config

theorem KeepsConfig.of_append {config : AdmittedSettings} {events : List ServiceEvent}
    {event : ServiceEvent} (h : KeepsConfig config (events ++ [event])) :
    KeepsConfig config events ∧ ∀ config', event.1 = .restart config' → config' = config :=
  ⟨fun e he => h e (List.mem_append_left _ he), h event (by simp)⟩

theorem calls_append (events : List ServiceEvent) (event : ServiceEvent) :
    calls (events ++ [event]) = calls events ++ calls [event] := by
  rw [calls, List.filterMap_append]
  rfl

/-- Executing requests serves each of them. -/
theorem serveAll_requests (config : AdmittedSettings) (requests : List Request) :
    (serveAll config requests).1.map Prod.fst = requests := by
  have hexec (s : ServiceState) (events : List ServiceEvent) :
      (Trace.exec (fun s request => some ((request, (s.serve request).1), (s.serve request).2))
        s events requests).1.map Prod.fst = events.map Prod.fst ++ requests := by
    induction requests generalizing s events with
    | nil => simp [Trace.exec]
    | cons request requests ih => rw [Trace.exec, ih]; simp
  simpa [serveAll] using hexec (ServiceState.start config) []

theorem calls_serveAll (config : AdmittedSettings) (requests : List Request) :
    calls (serveAll config requests).1 = requests.filterMap fun request =>
      match request with
      | .process call => some call
      | _ => none := by
  conv_rhs => rw [← serveAll_requests config requests, List.filterMap_map]
  rfl

theorem keepsConfig_serveAll {config : AdmittedSettings} {requests : List Request}
    (h : ∀ config', .restart config' ∈ requests → config' = config) :
    KeepsConfig config (serveAll config requests).1 := by
  intro event hevent config' hrestart
  refine h config' ?_
  rw [← serveAll_requests config requests, ← hrestart]
  exact List.mem_map_of_mem hevent

/-- A service that is only restarted with its own settings keeps them. -/
theorem ServiceRun.config_eq {config : AdmittedSettings} {events : List ServiceEvent}
    {s : ServiceState} (h : ServiceRun config events s) (hconfig : KeepsConfig config events) :
    s.service.config = config := by
  induction h with
  | nil => rfl
  | @snoc events s event s' prior last ih =>
      obtain ⟨hbefore, hlast⟩ := hconfig.of_append
      cases last.move (ServiceRun.invariant prior) with
      | restarted config' => exact hlast config' rfl
      | _ => exact ih hbefore

/-- A machine of the same settings decides the same, whatever it has cached. -/
theorem AlertStateMachine.evaluate_congr {self other : AlertStateMachine}
    (h : self.config = other.config) (row : Option AlertState) (qualifying : QualifyingSet)
    (now : ℤ) : self.evaluate row qualifying now = other.evaluate row qualifying now := by
  simp only [evaluate, h]

/-- The calls that committed make a run of committed cycles, and it is this run that has written
the stored row. -/
theorem ServiceRun.exists_run {config : AdmittedSettings} {events : List ServiceEvent}
    {s : ServiceState} (h : ServiceRun config events s) (hconfig : KeepsConfig config events) :
    ∃ cycles m, Run config cycles m ∧ m.row = s.tables.alertState ∧
      (cycles.map fun cycle => (cycle.qualifying, cycle.now)).Sublist
        ((calls events).map fun call => (call.qualifying, call.now)) := by
  induction h with
  | nil => exact ⟨[], _, Trace.nil, rfl, List.Sublist.refl _⟩
  | @snoc events s event s' prior last ih =>
      obtain ⟨hbefore, -⟩ := hconfig.of_append
      obtain ⟨cycles, m, hrun, hrow, hsub⟩ := ih hbefore
      have hsame := ServiceRun.config_eq prior hbefore
      have hgrow : ((calls events).map fun call => (call.qualifying, call.now)).Sublist
          ((calls (events ++ [event])).map fun call => (call.qualifying, call.now)) := by
        rw [calls_append, List.map_append]
        exact List.sublist_append_left _ _
      have hs := ServiceRun.invariant prior
      -- only a committed call adds a cycle; every other step leaves the row
      cases last.move hs with
      | @committed call decision state alert tables' fed hplan hcommits =>
          have hspec := (hs.planned hplan).spec
          obtain ⟨hevaluate, -⟩ := AlertService.parts_of_plan hplan
          have hpersist := (AlertStateMachine.persistNoCommit_eq_ok_iff hspec.fingerprint_eq).mpr
            ⟨hcommits.binds, rfl⟩
          -- the machine of the service decides what a fresh one does
          let fresh : AlertStateMachine := { config := config.toSettings }
          have hfresh : fresh.evaluate m.row call.qualifying call.now = .ok (decision, state) := by
            rw [hrow, ← hevaluate]
            refine AlertStateMachine.evaluate_congr ?_ _ _ _
            rw [s.service.wired, hsame]
          let cycle : Cycle :=
            { restarted := true, qualifying := call.qualifying, now := call.now, decision }
          have hstep : CycleStep config m cycle { machine := fresh, row := some state } := by
            refine PyExc.bind_eq_ok.mpr ⟨(decision, state), hfresh, ?_⟩
            exact PyExc.bind_eq_ok.mpr ⟨state, hpersist, rfl⟩
          refine ⟨cycles ++ [cycle], _, hrun.snoc hstep, hcommits.alertState_eq.symm, ?_⟩
          rw [calls_append, List.map_append, List.map_append]
          exact hsub.append (List.Sublist.refl _)
      | _ => exact ⟨cycles, m, hrun, hrow, hsub.trans hgrow⟩

end BybitMonitor
