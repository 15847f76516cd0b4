import Mathlib
import BybitMonitor.Alerts.Cycle
import BybitMonitor.Alerts.Formatter
import BybitMonitor.Persistence.Repository

/-!
# The alert service

`AlertService.process` runs one alert-decision cycle: the state and the outgoing message are written
in one transaction, and the message is handed to the dispatcher after its commit.

* `AlertService.process_cases`: the outcomes of a call (raised, suppressed as a duplicate,
  committed).
* `dedupeKey_eq_ok_iff`: a composition key needs a cooldown that is not zero.
-/

namespace BybitMonitor

/-- The message kind of a decision: a live transition before a composition update before an hourly
update. -/
def AlertDecision.kind (self : AlertDecision) : Option AlertKind :=
  if self.liveTransition then some .transition
  else if self.compositionUpdate then some .composition
  else if self.hourlyUpdate then some .hourly
  else none

/-- The dedupe key of a transition. -/
def transitionKey (now : ℤ) (coins : String) : String :=
  "transition" ++ ":" ++ (toString now ++ ":" ++ coins)

/-- The dedupe key of an hourly update. -/
def hourlyKey (bucket coins : String) : String :=
  "hourly" ++ ":" ++ (bucket ++ ":" ++ coins)

/-- The dedupe key of a composition update in a window of the cooldown. -/
def compositionKey (coins : String) (window : ℤ) : String :=
  "composition" ++ ":" ++ (coins ++ ":" ++ toString window)

/-- `":".join(decision.fingerprint)`. -/
def joinedCoins (fingerprint : List String) : String := ":".intercalate fingerprint

/-- `AlertService._dedupe_key`. -/
def dedupeKey (config : Settings) (kind : AlertKind) (decision : AlertDecision) (now : ℤ) :
    Except PyExc String :=
  let coins := joinedCoins decision.fingerprint
  match kind with
  | .transition => return transitionKey now coins
  | .hourly => do
      let bucket ← hourlyBucket now
      return hourlyKey bucket coins
  | .composition => do
      let cooldown ← config.compositionChangeCooldownSeconds.toInt
      if cooldown = 0 then .error .zeroDivisionError
      else return compositionKey coins (now.fdiv cooldown)

/-- A message that is ready for the outbox. -/
structure OutgoingAlert where
  kind : AlertKind
  message : String
  key : String
  deriving DecidableEq, Repr

/-- The message of a decision, if it has one. -/
def outgoingAlert (config : Settings) (qualifying : QualifyingSet) (decision : AlertDecision)
    (now : ℤ) : Except PyExc (Option OutgoingAlert) :=
  match decision.kind with
  | none => return none
  | some kind => do
      let message ← formatAlert qualifying config now kind
      let key ← dedupeKey config kind decision now
      return some { kind, message, key }

/-- The exceptions that the database operations of a call are made to raise. -/
structure Faults where
  load : Option PyExc := none
  begin : Option PyExc := none
  upsert : Option PyExc := none
  insert : Option PyExc := none
  commit : Option PyExc := none
  deriving DecidableEq, Repr

/-- One of the operations inside the transaction is made to raise `exc`. -/
def Faults.Raises (self : Faults) (exc : PyExc) : Prop :=
  self.begin = some exc ∨ self.upsert = some exc ∨ self.insert = some exc ∨
    self.commit = some exc

/-- The input of one call of `process`, with the clock that stamps a new row and the faults that it
meets. -/
structure Call where
  qualifying : QualifyingSet
  now : ℤ
  createdAt : ℤ := now
  faults : Faults := {}
  deriving DecidableEq, Repr

/-- The service with its state machine, which `Application` builds from the same settings. -/
structure AlertService where
  config : AdmittedSettings
  stateMachine : AlertStateMachine
  wired : stateMachine.config = config.toSettings

/-- What a call returns or raises, the connection after it, and the row id that it has handed to
the dispatcher. -/
structure ProcessResult where
  outcome : Except PyExc AlertDecision
  connection : Connection Tables
  fed : Option ℕ

namespace AlertService

/-- A service of a fresh process. -/
def start (config : AdmittedSettings) : AlertService where
  config := config
  stateMachine := { config := config.toSettings }
  wired := rfl

/-- The decision of a call, the state to persist and the message to insert. -/
def plan (self : AlertService) (call : Call) (row : Option AlertState) :
    Except PyExc (AlertDecision × AlertState × Option OutgoingAlert) := do
  raiseIf call.faults.load
  let (decision, state) ← self.stateMachine.evaluate row call.qualifying call.now
  let alert ← outgoingAlert self.config.toSettings call.qualifying decision call.now
  return (decision, state, alert)

/-- The writes of a call inside its transaction; the id of the new row, if there is one. -/
def writes (call : Call) (state : AlertState) (alert : Option OutgoingAlert) :
    DbM (Option ℕ) := do
  let row ← Db.lift (AlertStateMachine.persistNoCommit state)
  AlertStateRepository.upsert call.faults.upsert row
  -- no flag: the state is written alone
  match alert with
  | none => return none
  | some alert => do
      let id ← Repository.insertOutgoingNotification call.faults.insert alert.kind.tag
        alert.message call.createdAt (some alert.key) none none
      return some id

/-- `AlertService.process`. -/
def process (self : AlertService) (call : Call) (connection : Connection Tables) :
    ProcessResult :=
  match self.plan call connection.image.alertState with
  | .error exc => { outcome := .error exc, connection, fed := none }
  | .ok (decision, state, alert) =>
      match (Database.transaction call.faults.begin call.faults.commit
        (writes call state alert)).run connection with
      | (.ok id, connection) => { outcome := .ok decision, connection, fed := id }
      -- a duplicate logical decision is suppressed: the call returns normally
      | (.error .integrityError, connection) =>
          { outcome := .ok decision, connection, fed := none }
      | (.error exc, connection) => { outcome := .error exc, connection, fed := none }

end AlertService

/-! ## What one call does -/

/-- The key of a message, for a cooldown that is not zero. -/
def alertKey (config : AdmittedSettings) (kind : AlertKind) (fingerprint : List String)
    (now : ℤ) : String :=
  match kind with
  | .transition => transitionKey now (joinedCoins fingerprint)
  | .hourly => hourlyKey (hourText (now / 3600)) (joinedCoins fingerprint)
  | .composition => compositionKey (joinedCoins fingerprint) (now / config.cooldown)

/-- A key is built unless the time is refused or the window of a composition update is zero. -/
theorem dedupeKey_eq_ok_iff {config : AdmittedSettings} {kind : AlertKind}
    {decision : AlertDecision} {now : ℤ} {key : String} :
    dedupeKey config.toSettings kind decision now = .ok key ↔
      (kind = .hourly → strftimeAccepts now = true) ∧
        (kind = .composition → config.cooldown ≠ 0) ∧
        key = alertKey config kind decision.fingerprint now := by
  obtain ⟨htoInt, hnonneg⟩ := config.cooldown_spec
  cases kind with
  | transition =>
      constructor
      · -- a transition has its second in the key, and cannot raise
        intro h
        exact ⟨by simp, by simp, (Except.ok.inj h).symm⟩
      · rintro ⟨-, -, rfl⟩
        rfl
  | hourly =>
      rw [dedupeKey, PyExc.bind_eq_ok]
      constructor
      · rintro ⟨bucket, hbucket, hkey⟩
        obtain ⟨haccepts, rfl⟩ := AlertStateMachine.hourlyBucket_eq_ok_iff.mp hbucket
        exact ⟨fun _ => haccepts, by simp, (Except.ok.inj hkey).symm⟩
      · rintro ⟨haccepts, -, rfl⟩
        exact ⟨_, AlertStateMachine.hourlyBucket_eq_ok_iff.mpr ⟨haccepts rfl, rfl⟩, rfl⟩
  | composition =>
      rw [dedupeKey, htoInt]
      rw [PyExc.bind_eq_ok]
      -- `now // 0` raises; otherwise the cooldown is positive and `//` is the floor
      by_cases hzero : config.cooldown = 0
      · refine iff_of_false ?_ fun h => h.2.1 rfl hzero
        rintro ⟨cooldown, hcooldown, h⟩
        obtain rfl := Except.ok.inj hcooldown
        rw [if_pos hzero] at h
        cases h
      · constructor
        · rintro ⟨cooldown, hcooldown, h⟩
          obtain rfl := Except.ok.inj hcooldown
          rw [if_neg hzero, Int.fdiv_eq_ediv_of_nonneg _ hnonneg] at h
          exact ⟨by simp, fun _ => hzero, (Except.ok.inj h).symm⟩
        · rintro ⟨-, -, rfl⟩
          refine ⟨config.cooldown, rfl, ?_⟩
          rw [if_neg hzero, Int.fdiv_eq_ediv_of_nonneg _ hnonneg]
          rfl

/-- What a call that reaches its transaction has decided. -/
structure Planned (config : AdmittedSettings) (stored : AlertState) (call : Call)
    (decision : AlertDecision) (state : AlertState) (alert : Option OutgoingAlert) : Prop where
  spec : CycleSpec config stored call.qualifying call.now decision state
  kind_eq : alert.map OutgoingAlert.kind = decision.kind
  key_eq : ∀ a ∈ alert, a.key = alertKey config a.kind call.qualifying.fingerprint call.now
  cooldown_ne : ∀ a ∈ alert, a.kind = .composition → config.cooldown ≠ 0

theorem AlertDecision.kind_eq_transition_iff {decision : AlertDecision} :
    decision.kind = some .transition ↔ decision.liveTransition = true := by
  rw [kind]
  split_ifs <;> simp_all

/-- The composition update of a cycle is what the message is about. -/
theorem CycleSpec.kind_eq_composition_iff {config : AdmittedSettings}
    {stored state : AlertState} {qualifying : QualifyingSet} {now : ℤ} {decision : AlertDecision}
    (h : CycleSpec config stored qualifying now decision state) :
    decision.kind = some .composition ↔ decision.compositionUpdate = true := by
  rw [AlertDecision.kind]
  by_cases hcomposition : decision.compositionUpdate = true
  · simp [hcomposition, h.not_live_of_composition hcomposition]
  · split_ifs <;> simp_all

/-- What a call that commits writes to the tables. -/
structure Commits (tables : Tables) (call : Call) (state : AlertState)
    (alert : Option OutgoingAlert) (tables' : Tables) (fed : Option ℕ) : Prop where
  alertState_eq : tables'.alertState = some state
  binds : state.Binds
  fresh : ∀ a ∈ alert, a.key ∉ tables.dedupeKeys
  outgoing_eq : tables'.outgoing = tables.outgoing ++ alert.toList.map fun a =>
    tables.newRow a.kind.tag a.message call.createdAt (some a.key) none none
  sequence_eq : tables'.outgoingSequence = tables.outgoingSequence + alert.toList.length
  fed_eq : fed = alert.map fun _ => tables.outgoingSequence + 1

namespace AlertService

variable {self : AlertService} {call : Call} {row : Option AlertState}
  {decision : AlertDecision} {state : AlertState} {alert : Option OutgoingAlert}
  {tables : Tables}

/-- A plan evaluates the row and builds the message of the decision. -/
theorem parts_of_plan (h : self.plan call row = .ok (decision, state, alert)) :
    self.stateMachine.evaluate row call.qualifying call.now = .ok (decision, state) ∧
      outgoingAlert self.config.toSettings call.qualifying decision call.now = .ok alert := by
  -- the steps of a plan in their order
  obtain ⟨-, h⟩ := PyExc.check_bind_eq_ok.mp h
  obtain ⟨⟨decision', state'⟩, hevaluate, h⟩ := PyExc.bind_eq_ok.mp h
  obtain ⟨alert', halert, h⟩ := PyExc.bind_eq_ok.mp h
  obtain ⟨rfl, rfl, rfl⟩ : decision' = decision ∧ state' = state ∧ alert' = alert := by
    simpa [pure, Except.pure] using h
  exact ⟨hevaluate, halert⟩

/-- What a plan consists of. -/
theorem planned_of_plan (hrow : (AlertStateRepository.load row).WellFormed)
    (h : self.plan call row = .ok (decision, state, alert)) :
    Planned self.config (AlertStateRepository.load row) call decision state alert := by
  obtain ⟨hevaluate, halert⟩ := parts_of_plan h
  have hspec := AlertStateMachine.evaluate_spec self.wired hrow hevaluate
  rw [outgoingAlert] at halert
  -- a plan has a message exactly if its decision has a kind
  cases hkind : decision.kind with
  | none =>
      rw [hkind] at halert
      obtain rfl : none = alert := Except.ok.inj halert
      exact ⟨hspec, hkind.symm, by simp, by simp⟩
  | some kind =>
      rw [hkind] at halert
      obtain ⟨message, -, halert⟩ := PyExc.bind_eq_ok.mp halert
      obtain ⟨key, hkey, halert⟩ := PyExc.bind_eq_ok.mp halert
      obtain rfl : some _ = alert := Except.ok.inj halert
      obtain ⟨-, hcooldown, rfl⟩ := dedupeKey_eq_ok_iff.mp hkey
      rw [hspec.decision_fingerprint]
      exact ⟨hspec, hkind.symm, by simp, by simpa using hcooldown⟩

theorem keepsOpen_writes : Db.KeepsOpen (writes call state alert) := by
  refine Db.keepsOpen_bind (Db.keepsOpen_lift _) fun row => ?_
  refine Db.keepsOpen_bind (Db.keepsOpen_guarded (Db.keepsOpen_statement _)) fun _ => ?_
  cases alert with
  | none => exact Db.keepsOpen_pure _
  | some alert =>
      exact Db.keepsOpen_bind (Db.keepsOpen_guarded (Db.keepsOpen_statement _)) fun _ =>
        Db.keepsOpen_pure _

/-- Writes that succeed are those of `Commits`. -/
theorem writes_run_ok {coins : List String} (hcoins : state.fingerprint = JsonText.dumps coins)
    {fed : Option ℕ} {tables' : Tables}
    (h : (writes call state alert).run ⟨tables, some tables⟩ =
      (.ok fed, ⟨tables, some tables'⟩)) :
    Commits tables call state alert tables' fed := by
  -- the statements of `writes` in their order: encode, upsert, insert
  obtain ⟨row, conn, hpersist, hrest⟩ := Db.bind_run_ok_iff.mp h
  obtain ⟨hrow, rfl⟩ : AlertStateMachine.persistNoCommit state = .ok row ∧
      (⟨tables, some tables⟩ : Connection Tables) = conn := Prod.mk.inj hpersist
  obtain ⟨hbinds, rfl⟩ := (AlertStateMachine.persistNoCommit_eq_ok_iff hcoins).mp hrow
  obtain ⟨_, conn, hupsert, hinserted⟩ := Db.bind_run_ok_iff.mp hrest
  obtain ⟨-, hupsert⟩ := Db.guarded_run_ok_iff.mp hupsert
  obtain ⟨image, himage, rfl⟩ := Db.statement_run_ok_iff.mp hupsert
  obtain rfl : { tables with alertState := some row } = image :=
    (Prod.mk.inj (Except.ok.inj himage)).2
  cases alert with
  | none =>
      obtain ⟨hfed, hconn⟩ := Prod.mk.inj hinserted
      obtain rfl : none = fed := Except.ok.inj hfed
      obtain rfl : _ = tables' := Option.some.inj (Connection.mk.inj hconn).2
      exact ⟨rfl, hbinds, by simp, by simp, by simp, rfl⟩
  | some a =>
      obtain ⟨id, conn, hinsert, hreturn⟩ := Db.bind_run_ok_iff.mp hinserted
      obtain ⟨-, hinsert⟩ := Db.guarded_run_ok_iff.mp hinsert
      obtain ⟨image, himage, rfl⟩ := Db.statement_run_ok_iff.mp hinsert
      obtain ⟨hfed, hconn⟩ := Prod.mk.inj hreturn
      obtain rfl : some id = fed := Except.ok.inj hfed
      obtain rfl : image = tables' := Option.some.inj (Connection.mk.inj hconn).2
      split at himage
      · cases himage
      · -- the insert has not violated the unique index
        rename_i hfresh
        obtain ⟨rfl, rfl⟩ := Prod.mk.inj (Except.ok.inj himage)
        have hkey : a.key ∉ tables.dedupeKeys := fun hmem =>
          hfresh (Tables.violatesDedupe_some_iff.mpr hmem)
        exact ⟨rfl, hbinds, by simpa using hkey, rfl, rfl, rfl⟩

/-- Where an exception of the writes comes from. -/
theorem writes_run_error {coins : List String} (hcoins : state.fingerprint = JsonText.dumps coins)
    {exc : PyExc} {conn : Connection Tables}
    (h : (writes call state alert).run ⟨tables, some tables⟩ = (.error exc, conn)) :
    (¬ state.Binds ∧ exc ≠ .integrityError) ∨ call.faults.upsert = some exc ∨
      call.faults.insert = some exc ∨
      (exc = .integrityError ∧ ∃ a ∈ alert, a.key ∈ tables.dedupeKeys) := by
  -- the first statement that raises: encode, upsert, insert
  rcases Db.bind_run_error_iff.mp h with hpersist | ⟨row, conn₁, hpersist, hrest⟩
  · exact Or.inl (AlertStateMachine.persistNoCommit_eq_error hcoins (Prod.mk.inj hpersist).1)
  obtain ⟨-, rfl⟩ : AlertStateMachine.persistNoCommit state = .ok row ∧
      (⟨tables, some tables⟩ : Connection Tables) = conn₁ := Prod.mk.inj hpersist
  rcases Db.bind_run_error_iff.mp hrest with hupsert | ⟨_, conn₁, hupsert, hinserted⟩
  · rcases Db.guarded_run_error_iff.mp hupsert with ⟨hfault, -⟩ | ⟨-, hupsert⟩
    · exact Or.inr (Or.inl hfault)
    · cases (Db.statement_run_error_iff.mp hupsert).1
  obtain ⟨-, hupsert⟩ := Db.guarded_run_ok_iff.mp hupsert
  obtain ⟨image, himage, rfl⟩ := Db.statement_run_ok_iff.mp hupsert
  obtain rfl : { tables with alertState := some row } = image :=
    (Prod.mk.inj (Except.ok.inj himage)).2
  cases alert with
  | none => cases (Prod.mk.inj hinserted).1
  | some a =>
      rcases Db.bind_run_error_iff.mp hinserted with hinsert | ⟨id, conn₁, -, hreturn⟩
      · rcases Db.guarded_run_error_iff.mp hinsert with ⟨hfault, -⟩ | ⟨-, hinsert⟩
        · exact Or.inr (Or.inr (Or.inl hfault))
        · have hrefused := (Db.statement_run_error_iff.mp hinsert).1
          split at hrefused
          · rename_i hviolates
            have hmem := Tables.violatesDedupe_some_iff.mp hviolates
            exact Or.inr (Or.inr (Or.inr ⟨(Except.error.inj hrefused).symm, a, rfl, hmem⟩))
          · cases hrefused
      · cases (Prod.mk.inj hreturn).1

/-- Where an exception of the transaction comes from. -/
theorem transaction_error_cause {coins : List String}
    (hcoins : state.fingerprint = JsonText.dumps coins) {exc : PyExc}
    {conn : Connection Tables}
    (h : (Database.transaction call.faults.begin call.faults.commit
      (writes call state alert)).run ⟨tables, none⟩ = (.error exc, conn)) :
    conn = ⟨tables, none⟩ ∧
      ((¬ state.Binds ∧ exc ≠ .integrityError) ∨ call.faults.Raises exc ∨
        (exc = .integrityError ∧ ∃ a ∈ alert, a.key ∈ tables.dedupeKeys)) := by
  obtain ⟨hconn, hbegin | ⟨image, hwrites⟩ | hcommit⟩ := Db.transaction_error keepsOpen_writes h
  · exact ⟨hconn, Or.inr (Or.inl (Or.inl hbegin))⟩
  · refine ⟨hconn, ?_⟩
    rcases writes_run_error hcoins hwrites with hbinds | hupsert | hinsert | hviolates
    · exact Or.inl hbinds
    · exact Or.inr (Or.inl (Or.inr (Or.inl hupsert)))
    · exact Or.inr (Or.inl (Or.inr (Or.inr (Or.inl hinsert))))
    · exact Or.inr (Or.inr hviolates)
  · exact ⟨hconn, Or.inr (Or.inl (Or.inr (Or.inr (Or.inr hcommit))))⟩

/-- The outcomes of a call on tables without an open transaction. -/
inductive Outcome (self : AlertService) (call : Call) (tables : Tables) : ProcessResult → Prop
  | unplanned {exc : PyExc} (hplan : self.plan call tables.alertState = .error exc) :
      Outcome self call tables ⟨.error exc, ⟨tables, none⟩, none⟩
  | rolledBack {decision : AlertDecision} {state : AlertState} {alert : Option OutgoingAlert}
      {exc : PyExc} (hplan : self.plan call tables.alertState = .ok (decision, state, alert))
      (hcause : ¬ state.Binds ∨ call.faults.Raises exc) :
      Outcome self call tables ⟨.error exc, ⟨tables, none⟩, none⟩
  | suppressed {decision : AlertDecision} {state : AlertState} {alert : Option OutgoingAlert}
      (hplan : self.plan call tables.alertState = .ok (decision, state, alert))
      (hcause : call.faults.Raises .integrityError ∨ ∃ a ∈ alert, a.key ∈ tables.dedupeKeys) :
      Outcome self call tables ⟨.ok decision, ⟨tables, none⟩, none⟩
  | committed {decision : AlertDecision} {state : AlertState} {alert : Option OutgoingAlert}
      {tables' : Tables} {fed : Option ℕ}
      (hplan : self.plan call tables.alertState = .ok (decision, state, alert))
      (hcommits : Commits tables call state alert tables' fed) :
      Outcome self call tables ⟨.ok decision, ⟨tables', none⟩, fed⟩

/-- Every call has one of the outcomes. -/
theorem process_cases (hrow : (AlertStateRepository.load tables.alertState).WellFormed) :
    Outcome self call tables (self.process call ⟨tables, none⟩) := by
  rw [process]
  change Outcome self call tables (match self.plan call tables.alertState with
    | .error exc => _
    | .ok (decision, state, alert) => _)
  cases hplan : self.plan call tables.alertState with
  | error exc => exact .unplanned hplan
  | ok planned =>
      obtain ⟨decision, state, alert⟩ := planned
      have hcoins := (planned_of_plan hrow hplan).spec.fingerprint_eq
      dsimp only
      cases hrun : (Database.transaction call.faults.begin call.faults.commit
        (writes call state alert)).run ⟨tables, none⟩ with
      | mk outcome conn =>
          cases outcome with
          | ok fed =>
              obtain ⟨-, -, tables', hwrites, rfl⟩ :=
                (Db.transaction_ok_iff keepsOpen_writes).mp hrun
              exact .committed hplan (writes_run_ok hcoins hwrites)
          | error exc =>
              obtain ⟨rfl, hcause⟩ := transaction_error_cause hcoins hrun
              -- `process` catches an `IntegrityError` only
              by_cases hintegrity : exc = .integrityError
              · subst hintegrity
                refine .suppressed hplan ?_
                rcases hcause with ⟨-, hne⟩ | hfault | ⟨-, hviolates⟩
                · exact absurd rfl hne
                · exact Or.inl hfault
                · exact Or.inr hviolates
              · have hresult : ProcessResult.mk (.error exc) ⟨tables, none⟩ none =
                    (match ((.error exc, ⟨tables, none⟩) :
                      Except PyExc (Option ℕ) × Connection Tables) with
                    | (.ok id, connection) => ⟨.ok decision, connection, id⟩
                    | (.error .integrityError, connection) => ⟨.ok decision, connection, none⟩
                    | (.error exc, connection) => ⟨.error exc, connection, none⟩) := by
                  cases exc <;> first | rfl | exact absurd rfl hintegrity
                refine hresult ▸ .rolledBack hplan ?_
                rcases hcause with ⟨hbinds, -⟩ | hfault | ⟨heq, -⟩
                · exact Or.inl hbinds
                · exact Or.inr hfault
                · exact absurd heq hintegrity

end AlertService

end BybitMonitor
