import Mathlib
import BybitMonitor.Python.Exception
import BybitMonitor.ToMathlib.Debounce
import BybitMonitor.ToMathlib.JsonText

/-!
# The table `alert_state`

The single row that the alert state machine keeps between two update cycles, and
`AlertStateRepository`, which loads and writes it.

* `AlertState.phase`: the phase of the debounce automaton that a row stands for.
* `AlertState.WellFormed`: the rows that the state machine writes.
-/

namespace BybitMonitor

/-- The classification of a cycle by its number of qualifying coins. -/
inductive GroupState
  | empty
  | activeRange
  | overRange
  deriving DecidableEq, Repr

/-- The stored name of a state. -/
def GroupState.name : GroupState → String
  | empty => "EMPTY"
  | activeRange => "ACTIVE_RANGE"
  | overRange => "OVER_RANGE"

/-- The single row of the table `alert_state`; the fingerprint is JSON text. -/
structure AlertState where
  state : GroupState
  fingerprint : String
  updatedAt : ℤ
  lastTransitionAt : Option ℤ
  pendingSince : Option ℤ
  pendingFrom : Option GroupState
  lastHourlyBucket : Option String
  lastCompositionAt : Option ℤ
  deriving DecidableEq, Repr

/-- Whether SQLite can bind an integer, which it stores in 64 bits. -/
def sqliteBinds (n : ℤ) : Bool := -2 ^ 63 ≤ n && n < 2 ^ 63

namespace AlertStateRepository

/-- The state that stands for an empty table. -/
def initial : AlertState :=
  { state := .empty, fingerprint := "[]", updatedAt := 0, lastTransitionAt := none,
    pendingSince := none, pendingFrom := none, lastHourlyBucket := none,
    lastCompositionAt := none }

/-- `AlertStateRepository.load`. -/
def load (row : Option AlertState) : AlertState := row.getD initial

/-- `AlertStateRepository.save_no_commit`: the row that the upsert writes. -/
def saveNoCommit (state : AlertState) (fingerprint : List String) : Except PyExc AlertState :=
  if sqliteBinds state.updatedAt && state.lastTransitionAt.all sqliteBinds &&
      state.pendingSince.all sqliteBinds && state.lastCompositionAt.all sqliteBinds then
    .ok { state with fingerprint := JsonText.dumps fingerprint }
  else .error (.overflowError "Python int too large to convert to SQLite INTEGER")

end AlertStateRepository

/-- `tuple(json.loads(text))` for a text that holds an array of strings. -/
def decodeFingerprint (text : String) : Except PyExc (List String) :=
  match JsonText.loads text with
  | some coins => .ok coins
  | none => .error .jsonDecodeError

@[simp]
theorem decodeFingerprint_dumps (coins : List String) :
    decodeFingerprint (JsonText.dumps coins) = .ok coins := by
  simp [decodeFingerprint]

namespace AlertState

/-- The phase of the debounce automaton that a row stands for. -/
def phase (self : AlertState) : Debounce.Phase ℤ :=
  if self.state = .activeRange then
    match self.pendingSince with
    | none => .confirmed
    | some since => .waiting since
  else .idle

/-- The state that a pending transition started from, and without one the stored state. -/
def origin (self : AlertState) : GroupState :=
  match self.pendingSince with
  | none => self.state
  | some _ => self.pendingFrom.getD self.state

/-- The integers of a row fit the columns. -/
structure Binds (row : AlertState) : Prop where
  updatedAt : sqliteBinds row.updatedAt = true
  lastTransitionAt : row.lastTransitionAt.all sqliteBinds = true
  pendingSince : row.pendingSince.all sqliteBinds = true
  lastCompositionAt : row.lastCompositionAt.all sqliteBinds = true

/-- The rows that the state machine writes: a transition is pending only inside the range, and
the fingerprint is an encoded list of coins. -/
structure WellFormed (row : AlertState) : Prop where
  pending_active : row.state ≠ .activeRange → row.pendingSince = none
  encoded : ∃ coins, row.fingerprint = JsonText.dumps coins
  binds : row.Binds

theorem wellFormed_initial : AlertStateRepository.initial.WellFormed where
  pending_active _ := rfl
  encoded := ⟨[], by decide⟩
  binds := ⟨by decide, by decide, by decide, by decide⟩

theorem phase_eq_idle_iff {self : AlertState} :
    self.phase = .idle ↔ self.state ≠ .activeRange := by
  by_cases hstate : self.state = .activeRange
  · cases hpending : self.pendingSince <;> simp [phase, hstate, hpending]
  · simp [phase, hstate]

theorem phase_eq_waiting_iff {self : AlertState} {since : ℤ} :
    self.phase = .waiting since ↔
      self.state = .activeRange ∧ self.pendingSince = some since := by
  by_cases hstate : self.state = .activeRange
  · cases hpending : self.pendingSince <;> simp [phase, hstate, hpending]
  · simp [phase, hstate]

theorem phase_eq_confirmed_iff {self : AlertState} :
    self.phase = .confirmed ↔ self.state = .activeRange ∧ self.pendingSince = none := by
  by_cases hstate : self.state = .activeRange
  · cases hpending : self.pendingSince <;> simp [phase, hstate, hpending]
  · simp [phase, hstate]

/-- Without a pending transition the origin is the stored state. -/
theorem origin_of_idle {self : AlertState} (h : self.WellFormed) (hidle : self.phase = .idle) :
    self.origin = self.state := by
  rw [origin, h.pending_active (phase_eq_idle_iff.mp hidle)]

/-- A row is written exactly if its integers fit. -/
theorem saveNoCommit_eq_ok_iff {self row : AlertState} {coins : List String} :
    AlertStateRepository.saveNoCommit self coins = .ok row ↔
      self.Binds ∧ row = { self with fingerprint := JsonText.dumps coins } := by
  rw [AlertStateRepository.saveNoCommit]
  split
  · rename_i hbinds
    simp only [Bool.and_eq_true] at hbinds
    obtain ⟨⟨⟨hupdated, htransition⟩, hpending⟩, hcomposition⟩ := hbinds
    have hall : self.Binds := ⟨hupdated, htransition, hpending, hcomposition⟩
    simp [hall, eq_comm]
  · rename_i hbinds
    have hnone : ¬ self.Binds := by
      intro hall
      exact hbinds (by simp [hall.updatedAt, hall.lastTransitionAt, hall.pendingSince,
        hall.lastCompositionAt])
    simp [hnone]

/-- A row that is refused has an integer that does not fit. -/
theorem saveNoCommit_eq_error {self : AlertState} {coins : List String} {exc : PyExc}
    (h : AlertStateRepository.saveNoCommit self coins = .error exc) :
    ¬ self.Binds ∧ exc ≠ .integrityError := by
  constructor
  · intro hbinds
    rw [saveNoCommit_eq_ok_iff.mpr ⟨hbinds, rfl⟩] at h
    cases h
  · rw [AlertStateRepository.saveNoCommit] at h
    split at h
    · cases h
    · rw [← Except.error.inj h]
      simp

end AlertState

end BybitMonitor
