import Mathlib
import BybitMonitor.Persistence.AlertState
import BybitMonitor.ToMathlib.Transaction

/-!
# The database of the alert layer

The tables that the alert service and the listing tracker write, and the statements of
`app/persistence/repository.py` on them.

* `Tables.WellKeyed`: the ids of the outbox rows are those that AUTOINCREMENT has given out, and no
  dedupe key is used twice.
* `Tables.WellKeyed.insert`: an insert keeps it.
-/

namespace BybitMonitor

/-- The column `status` of an outbox row. -/
inductive NotificationStatus
  | pending
  | retry
  | sent
  | dead
  deriving DecidableEq, Repr

/-- A row of the table `outgoing_notifications`. -/
structure OutgoingNotification where
  id : ℕ
  messageTag : String
  message : String
  createdAt : ℤ
  status : NotificationStatus := .pending
  sentAt : Option ℤ := none
  error : Option String := none
  dedupeKey : Option String := none
  attemptCount : ℕ := 0
  nextAttemptAt : Option ℤ := none
  lastAttemptAt : Option ℤ := none
  originType : Option String := none
  originKey : Option String := none
  deriving DecidableEq, Repr

/-- The tables, and the counter behind the AUTOINCREMENT ids of the outbox. -/
structure Tables where
  alertState : Option AlertState := none
  outgoing : List OutgoingNotification := []
  outgoingSequence : ℕ := 0
  deriving DecidableEq, Repr

/-- A computation on the connection of the application. -/
abbrev DbM (α : Type) : Type := Db PyExc Tables α

/-- `Database.transaction`. -/
def Database.transaction {α : Type} (beginFault commitFault : Option PyExc) (body : DbM α) :
    DbM α :=
  Db.transaction (.runtimeError "nested transaction not supported") beginFault commitFault body

/-- The upsert of `AlertStateRepository.save_no_commit`. -/
def AlertStateRepository.upsert (fault : Option PyExc) (row : AlertState) : DbM Unit :=
  Db.guarded fault (Db.statement fun tables => .ok ((), { tables with alertState := some row }))

namespace Tables

/-- Whether the unique index on `dedupe_key` refuses a row with this key. -/
def violatesDedupe (self : Tables) (dedupeKey : Option String) : Bool :=
  dedupeKey.isSome && self.outgoing.any fun row => row.dedupeKey = dedupeKey

/-- The row that an insert adds. -/
def newRow (self : Tables) (messageTag message : String) (createdAt : ℤ)
    (dedupeKey originType originKey : Option String) : OutgoingNotification where
  id := self.outgoingSequence + 1
  messageTag := messageTag
  message := message
  createdAt := createdAt
  dedupeKey := dedupeKey
  originType := originType
  originKey := originKey

/-- Add a row with the next id. -/
def addRow (self : Tables) (row : OutgoingNotification) : Tables :=
  { self with outgoing := self.outgoing ++ [row], outgoingSequence := row.id }

end Tables

/-- `Repository.insert_outgoing_notification` with `commit=False`; it returns the new id. -/
def Repository.insertOutgoingNotification (fault : Option PyExc) (messageTag message : String)
    (createdAt : ℤ) (dedupeKey originType originKey : Option String) : DbM ℕ :=
  Db.guarded fault <| Db.statement fun tables =>
    if tables.violatesDedupe dedupeKey then .error .integrityError
    else
      let row := tables.newRow messageTag message createdAt dedupeKey originType originKey
      .ok (row.id, tables.addRow row)

/-- The keys of the outbox rows that have one. -/
def Tables.dedupeKeys (self : Tables) : List String :=
  self.outgoing.filterMap OutgoingNotification.dedupeKey

/-- Ids are given out in increasing order and keys are not used twice. -/
structure Tables.WellKeyed (tables : Tables) : Prop where
  ids_increase : tables.outgoing.Pairwise fun row later => row.id < later.id
  id_le : ∀ row ∈ tables.outgoing, row.id ≤ tables.outgoingSequence
  keys_nodup : tables.dedupeKeys.Nodup

theorem Tables.violatesDedupe_some_iff {tables : Tables} {key : String} :
    tables.violatesDedupe (some key) = true ↔ key ∈ tables.dedupeKeys := by
  simp [violatesDedupe, dedupeKeys]

/-- An insert keeps ids increasing and keys unique. -/
theorem Tables.WellKeyed.insert {tables : Tables} (h : tables.WellKeyed)
    {messageTag message : String} {createdAt : ℤ} {dedupeKey originType originKey : Option String}
    (hfresh : tables.violatesDedupe dedupeKey = false) :
    (tables.addRow (tables.newRow messageTag message createdAt dedupeKey originType
      originKey)).WellKeyed where
  ids_increase := by
    refine List.pairwise_append.mpr ⟨h.ids_increase, List.pairwise_singleton _ _, ?_⟩
    intro row hrow later hlater
    rw [List.mem_singleton.mp hlater]
    exact Nat.lt_succ_of_le (h.id_le row hrow)
  id_le := by
    intro row hrow
    rcases List.mem_append.mp hrow with hrow | hrow
    · exact Nat.le_succ_of_le (h.id_le row hrow)
    · rw [List.mem_singleton.mp hrow]
      exact le_rfl
  keys_nodup := by
    cases dedupeKey with
    | none => simpa [dedupeKeys, addRow, newRow] using h.keys_nodup
    | some key =>
        have hnew : key ∉ tables.dedupeKeys := by
          rw [← violatesDedupe_some_iff, hfresh]
          simp
        have hkeys := List.nodup_append.mpr ⟨h.keys_nodup, List.nodup_singleton key, ?_⟩
        · simpa [dedupeKeys, addRow, newRow] using hkeys
        · rintro old hold new hnew' rfl
          exact hnew (List.mem_singleton.mp hnew' ▸ hold)

end BybitMonitor
