import Mathlib
import BybitMonitor.Persistence.AlertState
import BybitMonitor.Python.Serialize
import BybitMonitor.ToMathlib.Trace
import BybitMonitor.ToMathlib.Transaction

/-!
# The key/value state

The table `kv` with the operations of `Repository` on it. A value is written as JSON text with
sorted keys, in a transaction of its own.

* `Repository.kvSetJson_run`: a call writes its row, or raises and leaves the table as it was.
* `kv_refines`: after every sequence of calls the table holds the map of the calls that returned.
-/

namespace BybitMonitor

/-- A row of the table `kv`. -/
structure KvRow where
  key : String
  value : String
  updatedAt : ℤ
  deriving DecidableEq, Repr

/-- The exceptions that the parts of a call are made to raise. -/
structure KvFaults where
  begin : Option PyExc := none
  statement : Option PyExc := none
  commit : Option PyExc := none
  deriving DecidableEq, Repr

namespace Repository

/-- The statement of `kv_set`, where `key` is the primary key. -/
def kvUpsert (key value : String) (now : ℤ) (rows : List KvRow) : List KvRow :=
  if rows.any fun row => row.key = key then
    rows.map fun row => if row.key = key then ⟨key, value, now⟩ else row
  else rows ++ [⟨key, value, now⟩]

/-- The value under a key. -/
def kvValue (rows : List KvRow) (key : String) : Option String :=
  (rows.find? fun row => row.key = key).map KvRow.value

/-- `kv_get`. -/
def kvGet (fault : Option PyExc) (key : String) : Db PyExc (List KvRow) (Option String) :=
  Db.guarded fault <| Db.query fun rows => kvValue rows key

/-- `kv_get_json`. -/
def kvGetJson (fault : Option PyExc) (key : String) (default : Json) :
    Db PyExc (List KvRow) Json := do
  match ← kvGet fault key with
  | none => return default
  | some raw =>
      Db.lift <|
        match Json.loads raw with
        | .ok value => .ok value
        | .error exc => if exc.isTypeOrValueError then .ok default else .error exc

/-- `kv_set` at the time `now`. -/
def kvSet (faults : KvFaults) (now : ℤ) (key value : String) : Db PyExc (List KvRow) Unit :=
  Db.transaction (.runtimeError "nested transaction not supported") faults.begin faults.commit <|
    Db.guarded faults.statement <| Db.statement fun rows =>
      if sqliteBinds now then .ok ((), kvUpsert key value now rows)
      else .error (.overflowError "Python int too large to convert to SQLite INTEGER")

/-- `kv_set_json` at the time `now`. -/
def kvSetJson (faults : KvFaults) (now : ℤ) (key : String) (value : Json) :
    Db PyExc (List KvRow) Unit := do
  let text ← Db.lift (Json.dumps value)
  kvSet faults now key text

/-- `kv_delete`. -/
def kvDelete (faults : KvFaults) (key : String) : Db PyExc (List KvRow) Unit :=
  Db.transaction (.runtimeError "nested transaction not supported") faults.begin faults.commit <|
    Db.guarded faults.statement <| Db.statement fun rows =>
      .ok ((), rows.filter fun row => row.key ≠ key)

variable {key other value text : String} {now : ℤ} {rows : List KvRow} {faults : KvFaults}

/-! ## One call -/

/-- The value under a key, row by row. -/
theorem kvValue_cons (row : KvRow) (rows : List KvRow) (key : String) :
    kvValue (row :: rows) key = if row.key = key then some row.value else kvValue rows key := by
  by_cases hkey : row.key = key <;> simp [kvValue, hkey]

/-- Replacing the rows of a key sets its value, if it has a row, and no other. -/
theorem kvValue_replace (rows : List KvRow) (other : String) :
    kvValue (rows.map fun row => if row.key = key then ⟨key, value, now⟩ else row) other =
      if other = key ∧ (rows.any fun row => row.key = key) then some value
      else kvValue rows other := by
  induction rows with
  | nil => simp [kvValue]
  | cons row rows ih =>
      rw [List.map_cons, kvValue_cons, kvValue_cons, ih]
      by_cases hrow : row.key = key
      · by_cases hother : other = key
        · simp [hrow, hother]
        · simp [hrow, hother, Ne.symm hother]
      · by_cases hother : other = key
        · subst hother
          simp [hrow]
        · simp [hrow, hother]

/-- An upsert sets the value of its key and no other. -/
theorem kvValue_kvUpsert :
    kvValue (kvUpsert key value now rows) other =
      if other = key then some value else kvValue rows other := by
  rw [kvUpsert]
  split
  · rename_i hany
    rw [kvValue_replace, hany]
    simp
  · rename_i hnone
    -- a key without a row gets the last one
    have hrow : ∀ row ∈ rows, row.key ≠ key := by simpa using hnone
    have hvalue : kvValue (rows ++ [⟨key, value, now⟩]) other =
        ((kvValue rows other).or (kvValue [⟨key, value, now⟩] other)) := by
      simp only [kvValue, List.find?_append]
      cases rows.find? fun row => row.key = other <;> rfl
    rw [hvalue]
    by_cases hother : other = key
    · have hnone : kvValue rows other = none := by
        rw [kvValue, List.find?_eq_none.mpr fun row hmem => by simpa [hother] using hrow row hmem]
        rfl
      rw [hnone, kvValue_cons]
      simp [hother]
    · rw [kvValue_cons]
      simp [hother, Ne.symm hother, kvValue]

/-- A deletion removes the value of its key and no other. -/
theorem kvValue_filter :
    kvValue (rows.filter fun row => row.key ≠ key) other =
      if other = key then none else kvValue rows other := by
  induction rows with
  | nil => simp [kvValue]
  | cons row rows ih =>
      rw [kvValue_cons]
      by_cases hrow : row.key = key
      · rw [List.filter_cons_of_neg (by simpa using hrow), ih]
        by_cases hother : other = key
        · simp [hother]
        · simp [hrow, hother, Ne.symm hother]
      · rw [List.filter_cons_of_pos (by simpa using hrow), kvValue_cons, ih]
        by_cases hother : other = key
        · subst hother
          simp [hrow]
        · simp [hother]

/-- `kv_set_json` writes the text of the value, or raises and leaves the table as it was. -/
theorem kvSetJson_run (faults : KvFaults) (now : ℤ) (key : String) (value : Json)
    (rows : List KvRow) :
    (∃ exc, (kvSetJson faults now key value).run ⟨rows, none⟩ = (.error exc, ⟨rows, none⟩)) ∨
      ∃ text, Json.dumps value = .ok text ∧
        (kvSetJson faults now key value).run ⟨rows, none⟩ =
          (.ok (), ⟨kvUpsert key text now rows, none⟩) := by
  rw [kvSetJson, Db.bind_run]
  cases hdumps : Json.dumps value with
  | error exc => exact Or.inl ⟨exc, rfl⟩
  | ok text =>
      have hopen := @Db.keepsOpen_guarded _ _ _ faults.statement _ <| Db.keepsOpen_statement
        fun rows : List KvRow =>
          if sqliteBinds now then (.ok ((), kvUpsert key text now rows) : Except PyExc _)
          else .error (.overflowError "Python int too large to convert to SQLite INTEGER")
      rcases Db.transaction_run_cases hopen with ⟨exc, hrun⟩ | ⟨⟨⟩, image, himage, hrun⟩
      · exact Or.inl ⟨exc, hrun⟩
      · refine Or.inr ⟨text, rfl, ?_⟩
        obtain ⟨-, hstatement⟩ := Db.guarded_run_ok_iff.mp himage
        obtain ⟨image', heffect, hconn⟩ := Db.statement_run_ok_iff.mp hstatement
        obtain rfl : image = image' := Option.some.inj (Connection.mk.inj hconn).2
        split at heffect
        · obtain rfl := (Prod.mk.inj (Except.ok.inj heffect)).2
          exact hrun
        · cases heffect

/-- `kv_delete` removes the rows of its key, or raises and leaves the table as it was. -/
theorem kvDelete_run (faults : KvFaults) (key : String) (rows : List KvRow) :
    (∃ exc, (kvDelete faults key).run ⟨rows, none⟩ = (.error exc, ⟨rows, none⟩)) ∨
      (kvDelete faults key).run ⟨rows, none⟩ =
        (.ok (), ⟨rows.filter fun row => row.key ≠ key, none⟩) := by
  have hopen := @Db.keepsOpen_guarded _ _ _ faults.statement _ <| Db.keepsOpen_statement
    fun rows : List KvRow =>
      (.ok ((), rows.filter fun row => row.key ≠ key) : Except PyExc (Unit × List KvRow))
  rcases Db.transaction_run_cases hopen with ⟨exc, hrun⟩ | ⟨⟨⟩, image, himage, hrun⟩
  · exact Or.inl ⟨exc, hrun⟩
  · refine Or.inr ?_
    obtain ⟨-, hstatement⟩ := Db.guarded_run_ok_iff.mp himage
    obtain ⟨image', heffect, hconn⟩ := Db.statement_run_ok_iff.mp hstatement
    obtain rfl : image = image' := Option.some.inj (Connection.mk.inj hconn).2
    obtain rfl := (Prod.mk.inj (Except.ok.inj heffect)).2
    exact hrun

end Repository

/-! ## Sequences of calls -/

/-- A call that writes the table. -/
inductive KvCall
  | setJson (key : String) (value : Json)
  | delete (key : String)

namespace KvCall

/-- Run a call. -/
def run (faults : KvFaults) (now : ℤ) : KvCall → Db PyExc (List KvRow) Unit
  | setJson key value => Repository.kvSetJson faults now key value
  | delete key => Repository.kvDelete faults key

/-- What a call does to a map from keys to values. -/
def apply (contents : String → Option Json) : KvCall → String → Option Json
  | setJson key value => Function.update contents key (some value)
  | delete key => Function.update contents key none

/-- The value that is set, if one is, is one that Python builds. -/
def WellFormed : KvCall → Prop
  | setJson _ value => value.WellFormed
  | delete _ => True

end KvCall

/-- A call with its outcome. -/
structure KvEvent where
  call : KvCall
  outcome : Except PyExc Unit

/-- One call, with any faults and at any time. -/
def KvStep (rows : List KvRow) (event : KvEvent) (rows' : List KvRow) : Prop :=
  ∃ faults now, (event.call.run faults now).run ⟨rows, none⟩ = (event.outcome, ⟨rows', none⟩)

/-- The map after a sequence of calls: those that raised do nothing. -/
def kvContents (events : List KvEvent) : String → Option Json :=
  events.foldl (fun contents event =>
    match event.outcome with
    | .ok () => event.call.apply contents
    | .error _ => contents) fun _ => none

/-- The table holds a map: under each key the text of its value. -/
def KvRepresents (rows : List KvRow) (contents : String → Option Json) : Prop :=
  ∀ key, match contents key with
    | none => Repository.kvValue rows key = none
    | some value => value.WellFormed ∧ ∃ text, Json.dumps value = .ok text ∧
        Repository.kvValue rows key = some text

/-- A call keeps the table a representation of the map. -/
theorem KvStep.represents {rows rows' : List KvRow} {event : KvEvent}
    {contents : String → Option Json} (h : KvRepresents rows contents)
    (hstep : KvStep rows event rows') (hvalues : event.call.WellFormed) :
    KvRepresents rows' (match event.outcome with
      | .ok () => event.call.apply contents
      | .error _ => contents) := by
  obtain ⟨call, outcome⟩ := event
  obtain ⟨faults, now, hrun⟩ := hstep
  cases call with
  | setJson key value =>
      rcases Repository.kvSetJson_run faults now key value rows with
        ⟨exc, herror⟩ | ⟨text, htext, hok⟩
      · rw [KvCall.run, herror] at hrun
        cases hrun
        exact h
      · rw [KvCall.run, hok] at hrun
        cases hrun
        intro other
        simp only [KvCall.apply, Function.update_apply, Repository.kvValue_kvUpsert]
        by_cases hother : other = key
        · simp only [hother, if_true]
          exact ⟨hvalues, text, htext, rfl⟩
        · simp only [hother, if_false]
          exact h other
  | delete key =>
      rcases Repository.kvDelete_run faults key rows with ⟨exc, herror⟩ | hok
      · rw [KvCall.run, herror] at hrun
        cases hrun
        exact h
      · rw [KvCall.run, hok] at hrun
        cases hrun
        intro other
        simp only [KvCall.apply, Function.update_apply, Repository.kvValue_filter]
        by_cases hother : other = key
        · simp [hother]
        · simp only [hother, if_false]
          exact h other

/-- The table represents the map after every sequence of calls. -/
theorem kvRepresents_trace {events : List KvEvent} {rows : List KvRow}
    (h : Trace KvStep [] events rows) (hvalues : ∀ event ∈ events, event.call.WellFormed) :
    KvRepresents rows (kvContents events) := by
  induction h with
  | nil =>
      intro key
      rfl
  | @snoc events rows event rows' _ hstep ih =>
      have hbefore := ih fun e he => hvalues e (List.mem_append_left _ he)
      have hevent := hvalues event (List.mem_append_right _ List.mem_cons_self)
      have hcontents : kvContents (events ++ [event]) =
          match event.outcome with
          | .ok () => event.call.apply (kvContents events)
          | .error _ => kvContents events := by
        simp only [kvContents, List.foldl_append, List.foldl_cons, List.foldl_nil]
      rw [hcontents]
      exact hstep.represents hbefore hevent

/-- **The table is a map.** After every sequence of `kv_set_json` and `kv_delete`, whatever raises
in them, `kv_get_json` returns the last value that was set under its key, with its keys sorted,
unless the key was deleted since; and its default if there is none. -/
theorem kv_refines (events : List KvEvent) (rows : List KvRow) (h : Trace KvStep [] events rows)
    (hvalues : ∀ event ∈ events, event.call.WellFormed) (key : String) (default : Json) :
    (Repository.kvGetJson none key default).run ⟨rows, none⟩ =
      (.ok (((kvContents events key).map Json.sortKeys).getD default), ⟨rows, none⟩) := by
  have hkey := kvRepresents_trace h hvalues key
  have hget : (Repository.kvGet none key).run ⟨rows, none⟩ =
      (.ok (Repository.kvValue rows key), ⟨rows, none⟩) := rfl
  rw [Repository.kvGetJson, Db.bind_run, hget]
  split at hkey
  · rename_i hcontents
    rw [hcontents, hkey]
    rfl
  · rename_i value hcontents
    obtain ⟨hvalue, text, htext, hrow⟩ := hkey
    rw [hcontents, hrow]
    simp only [Json.loads_dumps hvalue htext]
    rfl

/-- A dictionary with a float that is set, and a deletion that raises. -/
def keptEvents : List KvEvent :=
  [⟨.setJson "health:snapshot" (.object [("rate", .float (.finite (3 / 2))), ("age", .int 1)]),
    .ok ()⟩, ⟨.delete "health:snapshot", .error .databaseError⟩]

theorem kv_refines_kept : ∃ rows, Trace KvStep [] keptEvents rows ∧
    (Repository.kvGetJson none "health:snapshot" .null).run ⟨rows, none⟩ =
      (.ok (.object [("age", .int 1), ("rate", .float (.finite (3 / 2)))]), ⟨rows, none⟩) := by
  set value : Json := .object [("rate", .float (.finite (3 / 2))), ("age", .int 1)] with hvalue
  have hdumps : Json.dumps value = .ok "\x7b\"age\": 1, \"rate\": 1.5\x7d" := by decide +kernel
  have hset : KvStep [] ⟨.setJson "health:snapshot" value, .ok ()⟩
      [⟨"health:snapshot", "\x7b\"age\": 1, \"rate\": 1.5\x7d", 5⟩] := by
    refine ⟨{}, 5, ?_⟩
    rw [KvCall.run, Repository.kvSetJson, hdumps]
    rfl
  have hdelete : KvStep [⟨"health:snapshot", "\x7b\"age\": 1, \"rate\": 1.5\x7d", 5⟩]
      ⟨.delete "health:snapshot", .error .databaseError⟩
      [⟨"health:snapshot", "\x7b\"age\": 1, \"rate\": 1.5\x7d", 5⟩] :=
    ⟨{ commit := some .databaseError }, 6, rfl⟩
  have hbinary : (PyFloat.finite (3 / 2)).IsBinary64 := by
    rintro r ⟨⟩
    decide +kernel
  have hwellFormed : value.WellFormed := by
    refine .object (by decide) fun field hfield => ?_
    rcases List.mem_pair.mp hfield with rfl | rfl
    · exact .float hbinary
    · exact .int 1
  have hvalues : ∀ event ∈ keptEvents, event.call.WellFormed := by
    simpa [keptEvents, KvCall.WellFormed] using hwellFormed
  have htrace := (Trace.nil.snoc hset).snoc hdelete
  exact ⟨_, htrace, kv_refines keptEvents _ htrace hvalues "health:snapshot" .null⟩

end BybitMonitor
