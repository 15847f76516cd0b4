import Mathlib
import BybitMonitor.Python.Exception
import BybitMonitor.ToMathlib.Program
import BybitMonitor.ToMathlib.Trace
import BybitMonitor.ToMathlib.Transaction

/-!
# Schema migrations

`apply_migrations` of `app/persistence/migrations.py`: the versions that are not recorded in
`schema_migrations` yet are applied one by one, each in a transaction of its own.

* `applyMigrations`: the coroutine, which awaits one operation of the connection after the other.
* `MigrationStep`: runs of it, each of which may raise, be cancelled, or die with its process.
* `migrations_exactly_once`: between two runs the database is the one of a prefix of the list.
-/

namespace BybitMonitor

/-! ## The program -/

/-- A statement, by its effect on the schema and the data. -/
abbrev SqlStatement (τ : Type) : Type := τ → Except PyExc τ

/-- `(version, [sql statements])`. -/
structure Migration (τ : Type) where
  version : ℤ
  statements : List (SqlStatement τ)

/-- The schema and the data, and the rows `(version, applied_at)` of `schema_migrations`, if there
is such a table. -/
structure MigratedDb (τ : Type) where
  content : τ
  schemaMigrations : Option (List (ℤ × ℤ)) := none
  deriving DecidableEq, Repr

namespace MigratedDb

variable {τ : Type}

/-- The recorded versions. -/
def versions (self : MigratedDb τ) : List ℤ := (self.schemaMigrations.getD []).map Prod.fst

/-- `_SCHEMA_MIGRATIONS_TABLE`. -/
def createTable (self : MigratedDb τ) : MigratedDb τ :=
  { self with schemaMigrations := some (self.schemaMigrations.getD []) }

/-- `SELECT COALESCE(MAX(version), 0)`. -/
def currentVersion (self : MigratedDb τ) : Except PyExc ℤ :=
  match self.schemaMigrations with
  | none => .error .databaseError
  | some rows => .ok ((rows.map Prod.fst).max?.getD 0)

/-- `INSERT INTO schema_migrations`; the version is the primary key. -/
def insertVersion (version appliedAt : ℤ) (self : MigratedDb τ) :
    Except PyExc (Unit × MigratedDb τ) :=
  match self.schemaMigrations with
  | none => .error .databaseError
  | some rows =>
      if version ∈ rows.map Prod.fst then .error .integrityError
      else .ok ((), { self with schemaMigrations := some (rows ++ [(version, appliedAt)]) })

/-- A statement of a migration. -/
def executeStatement (statement : SqlStatement τ) (self : MigratedDb τ) :
    Except PyExc (Unit × MigratedDb τ) :=
  (statement self.content).map fun content => ((), { self with content })

end MigratedDb

/-- An operation that is handed to the connection. -/
inductive MigrationOp (τ : Type)
  | createTable
  | currentVersion
  | begin
  | execute (statement : SqlStatement τ)
  | insertVersion (version appliedAt : ℤ)
  | commit
  | rollback

/-- What an operation returns. -/
abbrev MigrationOp.Result {τ : Type} : MigrationOp τ → Type
  | .currentVersion => ℤ
  | _ => Unit

/-- A statement that defines a table opens no transaction. -/
def Db.defining {ε τ : Type} (f : τ → τ) : Db ε τ Unit := fun conn =>
  match conn.working with
  | none => (.ok (), { conn with committed := f conn.committed })
  | some image => (.ok (), { conn with working := some (f image) })

/-- Run an operation, or let it raise. A rollback that raises has rolled back. -/
def MigrationOp.run {τ : Type} (fault : Option PyExc) :
    (op : MigrationOp τ) → Db PyExc (MigratedDb τ) op.Result
  | createTable => Db.guarded fault (Db.defining MigratedDb.createTable)
  | currentVersion => Db.guarded fault fun conn => (conn.image.currentVersion, conn)
  | begin => Db.guarded fault (Db.begin .databaseError)
  | execute statement => Db.guarded fault (Db.statement (MigratedDb.executeStatement statement))
  | insertVersion version appliedAt =>
      Db.guarded fault (Db.statement (MigratedDb.insertVersion version appliedAt))
  | commit => Db.guarded fault Db.commit
  | rollback => fun conn => ((match fault with | none => .ok () | some exc => .error exc),
      { committed := conn.committed })

/-- What the coroutine awaits. -/
inductive MigrationAwait (τ : Type)
  /-- `int(time.time())`. -/
  | clock
  | database (op : MigrationOp τ)

/-- The reply to it. -/
abbrev MigrationAwait.Reply {τ : Type} : MigrationAwait τ → Type
  | .clock => ℤ
  | .database op => Except PyExc op.Result

/-- A coroutine that uses the connection. -/
abbrev MigrationProgram (τ α : Type) : Type :=
  Program (MigrationAwait τ) MigrationAwait.Reply PyExc α

namespace MigrationProgram

variable {τ α : Type}

/-- Ask one question. -/
def ask (question : MigrationAwait τ) : MigrationProgram τ question.Reply :=
  Program.perform question

/-- Await an operation of the connection. -/
def await (op : MigrationOp τ) : MigrationProgram τ op.Result := do
  Program.lift (← ask (.database op))

/-- `Database.transaction`: `BEGIN` stands before the block that is rolled back. -/
def transaction (body : MigrationProgram τ Unit) : MigrationProgram τ Unit := do
  await .begin
  Program.tryCatch
    (do
      body
      await .commit)
    fun exc => do
      await .rollback
      Program.throw exc

end MigrationProgram

open MigrationProgram in
/-- The block of one migration. -/
def migrate {τ : Type} (migration : Migration τ) : MigrationProgram τ Unit :=
  transaction do
    migration.statements.forM fun statement => await (.execute statement)
    let appliedAt ← ask .clock
    await (.insertVersion migration.version appliedAt)

open MigrationProgram in
/-- `apply_migrations`. -/
def applyMigrations {τ : Type} (migrations : List (Migration τ)) : MigrationProgram τ Unit := do
  await .createTable
  await .commit
  let current ← await .currentVersion
  migrations.forM fun migration =>
    if migration.version ≤ current then pure () else migrate migration

/-! ## Runs -/

/-- The database with the run that is in progress, by its list and what is left of it. -/
structure MigrationState (τ : Type) where
  conn : Connection (MigratedDb τ)
  run : Option (List (Migration τ) × MigrationProgram τ Unit) := none

/-- What happens to the database. -/
inductive MigrationEvent (τ : Type)
  | started (migrations : List (Migration τ))
  | clock (time : ℤ)
  /-- The operation that is awaited returns or raises. -/
  | performed (fault : Option PyExc)
  /-- The run is cancelled while the connection performs the operation that it awaits. -/
  | cancelled (fault : Option PyExc)
  | finished (migrations : List (Migration τ)) (outcome : Except PyExc Unit)
  /-- The process dies, or the connection is closed between two runs. -/
  | crashed

/-- Runs of `apply_migrations` on one database. -/
inductive MigrationStep {τ : Type} :
    MigrationState τ → MigrationEvent τ → MigrationState τ → Prop
  | start {s : MigrationState τ} {migrations : List (Migration τ)} (hidle : s.run = none) :
      MigrationStep s (.started migrations)
        { s with run := some (migrations, applyMigrations migrations) }
  | clock {s : MigrationState τ} {migrations : List (Migration τ)}
      {next : ℤ → MigrationProgram τ Unit} (time : ℤ)
      (hrun : s.run = some (migrations, Program.ask .clock next)) :
      MigrationStep s (.clock time) { s with run := some (migrations, next time) }
  | perform {s : MigrationState τ} {migrations : List (Migration τ)} {op : MigrationOp τ}
      {next : Except PyExc op.Result → MigrationProgram τ Unit} (fault : Option PyExc)
      (hrun : s.run = some (migrations, Program.ask (.database op) next)) :
      MigrationStep s (.performed fault)
        { conn := ((op.run fault).run s.conn).2
          run := some (migrations, next ((op.run fault).run s.conn).1) }
  | cancel {s : MigrationState τ} {migrations : List (Migration τ)} {op : MigrationOp τ}
      {next : Except PyExc op.Result → MigrationProgram τ Unit} (fault : Option PyExc)
      (hrun : s.run = some (migrations, Program.ask (.database op) next)) :
      MigrationStep s (.cancelled fault)
        { conn := ((op.run fault).run s.conn).2
          run := some (migrations, next (.error .cancelledError)) }
  | finish {s : MigrationState τ} {migrations : List (Migration τ)} {outcome : Except PyExc Unit}
      (hrun : s.run = some (migrations, Program.done outcome)) :
      MigrationStep s (.finished migrations outcome) { s with run := none }
  | crash {s : MigrationState τ} :
      MigrationStep s .crashed { conn := { committed := s.conn.committed } }

/-! ## The database of a list of migrations -/

section Applied

variable {τ : Type} {base : τ} {all applied done migrations : List (Migration τ)}
  {migration : Migration τ} {image : MigratedDb τ} {conn : Connection (MigratedDb τ)}

/-- Execute the statements of a migration in their order. -/
def Migration.effect (migration : Migration τ) (content : τ) : Except PyExc τ :=
  migration.statements.foldlM (fun content statement => statement content) content

/-- The database has the versions of these migrations, and what their statements, each executed once
and in this order, make of `base`. -/
structure AppliedOnce (base : τ) (migrations : List (Migration τ)) (image : MigratedDb τ) :
    Prop where
  versions : image.versions = migrations.map Migration.version
  content : migrations.foldlM (fun content migration => migration.effect content) base =
    .ok image.content

/-- Versions are positive and strictly increasing. -/
def VersionsIncrease (migrations : List (Migration τ)) : Prop :=
  (∀ migration ∈ migrations, 0 < migration.version) ∧
    migrations.Pairwise fun migration later => migration.version < later.version

/-- The connection has committed, and sees, the database of these migrations. -/
structure Settled (base : τ) (migrations : List (Migration τ))
    (conn : Connection (MigratedDb τ)) : Prop where
  committed : AppliedOnce base migrations conn.committed
  working : ∀ image, conn.working = some image → AppliedOnce base migrations image

/-- A database without rows is the one of no migrations. -/
theorem appliedOnce_nil (h : image.versions = []) : AppliedOnce image.content [] image :=
  ⟨h, rfl⟩

/-- The table is created once. -/
theorem AppliedOnce.createTable (h : AppliedOnce base applied image) :
    AppliedOnce base applied image.createTable :=
  ⟨h.versions, h.content⟩

/-- The table is there before anything is read, and nothing else has changed. -/
theorem Settled.createTable {fault : Option PyExc} (h : Settled base applied conn) :
    Settled base applied ((MigrationOp.createTable.run fault).run conn).2 := by
  cases fault with
  | some exc => exact h
  | none =>
      obtain ⟨committed, working⟩ := conn
      cases working with
      | none => exact ⟨h.committed.createTable, by rintro _ ⟨⟩⟩
      | some image => exact ⟨h.committed, by rintro _ ⟨⟩; exact (h.working image rfl).createTable⟩

/-- A commit closes what the last run has left open. -/
theorem Settled.commit (h : Settled base applied conn) :
    AppliedOnce base applied conn.image := by
  obtain ⟨committed, working⟩ := conn
  cases working with
  | none => exact h.committed
  | some image => exact h.working image rfl

/-- The statements of one more migration, and its row. -/
theorem AppliedOnce.snoc {image' : MigratedDb τ} (h : AppliedOnce base done image)
    (heffect : migration.effect image.content = .ok image'.content)
    (hversions : image'.versions = image.versions ++ [migration.version]) :
    AppliedOnce base (done ++ [migration]) image' where
  versions := by rw [hversions, h.versions, List.map_append, List.map_singleton]
  content := by
    rw [List.foldlM_append, h.content]
    change migration.effect image.content >>= pure = _
    rw [heffect]
    rfl

/-- The recorded maximum tells the migrations that are applied from the others. -/
theorem AppliedOnce.currentVersion_spec {current : ℤ} (h : AppliedOnce base applied image)
    (hordered : VersionsIncrease all) (happlied : applied <+: all)
    (hcurrent : image.currentVersion = .ok current) :
    (∀ migration ∈ applied, migration.version ≤ current) ∧
      ∀ done migration, applied <+: done → done ++ [migration] <+: all →
        current < migration.version := by
  have hmax : current = ((applied.map Migration.version).max?).getD 0 := by
    rw [MigratedDb.currentVersion] at hcurrent
    have hversions := h.versions
    rw [MigratedDb.versions] at hversions
    cases hrows : image.schemaMigrations with
    | none =>
        rw [hrows] at hcurrent
        cases hcurrent
    | some rows =>
        rw [hrows] at hcurrent hversions
        rw [← hversions]
        exact (Except.ok.inj hcurrent).symm
  cases hfound : (applied.map Migration.version).max? with
  | none =>
      rw [List.max?_eq_none_iff, List.map_eq_nil_iff] at hfound
      subst hfound
      refine ⟨by simp, fun done migration _ hinitial => ?_⟩
      rw [hmax]
      exact hordered.1 migration (hinitial.subset (List.mem_append_right _ List.mem_cons_self))
  | some version =>
      rw [hfound] at hmax
      obtain ⟨hmem, hle⟩ := List.max?_eq_some_iff.mp hfound
      obtain ⟨newest, hnewest, rfl⟩ := List.mem_map.mp hmem
      -- the maximum is the version of the newest one that is applied
      refine ⟨fun migration hmigration => ?_, fun done migration hdone hinitial => ?_⟩
      · rw [hmax]
        exact hle _ (List.mem_map_of_mem hmigration)
      · have hsorted := hordered.2.sublist hinitial.sublist
        rw [hmax]
        exact (List.pairwise_append.mp hsorted).2.2 newest (hdone.subset hnewest) migration
          List.mem_cons_self

/-- The next migration of a run is one that is applied, or comes after all of these. -/
theorem prefix_or_applied (happlied : applied <+: all) (hinitial : done ++ [migration] <+: all) :
    applied <+: done ∨ done ++ [migration] <+: applied := by
  -- of two first parts of one list, one is a first part of the other
  rcases List.prefix_or_prefix_of_prefix happlied hinitial with h | h
  · rcases List.prefix_concat_iff.mp h with rfl | h
    · exact Or.inr (List.prefix_refl _)
    · exact Or.inl h
  · exact Or.inr h

end Applied

/-! ## One run -/

/-- What a reply does to the connection. -/
inductive MigrationMoves {τ : Type} : Connection (MigratedDb τ) →
    (question : MigrationAwait τ) → question.Reply → Connection (MigratedDb τ) → Prop
  | clock {conn : Connection (MigratedDb τ)} (time : ℤ) : MigrationMoves conn .clock time conn
  | performed {conn : Connection (MigratedDb τ)} {op : MigrationOp τ} (fault : Option PyExc) :
      MigrationMoves conn (.database op) ((op.run fault).run conn).1 ((op.run fault).run conn).2
  | cancelled {conn : Connection (MigratedDb τ)} {op : MigrationOp τ} (fault : Option PyExc) :
      MigrationMoves conn (.database op) (.error .cancelledError) ((op.run fault).run conn).2

/-- What is committed whenever a run awaits something is the database of some of `all`, so that the
process may die there. -/
def migrationProtocol {τ : Type} (base : τ) (all : List (Migration τ)) :
    Program.Protocol (MigrationAwait τ) MigrationAwait.Reply (Connection (MigratedDb τ)) where
  Allows conn _ := ∃ applied, applied <+: all ∧ AppliedOnce base applied conn.committed
  Moves := MigrationMoves

namespace MigrationProgram

variable {τ α : Type} {base : τ} {all applied done migrations : List (Migration τ)}
  {migration : Migration τ} {image : MigratedDb τ} {conn : Connection (MigratedDb τ)}

/-- An awaited operation ends with its result, or with a cancellation. -/
theorem meets_await {op : MigrationOp τ} {post : Except PyExc op.Result →
    Connection (MigratedDb τ) → Prop}
    (hcommitted : ∃ applied, applied <+: all ∧ AppliedOnce base applied conn.committed)
    (hperformed : ∀ fault, post ((op.run fault).run conn).1 ((op.run fault).run conn).2)
    (hcancelled : ∀ fault, post (.error .cancelledError) ((op.run fault).run conn).2) :
    (await op).Meets (migrationProtocol base all) conn post := by
  -- a cancellation comes too late for the operation itself
  refine ⟨hcommitted, fun reply conn' hmoves => ?_⟩
  cases hmoves with
  | performed fault => exact hperformed fault
  | cancelled fault => exact hcancelled fault

/-- What a block has to do between `BEGIN` and `COMMIT`: with the working image `w` it ends in an
image for which `good` holds, or raises. -/
def BodyMeets (base : τ) (all : List (Migration τ)) (image : MigratedDb τ)
    (body : MigrationProgram τ Unit) (good : MigratedDb τ → Prop) : Prop :=
  body.Meets (migrationProtocol base all) ⟨image, some image⟩ fun outcome conn =>
    ∃ image', conn = ⟨image, some image'⟩ ∧ (outcome = .ok () → good image')

/-- A rollback leaves the committed database, also when it raises. -/
theorem meets_rollback {exc : PyExc} {post : Except PyExc Unit → Connection (MigratedDb τ) → Prop}
    (hcommitted : ∃ applied, applied <+: all ∧ AppliedOnce base applied conn.committed)
    (hpost : ∀ exc, post (.error exc) ⟨conn.committed, none⟩) :
    (do await .rollback; Program.throw exc : MigrationProgram τ Unit).Meets
      (migrationProtocol base all) conn post := by
  refine Program.meets_bind.mpr (meets_await hcommitted (fun fault => ?_) fun _ => hpost _)
  cases fault with
  | none => exact hpost exc
  | some fault => exact hpost fault

/-- A transaction commits what its body has produced, or leaves the database as it was. A
cancellation at `BEGIN` leaves an empty transaction open; one at `COMMIT` comes too late. -/
theorem meets_transaction {body : MigrationProgram τ Unit} (happlied : applied <+: all)
    (himage : AppliedOnce base applied image) (hdone : done <+: all)
    (hbody : BodyMeets base all image body (AppliedOnce base done)) :
    (transaction body).Meets (migrationProtocol base all) ⟨image, none⟩ fun outcome conn =>
      match outcome with
      | .ok _ => ∃ image', conn = ⟨image', none⟩ ∧ AppliedOnce base done image'
      | .error _ => Settled base applied conn ∨ Settled base done conn := by
  have hcommitted : ∃ applied, applied <+: all ∧ AppliedOnce base applied image :=
    ⟨applied, happlied, himage⟩
  have hclosed : Settled base applied ⟨image, none⟩ := ⟨himage, by simp⟩
  have hopen : Settled base applied ⟨image, some image⟩ := ⟨himage, by rintro _ ⟨⟩; exact himage⟩
  have hrollback (exc : PyExc) (conn : Connection (MigratedDb τ)) (h : conn.committed = image) :
      (do await .rollback; Program.throw exc : MigrationProgram τ Unit).Meets
        (migrationProtocol base all) conn fun outcome conn =>
          match outcome with
          | .ok _ => ∃ image', conn = ⟨image', none⟩ ∧ AppliedOnce base done image'
          | .error _ => Settled base applied conn ∨ Settled base done conn := by
    subst h
    exact meets_rollback hcommitted fun _ => Or.inl hclosed
  refine Program.meets_bind.mpr (meets_await hcommitted (fun fault => ?_) fun fault => ?_)
  · cases fault with
    | some fault => exact Or.inl hclosed
    | none =>
        refine Program.meets_tryCatch.mpr (Program.meets_bind.mpr (hbody.mono ?_))
        rintro outcome conn ⟨image', rfl, hgood⟩
        cases outcome with
        | error exc => exact hrollback exc _ rfl
        | ok _ =>
            have hdoneImage := hgood rfl
            -- `COMMIT` succeeds, raises and is rolled back, or is cancelled when it is made
            refine meets_await hcommitted (fun fault => ?_) fun fault => ?_
            · cases fault with
              | none => exact ⟨image', rfl, hdoneImage⟩
              | some fault => exact hrollback fault _ rfl
            · cases fault with
              | none =>
                  -- the transaction is committed before the cancellation is seen
                  refine meets_rollback ⟨done, hdone, hdoneImage⟩ fun _ => Or.inr ?_
                  exact ⟨hdoneImage, by simp⟩
              | some fault => exact hrollback _ _ rfl
  · cases fault with
    | none => exact Or.inl hopen
    | some fault => exact Or.inl hclosed

/-- An operation inside of a transaction keeps what is committed. -/
theorem meets_await_open {op : MigrationOp τ} {working : MigratedDb τ}
    {post : Except PyExc op.Result → Connection (MigratedDb τ) → Prop}
    {f : MigratedDb τ → Except PyExc (op.Result × MigratedDb τ)}
    (hop : ∀ fault, op.run fault = Db.guarded fault (Db.statement f))
    (hcommitted : ∃ applied, applied <+: all ∧ AppliedOnce base applied image)
    (hok : ∀ result image', f working = .ok (result, image') →
      post (.ok result) ⟨image, some image'⟩)
    (herror : ∀ exc image', post (.error exc) ⟨image, some image'⟩) :
    (await op).Meets (migrationProtocol base all) ⟨image, some working⟩ post := by
  have hrun (fault : Option PyExc) :
      (∃ result image', f working = .ok (result, image') ∧
        (op.run fault).run ⟨image, some working⟩ = (.ok result, ⟨image, some image'⟩)) ∨
      ∃ exc, (op.run fault).run ⟨image, some working⟩ = (.error exc, ⟨image, some working⟩) := by
    rw [hop]
    cases fault with
    | some exc => exact Or.inr ⟨exc, rfl⟩
    | none =>
        cases hf : f working with
        | error exc => exact Or.inr ⟨exc, Db.statement_run_error_iff.mpr ⟨hf, rfl⟩⟩
        | ok result =>
            exact Or.inl ⟨result.1, result.2, rfl, Db.statement_run_ok_iff.mpr ⟨_, hf, rfl⟩⟩
  refine meets_await hcommitted (fun fault => ?_) fun fault => ?_
  · rcases hrun fault with ⟨result, image', hf, heq⟩ | ⟨exc, heq⟩
    · rw [heq]
      exact hok result image' hf
    · rw [heq]
      exact herror exc working
  · rcases hrun fault with ⟨result, image', hf, heq⟩ | ⟨exc, heq⟩
    · rw [heq]
      exact herror _ image'
    · rw [heq]
      exact herror _ working

/-- The statements of a migration are executed in their order. -/
theorem meets_statements
    (hcommitted : ∃ applied, applied <+: all ∧ AppliedOnce base applied image) :
    (migration.statements.forM fun statement => await (.execute statement)).Meets
      (migrationProtocol base all) ⟨image, some image⟩ fun outcome conn =>
        ∃ image', conn = ⟨image, some image'⟩ ∧ (outcome = .ok () →
          migration.effect image.content = .ok image'.content ∧
            image'.schemaMigrations = image.schemaMigrations) := by
  -- what is left to execute leads from the working image to the effect of the whole migration
  refine Program.meets_forM (fun rest conn => ∃ working, conn = ⟨image, some working⟩ ∧
    rest.foldlM (fun content statement => statement content) working.content =
      migration.effect image.content ∧ working.schemaMigrations = image.schemaMigrations)
    ?_ ?_ ⟨image, rfl, rfl, rfl⟩
  · rintro statement rest conn ⟨working, rfl, heffect, hrows⟩
    refine meets_await_open (fun _ => rfl) hcommitted (fun _ image' hf => ?_) fun exc image' => ?_
    · rw [MigratedDb.executeStatement] at hf
      cases hcontent : statement working.content with
      | error exc =>
          rw [hcontent] at hf
          cases hf
      | ok content =>
          rw [hcontent] at hf
          cases hf
          rw [List.foldlM_cons, hcontent] at heffect
          exact ⟨_, rfl, heffect, hrows⟩
    · exact ⟨image', rfl, by simp⟩
  · rintro conn ⟨working, rfl, heffect, hrows⟩
    exact ⟨working, rfl, fun _ => ⟨heffect.symm, hrows⟩⟩

/-- The row of a migration. -/
theorem insertVersion_versions {version appliedAt : ℤ} {image image' : MigratedDb τ}
    (h : image.insertVersion version appliedAt = .ok ((), image')) :
    image'.content = image.content ∧ image'.versions = image.versions ++ [version] := by
  rw [MigratedDb.insertVersion] at h
  cases hrows : image.schemaMigrations with
  | none =>
      rw [hrows] at h
      cases h
  | some rows =>
      rw [hrows] at h
      dsimp only at h
      split at h
      · cases h
      · cases h
        simp [MigratedDb.versions, hrows]

/-- A migration is applied as a whole, or not at all. -/
theorem meets_migrate (himage : AppliedOnce base done image)
    (hinitial : done ++ [migration] <+: all) :
    (migrate migration).Meets (migrationProtocol base all) ⟨image, none⟩ fun outcome conn =>
      match outcome with
      | .ok _ => ∃ image', conn = ⟨image', none⟩ ∧ AppliedOnce base (done ++ [migration]) image'
      | .error _ => Settled base done conn ∨ Settled base (done ++ [migration]) conn := by
  have hdone : done <+: all := (List.prefix_append _ _).trans hinitial
  have hcommitted : ∃ applied, applied <+: all ∧ AppliedOnce base applied image :=
    ⟨done, hdone, himage⟩
  refine meets_transaction hdone himage hinitial ?_
  refine Program.meets_bind.mpr ((meets_statements hcommitted).mono ?_)
  rintro outcome conn ⟨working, rfl, heffect⟩
  cases outcome with
  | error exc => exact ⟨working, rfl, by simp⟩
  | ok _ =>
      obtain ⟨heffect, hrows⟩ := heffect rfl
      refine ⟨hcommitted, fun appliedAt conn' hmoves => ?_⟩
      cases hmoves
      refine meets_await_open (fun _ => rfl) hcommitted (fun _ image' hf => ?_) fun exc image' => ?_
      · obtain ⟨hcontent, hversions⟩ := insertVersion_versions hf
        refine ⟨image', rfl, fun _ => himage.snoc (hcontent ▸ heffect) ?_⟩
        rw [hversions, MigratedDb.versions, hrows, MigratedDb.versions]
      · exact ⟨image', rfl, by simp⟩

/-- What a run of `apply_migrations` leaves behind. -/
def RunEnds (base : τ) (all migrations : List (Migration τ)) (outcome : Except PyExc Unit)
    (conn : Connection (MigratedDb τ)) : Prop :=
  ∃ applied, applied <+: all ∧ Settled base applied conn ∧ (outcome = .ok () →
    migrations <+: applied ∧ conn.working = none)

/-- The loop goes through the migrations that are applied, and applies the others. -/
theorem meets_loop {current : ℤ} (hordered : VersionsIncrease all) (happlied : applied <+: all)
    (himage : AppliedOnce base applied image) (hcurrent : image.currentVersion = .ok current)
    (hmigrations : migrations <+: all) :
    (migrations.forM fun migration : Migration τ =>
        if migration.version ≤ current then pure () else migrate migration).Meets
      (migrationProtocol base all) ⟨image, none⟩ (RunEnds base all migrations) := by
  obtain ⟨hbelow, habove⟩ := himage.currentVersion_spec hordered happlied hcurrent
  -- what is gone through so far and what was applied before, whichever is longer, is applied
  refine Program.meets_forM (fun rest conn => ∃ done now image', migrations = done ++ rest ∧
    conn = ⟨image', none⟩ ∧ AppliedOnce base now image' ∧ now <+: all ∧ done <+: now ∧
    (now = applied ∨ applied <+: done ∧ now = done)) ?_ ?_
    ⟨[], applied, image, rfl, rfl, himage, happlied, List.nil_prefix, Or.inl rfl⟩
  · rintro migration rest conn ⟨done, now, image', rfl, rfl, himage', hnow, hdone, hcase⟩
    have hinitial : done ++ [migration] <+: all := by
      refine List.IsPrefix.trans ?_ hmigrations
      exact ⟨rest, by simp⟩
    have hsplit : done ++ migration :: rest = (done ++ [migration]) ++ rest := by simp
    rcases prefix_or_applied happlied hinitial with hbefore | happlied
    · -- it comes after everything that is applied
      have hsame : now = done := by
        rcases hcase with rfl | ⟨-, rfl⟩
        · exact hbefore.eq_of_length_le hdone.length_le
        · rfl
      subst hsame
      rw [if_neg (not_le.mpr (habove _ _ hbefore hinitial))]
      refine (meets_migrate himage' hinitial).mono fun outcome conn hend => ?_
      cases outcome with
      | ok _ =>
          obtain ⟨image'', rfl, himage''⟩ := hend
          exact ⟨now ++ [migration], now ++ [migration], image'', hsplit, rfl, himage'', hinitial,
            List.prefix_refl _, Or.inr ⟨hbefore.trans (List.prefix_append _ _), rfl⟩⟩
      | error exc =>
          rcases hend with hend | hend
          · exact ⟨now, hnow, hend, by simp⟩
          · exact ⟨now ++ [migration], hinitial, hend, by simp⟩
    · -- it is one of those
      rw [if_pos (hbelow _ (happlied.subset (List.mem_append_right _ List.mem_cons_self)))]
      have hsame : now = applied := by
        rcases hcase with hcase | ⟨hbefore, -⟩
        · exact hcase
        · have hlength := (happlied.trans hbefore).length_le
          simp at hlength
      subst hsame
      exact ⟨done ++ [migration], now, image', hsplit, rfl, himage', hnow, happlied, Or.inl rfl⟩
  · rintro conn ⟨done, now, image', rfl, rfl, himage', hnow, hdone, -⟩
    rw [List.append_nil]
    exact ⟨now, hnow, ⟨himage', by simp⟩, fun _ => ⟨hdone, rfl⟩⟩

/-- The part of a run from the query on. -/
theorem meets_read (hordered : VersionsIncrease all) (happlied : applied <+: all)
    (himage : AppliedOnce base applied image) (hmigrations : migrations <+: all) :
    (do
      let current ← await .currentVersion
      migrations.forM fun migration : Migration τ =>
        if migration.version ≤ current then pure () else migrate migration :
      MigrationProgram τ Unit).Meets (migrationProtocol base all) ⟨image, none⟩
        (RunEnds base all migrations) := by
  have hstop (exc : PyExc) : RunEnds base all migrations (.error exc) ⟨image, none⟩ :=
    ⟨applied, happlied, ⟨himage, by simp⟩, by simp⟩
  refine Program.meets_bind.mpr (meets_await ⟨applied, happlied, himage⟩ (fun fault => ?_)
    fun fault => ?_)
  · cases fault with
    | some exc => exact hstop exc
    | none =>
        have hread : (MigrationOp.currentVersion.run none).run ⟨image, none⟩ =
            (image.currentVersion, ⟨image, none⟩) := rfl
        rw [hread]
        cases hcurrent : image.currentVersion with
        | error exc => exact hstop exc
        | ok current => exact meets_loop hordered happlied himage hcurrent hmigrations
  · cases fault with
    | none => exact hstop _
    | some exc => exact hstop _

/-- A run, from a database that the last one has left. -/
theorem meets_applyMigrations (hordered : VersionsIncrease all) (happlied : applied <+: all)
    (hsettled : Settled base applied conn) (hmigrations : migrations <+: all) :
    (applyMigrations migrations).Meets (migrationProtocol base all) conn
      (RunEnds base all migrations) := by
  have hstop (exc : PyExc) (conn : Connection (MigratedDb τ)) (h : Settled base applied conn) :
      RunEnds base all migrations (.error exc) conn := ⟨applied, happlied, h, by simp⟩
  refine Program.meets_bind.mpr (meets_await ⟨applied, happlied, hsettled.1⟩ (fun fault => ?_)
    fun fault => hstop _ _ hsettled.createTable)
  have hcreated : Settled base applied ((MigrationOp.createTable.run fault).run conn).2 :=
    hsettled.createTable
  generalize (MigrationOp.createTable.run fault).run conn = created at hcreated ⊢
  obtain ⟨outcome, conn⟩ := created
  cases outcome with
  | error exc => exact hstop exc _ hcreated
  | ok _ =>
      -- the commit makes the working image the committed one
      have hclosed : Settled base applied ⟨conn.image, none⟩ := ⟨hcreated.commit, by simp⟩
      refine Program.meets_bind.mpr (meets_await ⟨applied, happlied, hcreated.1⟩ (fun fault => ?_)
        fun fault => ?_)
      · cases fault with
        | some exc => exact hstop exc _ hcreated
        | none =>
            exact meets_read hordered happlied hclosed.committed hmigrations
      · cases fault with
        | none => exact hstop _ _ hclosed
        | some exc => exact hstop _ _ hcreated

end MigrationProgram

/-! ## Sequences of runs -/

section Runs

variable {τ : Type} {base : τ} {all : List (Migration τ)} {s s' : MigrationState τ}
  {init : MigratedDb τ} {events : List (MigrationEvent τ)}

/-- Between two runs the connection is settled, and a run that is in progress keeps to its protocol
from where it stands. -/
def MigrationState.Sound (base : τ) (all : List (Migration τ)) (s : MigrationState τ) : Prop :=
  match s.run with
  | none => ∃ applied, applied <+: all ∧ Settled base applied s.conn
  | some (migrations, rest) =>
      rest.Meets (migrationProtocol base all) s.conn
        (MigrationProgram.RunEnds base all migrations)

/-- Wherever a run stands, what is committed is the database of some of `all`. -/
theorem MigrationState.Sound.committed (h : s.Sound base all) :
    ∃ applied, applied <+: all ∧ AppliedOnce base applied s.conn.committed := by
  rw [MigrationState.Sound] at h
  split at h
  · obtain ⟨applied, happlied, hsettled⟩ := h
    exact ⟨applied, happlied, hsettled.committed⟩
  · rename_i migrations rest _
    cases rest with
    | ask question next => exact h.1
    | done outcome =>
        obtain ⟨applied, happlied, hsettled, -⟩ := h
        exact ⟨applied, happlied, hsettled.committed⟩

/-- Every step keeps the state sound, and a run that completes has applied its list. -/
theorem MigrationStep.sound {event : MigrationEvent τ} (hstep : MigrationStep s event s')
    (hordered : VersionsIncrease all) (h : s.Sound base all)
    (hlist : ∀ migrations, event = .started migrations → migrations <+: all) :
    s'.Sound base all ∧ ∀ migrations, event = .finished migrations (.ok ()) →
      ∃ applied, applied <+: all ∧ migrations <+: applied ∧
        AppliedOnce base applied s'.conn.committed ∧ s'.conn.working = none := by
  -- each step is a reply to what the run awaits, or stands between two runs
  cases hstep with
  | start hidle =>
      rw [MigrationState.Sound, hidle] at h
      obtain ⟨applied, happlied, hsettled⟩ := h
      exact ⟨MigrationProgram.meets_applyMigrations hordered happlied hsettled (hlist _ rfl),
        by simp⟩
  | clock time hrun =>
      rw [MigrationState.Sound, hrun] at h
      exact ⟨h.2 time s.conn (.clock time), by simp⟩
  | perform fault hrun =>
      rw [MigrationState.Sound, hrun] at h
      exact ⟨h.2 _ _ (.performed fault), by simp⟩
  | cancel fault hrun =>
      rw [MigrationState.Sound, hrun] at h
      exact ⟨h.2 _ _ (.cancelled fault), by simp⟩
  | finish hrun =>
      rw [MigrationState.Sound, hrun] at h
      obtain ⟨applied, happlied, hsettled, hcomplete⟩ := h
      refine ⟨⟨applied, happlied, hsettled⟩, fun migrations heq => ?_⟩
      cases heq
      obtain ⟨hmigrations, hclosed⟩ := hcomplete rfl
      exact ⟨applied, happlied, hmigrations, hsettled.committed, hclosed⟩
  -- what is committed survives, and the protocol says what that is
  | crash =>
      obtain ⟨applied, happlied, hcommitted⟩ := h.committed
      exact ⟨⟨applied, happlied, hcommitted, by simp⟩, by simp⟩

/-- Every sequence of runs keeps the state sound. -/
theorem sound_of_trace (hordered : VersionsIncrease all)
    (hinit : ∃ applied, applied <+: all ∧ AppliedOnce base applied init)
    (hrun : Trace MigrationStep { conn := { committed := init } } events s)
    (hlists : ∀ migrations, .started migrations ∈ events → migrations <+: all) :
    s.Sound base all := by
  induction hrun with
  | nil =>
      obtain ⟨applied, happlied, himage⟩ := hinit
      exact ⟨applied, happlied, himage, by simp⟩
  | snoc prior last ih =>
      refine (last.sound hordered (ih fun migrations hmem => ?_) fun migrations heq => ?_).1
      · exact hlists migrations (List.mem_append_left _ hmem)
      · exact hlists migrations (by simp [heq])

/-- **Migrations are applied exactly once.** Let the versions of `all` be positive and strictly
increasing, and let the database be the one of a first part of it. In every sequence of runs of
`apply_migrations` with first parts of `all`, where each run may raise, be cancelled, or die with
its process at any operation: what is committed is at every point the database of a first part of
`all`, between two runs the connection sees the same, and a run that completes leaves the whole
list that it was given applied. -/
theorem migrations_exactly_once (hordered : VersionsIncrease all)
    (hinit : ∃ applied, applied <+: all ∧ AppliedOnce base applied init)
    (hrun : Trace MigrationStep { conn := { committed := init } } events s)
    (hlists : ∀ migrations, .started migrations ∈ events → migrations <+: all) :
    (∃ applied, applied <+: all ∧ AppliedOnce base applied s.conn.committed) ∧
    (s.run = none → ∃ applied, applied <+: all ∧ Settled base applied s.conn) ∧
    ∀ earlier migrations, events = earlier ++ [.finished migrations (.ok ())] →
      ∃ applied, applied <+: all ∧ migrations <+: applied ∧
        AppliedOnce base applied s.conn.committed ∧ s.conn.working = none := by
  have hsound := sound_of_trace hordered hinit hrun hlists
  refine ⟨hsound.committed, fun hidle => ?_, ?_⟩
  · rw [MigrationState.Sound, hidle] at hsound
    exact hsound
  · rintro earlier migrations rfl
    obtain ⟨before, hbefore, hlast⟩ := hrun.of_snoc
    have hprior := sound_of_trace hordered hinit hbefore fun migrations hmem =>
      hlists migrations (List.mem_append_left _ hmem)
    exact (hlast.sound hordered hprior (by simp)).2 migrations rfl

/-! ### An interrupted run -/

/-- What the environment does next. -/
inductive MigrationInput (τ : Type)
  | start (migrations : List (Migration τ))
  /-- The run goes on with the result of what it awaits. -/
  | proceed
  | crash

/-- Execute one input. -/
def MigrationState.advance (s : MigrationState τ) :
    MigrationInput τ → Option (MigrationEvent τ × MigrationState τ)
  | .start migrations =>
      match s.run with
      | none => some (.started migrations,
          { s with run := some (migrations, applyMigrations migrations) })
      | some _ => none
  | .proceed =>
      match s.run with
      | none => none
      | some (migrations, Program.done outcome) =>
          some (.finished migrations outcome, { s with run := none })
      | some (migrations, Program.ask .clock next) =>
          some (.clock 0, { s with run := some (migrations, next (0 : ℤ)) })
      | some (migrations, Program.ask (.database op) next) =>
          let result := (op.run none).run s.conn
          some (.performed none, { conn := result.2, run := some (migrations, next result.1) })
  | .crash => some (.crashed, { conn := { committed := s.conn.committed } })

theorem MigrationState.advance_step {input : MigrationInput τ} {event : MigrationEvent τ}
    (h : s.advance input = some (event, s')) : MigrationStep s event s' := by
  cases input with
  | start migrations =>
      rw [advance] at h
      split at h
      · cases h
        exact .start ‹_›
      · cases h
  | proceed =>
      rw [advance] at h
      split at h
      · cases h
      · cases h
        exact .finish ‹_›
      · cases h
        exact .clock 0 ‹_›
      · cases h
        exact .perform none ‹_›
  | crash =>
      cases h
      exact .crash

/-- Only a start starts a run. -/
theorem MigrationState.advance_started {input : MigrationInput τ} {event : MigrationEvent τ}
    {migrations : List (Migration τ)} (h : s.advance input = some (event, s'))
    (hevent : event = .started migrations) : input = .start migrations := by
  subst hevent
  cases input with
  | start migrations' =>
      rw [advance] at h
      split at h
      · cases h
        rfl
      · cases h
  | proceed =>
      rw [advance] at h
      split at h <;> cases h
  | crash => cases h

/-- Two migrations of a counter. -/
def counterMigrations : List (Migration ℕ) :=
  [⟨1, [fun content => .ok (content + 1)]⟩, ⟨2, [fun content => .ok (content * 10)]⟩]

/-- A process that dies in the first migration, and the run of the next process. -/
def interruptedRun : List (MigrationEvent ℕ) × MigrationState ℕ :=
  Trace.exec MigrationState.advance { conn := { committed := { content := 0 } } } []
    (.start counterMigrations :: List.replicate 5 .proceed ++
      .crash :: .start counterMigrations :: List.replicate 13 .proceed)

/-- Each statement has been executed once when the second run completes. -/
theorem migrations_exactly_once_interrupted :
    ∃ s, Trace MigrationStep { conn := { committed := { content := 0 } } }
        (interruptedRun.1 ++ [.finished counterMigrations (.ok ())]) s ∧
      s.conn.committed.content = 10 ∧
      ∃ applied, applied <+: counterMigrations ∧ counterMigrations <+: applied ∧
        AppliedOnce 0 applied s.conn.committed := by
  have hbefore : Trace MigrationStep { conn := { committed := { content := 0 } } }
      interruptedRun.1 interruptedRun.2 :=
    Trace.exec_trace (fun _ _ _ _ => MigrationState.advance_step) _ Trace.nil
  have hrun := hbefore.snoc (@MigrationStep.finish ℕ _ counterMigrations (.ok ()) rfl)
  have hordered : VersionsIncrease counterMigrations := by
    constructor
    · simp [counterMigrations]
    · simp [counterMigrations]
  have hlists : ∀ event ∈ interruptedRun.1, ∀ migrations, event = .started migrations →
      migrations <+: counterMigrations := by
    refine Trace.exec_labels (fun s input hinput event s' h migrations hevent => ?_) (by simp)
    rw [MigrationState.advance_started h hevent] at hinput
    have hmigrations : migrations = counterMigrations := by simpa using hinput
    exact hmigrations ▸ List.prefix_refl _
  obtain ⟨-, -, hcomplete⟩ := migrations_exactly_once hordered
    ⟨[], List.nil_prefix, appliedOnce_nil rfl⟩ hrun fun migrations hmem => by
      rcases List.mem_append.mp hmem with hmem | hmem
      · exact hlists _ hmem migrations rfl
      · simp at hmem
  obtain ⟨applied, happlied, hall, honce, -⟩ := hcomplete _ _ rfl
  exact ⟨_, hrun, rfl, applied, happlied, hall, honce⟩

end Runs

end BybitMonitor
