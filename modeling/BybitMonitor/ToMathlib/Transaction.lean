import Mathlib.Data.Nat.Notation

/-!
# Transactions on one connection

A connection holds the committed image of a database and, while a transaction is open, its working
image. Statements act on the working image, and an exception leaves what was done before it in
place, so that it is the rollback of the transaction that discards it.

* `Db.transaction_error`: a transaction that raises leaves the connection as it was, and the
  exception comes from `BEGIN`, its body or `COMMIT`.
* `Db.transaction_ok_iff`: a transaction that returns commits the image that its body has produced.
-/

/-- A connection: the committed image and, in a transaction, the working image. -/
structure Connection (τ : Type) where
  committed : τ
  working : Option τ := none
  deriving DecidableEq, Repr

/-- The image that a statement reads. -/
def Connection.image {τ : Type} (self : Connection τ) : τ := self.working.getD self.committed

/-- A computation on a connection that may raise; what it did before it raised stays done. -/
def Db (ε τ α : Type) : Type := Connection τ → Except ε α × Connection τ

namespace Db

variable {ε τ α β : Type}

/-- Run a computation on a connection. -/
def run (x : Db ε τ α) (conn : Connection τ) : Except ε α × Connection τ := x conn

/-- Return without touching the connection. -/
def pure (a : α) : Db ε τ α := fun conn => (.ok a, conn)

/-- Continue with the result of a computation, unless it raised. -/
def bind (x : Db ε τ α) (f : α → Db ε τ β) : Db ε τ β := fun conn =>
  match x conn with
  | (.ok a, conn') => f a conn'
  | (.error e, conn') => (.error e, conn')

instance : Monad (Db ε τ) where
  pure := pure
  bind := bind

/-- Raise. -/
def throw (e : ε) : Db ε τ α := fun conn => (.error e, conn)

/-- A computation that does not use the connection. -/
def lift (x : Except ε α) : Db ε τ α := fun conn => (x, conn)

/-- Run a handler if the computation raises. -/
def tryCatch (x : Db ε τ α) (handler : ε → Db ε τ α) : Db ε τ α := fun conn =>
  match x conn with
  | (.ok a, conn') => (.ok a, conn')
  | (.error e, conn') => handler e conn'

/-- An operation that raises `fault`, if there is one, before it has any effect. -/
def guarded (fault : Option ε) (x : Db ε τ α) : Db ε τ α :=
  match fault with
  | none => x
  | some e => throw e

/-- `BEGIN`, which raises `nested` inside a transaction. -/
def begin (nested : ε) : Db ε τ Unit := fun conn =>
  match conn.working with
  | none => (.ok (), { conn with working := some conn.committed })
  | some _ => (.error nested, conn)

/-- `COMMIT`. -/
def commit : Db ε τ Unit := fun conn => (.ok (), { committed := conn.image })

/-- `ROLLBACK`. -/
def rollback : Db ε τ Unit := fun conn => (.ok (), { committed := conn.committed })

/-- A statement that writes, which opens a transaction if there is none. -/
def statement (f : τ → Except ε (α × τ)) : Db ε τ α := fun conn =>
  match f conn.image with
  | .ok (a, image) => (.ok a, { conn with working := some image })
  | .error e => (.error e, conn)

/-- A query, which opens no transaction. -/
def query (f : τ → α) : Db ε τ α := fun conn => (.ok (f conn.image), conn)

/-- A block between `BEGIN` and `COMMIT` that is rolled back if it raises. -/
def transaction (nested : ε) (beginFault commitFault : Option ε) (body : Db ε τ α) : Db ε τ α := do
  guarded beginFault (begin nested)
  tryCatch
    (do
      let a ← body
      guarded commitFault commit
      return a)
    fun e => do
      rollback
      throw e

theorem bind_run (x : Db ε τ α) (f : α → Db ε τ β) (conn : Connection τ) :
    (x >>= f).run conn =
      match x.run conn with
      | (.ok a, conn') => (f a).run conn'
      | (.error e, conn') => (.error e, conn') := rfl

theorem tryCatch_run (x : Db ε τ α) (handler : ε → Db ε τ α) (conn : Connection τ) :
    (tryCatch x handler).run conn =
      match x.run conn with
      | (.ok a, conn') => (.ok a, conn')
      | (.error e, conn') => (handler e).run conn' := rfl

/-- A computation returns if its first part and its continuation do. -/
theorem bind_run_ok_iff {x : Db ε τ α} {f : α → Db ε τ β} {conn conn' : Connection τ} {b : β} :
    (x >>= f).run conn = (.ok b, conn') ↔
      ∃ a conn₁, x.run conn = (.ok a, conn₁) ∧ (f a).run conn₁ = (.ok b, conn') := by
  rw [bind_run]
  constructor
  · intro h
    split at h
    · rename_i a conn₁ hx
      exact ⟨a, conn₁, hx, h⟩
    · cases h
  · rintro ⟨a, conn₁, hx, hf⟩
    rw [hx]
    exact hf

/-- A computation raises if its first part or its continuation does. -/
theorem bind_run_error_iff {x : Db ε τ α} {f : α → Db ε τ β} {conn conn' : Connection τ} {e : ε} :
    (x >>= f).run conn = (.error e, conn') ↔
      x.run conn = (.error e, conn') ∨
        ∃ a conn₁, x.run conn = (.ok a, conn₁) ∧ (f a).run conn₁ = (.error e, conn') := by
  rw [bind_run]
  constructor
  · intro h
    split at h
    · rename_i a conn₁ hx
      exact Or.inr ⟨a, conn₁, hx, h⟩
    · rename_i e' conn₁ hx
      obtain ⟨rfl, rfl⟩ : e' = e ∧ conn₁ = conn' := by simpa using h
      exact Or.inl hx
  · rintro (hx | ⟨a, conn₁, hx, hf⟩)
    · rw [hx]
    · rw [hx]
      exact hf

/-- A guarded operation returns if no fault is injected and it does. -/
theorem guarded_run_ok_iff {fault : Option ε} {x : Db ε τ α} {conn conn' : Connection τ}
    {a : α} : (guarded fault x).run conn = (.ok a, conn') ↔
      fault = none ∧ x.run conn = (.ok a, conn') := by
  cases fault with
  | none => simp [guarded]
  | some e => simp [guarded, throw, run]

/-- A guarded operation raises its fault, or what it raises itself. -/
theorem guarded_run_error_iff {fault : Option ε} {x : Db ε τ α} {conn conn' : Connection τ}
    {e : ε} : (guarded fault x).run conn = (.error e, conn') ↔
      (fault = some e ∧ conn' = conn) ∨
        (fault = none ∧ x.run conn = (.error e, conn')) := by
  cases fault with
  | none => simp [guarded]
  | some e' => simp [guarded, throw, run, eq_comm]

/-- A computation of statements: it commits nothing and leaves an open transaction open. -/
def KeepsOpen (x : Db ε τ α) : Prop :=
  ∀ committed image, ∃ image', (x.run ⟨committed, some image⟩).2 = ⟨committed, some image'⟩

theorem keepsOpen_pure (a : α) : KeepsOpen (Pure.pure a : Db ε τ α) :=
  fun _ image => ⟨image, rfl⟩

theorem keepsOpen_lift (x : Except ε α) : KeepsOpen (lift x : Db ε τ α) :=
  fun _ image => ⟨image, rfl⟩

theorem keepsOpen_guarded {fault : Option ε} {x : Db ε τ α} (h : KeepsOpen x) :
    KeepsOpen (guarded fault x) := by
  cases fault with
  | none => exact h
  | some e => exact fun _ image => ⟨image, rfl⟩

theorem keepsOpen_statement (f : τ → Except ε (α × τ)) : KeepsOpen (statement f) := by
  intro committed image
  cases hf : f image with
  | ok result => exact ⟨result.2, by simp [run, statement, Connection.image, hf]⟩
  | error e => exact ⟨image, by simp [run, statement, Connection.image, hf]⟩

theorem keepsOpen_bind {x : Db ε τ α} {f : α → Db ε τ β} (hx : KeepsOpen x)
    (hf : ∀ a, KeepsOpen (f a)) : KeepsOpen (x >>= f) := by
  intro committed image
  obtain ⟨image₁, hx⟩ := hx committed image
  -- a computation that raises leaves the image of its first part
  cases hresult : x.run ⟨committed, some image⟩ with
  | mk result conn =>
      rw [hresult] at hx
      obtain rfl : conn = ⟨committed, some image₁⟩ := hx
      cases result with
      | ok a =>
          obtain ⟨image₂, hf⟩ := hf a committed image₁
          exact ⟨image₂, by rw [bind_run, hresult]; exact hf⟩
      | error e => exact ⟨image₁, by rw [bind_run, hresult]⟩

theorem keepsOpen_forM {ι : Type} {body : ι → Db ε τ PUnit} (h : ∀ i, KeepsOpen (body i))
    (items : List ι) : KeepsOpen (items.forM body) := by
  induction items with
  | nil => exact keepsOpen_pure _
  | cons i items ih => exact keepsOpen_bind (h i) fun _ => ih

/-- A statement that succeeds changes the working image. -/
theorem statement_run_ok_iff {f : τ → Except ε (α × τ)} {committed image : τ} {a : α}
    {conn : Connection τ} :
    (statement f).run ⟨committed, some image⟩ = (.ok a, conn) ↔
      ∃ image', f image = .ok (a, image') ∧ conn = ⟨committed, some image'⟩ := by
  cases hf : f image with
  | ok result => simp [run, statement, Connection.image, hf, Prod.ext_iff, eq_comm, and_assoc]
  | error e => simp [run, statement, Connection.image, hf]

/-- A statement that raises changes nothing. -/
theorem statement_run_error_iff {f : τ → Except ε (α × τ)} {committed image : τ} {e : ε}
    {conn : Connection τ} :
    (statement f).run ⟨committed, some image⟩ = (.error e, conn) ↔
      f image = .error e ∧ conn = ⟨committed, some image⟩ := by
  cases hf : f image with
  | ok result => simp [run, statement, Connection.image, hf]
  | error e' => simp [run, statement, Connection.image, hf, eq_comm]

section Transaction

variable {nested : ε} {beginFault commitFault : Option ε} {body : Db ε τ α} {committed : τ}
  {conn : Connection τ}

/-- The outcome of a transaction whose body ends with `result` and `image`. -/
def outcome (committed image : τ) : Option ε → Except ε α → Option ε → Except ε α × Connection τ
  | some e, _, _ => (.error e, ⟨committed, none⟩)
  | none, .error e, _ => (.error e, ⟨committed, none⟩)
  | none, .ok _, some e => (.error e, ⟨committed, none⟩)
  | none, .ok a, none => (.ok a, ⟨image, none⟩)

/-- A transaction is decided by the outcome of its body. -/
theorem transaction_run {result : Except ε α} {image : τ}
    (hbody : body.run ⟨committed, some committed⟩ = (result, ⟨committed, some image⟩)) :
    (transaction nested beginFault commitFault body).run ⟨committed, none⟩ =
      outcome committed image beginFault result commitFault := by
  cases beginFault with
  | some e => rfl
  | none =>
      -- `BEGIN` opens the working image that the body runs on
      change (tryCatch _ _).run ⟨committed, some committed⟩ = _
      rw [tryCatch_run, bind_run, hbody]
      cases result with
      | error e => rfl
      | ok a =>
          cases commitFault with
          | some e => rfl
          | none => rfl

/-- A transaction that returns commits the image that its body has produced. -/
theorem transaction_ok_iff (hbody : KeepsOpen body) {a : α} :
    (transaction nested beginFault commitFault body).run ⟨committed, none⟩ = (.ok a, conn) ↔
      beginFault = none ∧ commitFault = none ∧
        ∃ image, body.run ⟨committed, some committed⟩ = (.ok a, ⟨committed, some image⟩) ∧
          conn = ⟨image, none⟩ := by
  obtain ⟨image, himage⟩ := hbody committed committed
  cases hrun : body.run ⟨committed, some committed⟩ with
  | mk result conn' =>
      obtain rfl : conn' = ⟨committed, some image⟩ := by rw [hrun] at himage; exact himage
      rw [transaction_run hrun]
      -- each of `BEGIN`, the body and `COMMIT` may be the one that raises
      cases beginFault with
      | some e => simp [outcome]
      | none =>
          cases result with
          | error e => simp [outcome]
          | ok a' =>
              cases commitFault with
              | some e => simp [outcome]
              | none => simp [outcome, and_assoc, eq_comm]

/-- A transaction that raises leaves the connection as it was; the exception is the one of
`BEGIN`, of its body or of `COMMIT`. -/
theorem transaction_error (hbody : KeepsOpen body) {e : ε}
    (h : (transaction nested beginFault commitFault body).run ⟨committed, none⟩ =
      (.error e, conn)) :
    conn = ⟨committed, none⟩ ∧
      (beginFault = some e ∨
        (∃ image, body.run ⟨committed, some committed⟩ = (.error e, ⟨committed, some image⟩)) ∨
        commitFault = some e) := by
  obtain ⟨image, himage⟩ := hbody committed committed
  cases hrun : body.run ⟨committed, some committed⟩ with
  | mk result conn' =>
      obtain rfl : conn' = ⟨committed, some image⟩ := by rw [hrun] at himage; exact himage
      rw [transaction_run hrun] at h
      -- name the part that has raised; the rollback has dropped the image of the body
      cases beginFault with
      | some e' =>
          obtain ⟨he, rfl⟩ := Prod.mk.inj h
          exact ⟨rfl, Or.inl (congrArg some (Except.error.inj he))⟩
      | none =>
          cases result with
          | error e' =>
              obtain ⟨he, rfl⟩ := Prod.mk.inj h
              exact ⟨rfl, Or.inr (Or.inl ⟨image, by rw [he]⟩)⟩
          | ok a =>
              cases commitFault with
              | some e' =>
                  obtain ⟨he, rfl⟩ := Prod.mk.inj h
                  exact ⟨rfl, Or.inr (Or.inr (congrArg some (Except.error.inj he)))⟩
              | none => cases (Prod.mk.inj h).1

/-- A transaction commits what its body has done, or raises and leaves the connection as it was. -/
theorem transaction_run_cases (hbody : KeepsOpen body) :
    (∃ e, (transaction nested beginFault commitFault body).run ⟨committed, none⟩ =
      (.error e, ⟨committed, none⟩)) ∨
    ∃ a image, body.run ⟨committed, some committed⟩ = (.ok a, ⟨committed, some image⟩) ∧
      (transaction nested beginFault commitFault body).run ⟨committed, none⟩ =
        (.ok a, ⟨image, none⟩) := by
  cases hrun : (transaction nested beginFault commitFault body).run ⟨committed, none⟩ with
  | mk result conn =>
      cases result with
      | error e =>
          obtain ⟨rfl, -⟩ := transaction_error hbody hrun
          exact Or.inl ⟨e, rfl⟩
      | ok a =>
          obtain ⟨-, -, image, himage, rfl⟩ := (transaction_ok_iff hbody).mp hrun
          exact Or.inr ⟨a, image, himage, rfl⟩

end Transaction

end Db
